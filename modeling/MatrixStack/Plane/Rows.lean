/-
A plane over a list of rows.

Rows may be shorter than the width of the plane; a read past the end of a short row gives the
default, and a write there fills the row up to the written cell.  Rows may also be longer than the
width, and what lies beyond it is never read.

Rows are values: a plane has its rows to itself, so no write to another plane or another row can
change them.  There is room for every row that is asked for.
-/
import MatrixStack.Plane.Extent

namespace MatrixStack

structure RowPlane (α : Type) where
  rows : List (List α)
  default : α
  width : Int
  deriving DecidableEq

namespace RowPlane

variable {α : Type}

def extent (p : RowPlane α) : Extent := ⟨p.width, p.rows.length⟩

/-- The length of the longest row. -/
def longest (rows : List (List α)) : Nat := rows.foldl (fun n row => max n row.length) 0

/-- A plane as wide as its longest row, the rows left as they are. -/
def ragged (rows : List (List α)) (default : α) : RowPlane α := ⟨rows, default, longest rows⟩

/-- The row with defaults at its end, up to the given length. -/
def padRow (default : α) (length : Nat) (row : List α) : List α :=
  row ++ List.replicate (length - row.length) default

/-- A plane as wide as its longest row, the others filled up to it. -/
def padded (rows : List (List α)) (default : α) : RowPlane α :=
  ⟨rows.map (padRow default (longest rows)), default, longest rows⟩

/-- A plane with a cell for every pointer, made from the number of the cell in row order. -/
def generate (e : Extent) (default : α) (cell : Nat → α) : RowPlane α :=
  let row (y : Nat) := (List.range e.width.toNat).map fun x => cell (y * e.width.toNat + x)
  ⟨(List.range e.height.toNat).map row, default, e.width⟩

/-- The cell of a row, or the default past its end. -/
def cellOf (default : α) (row : List α) (x : Nat) : α := row[x]?.getD default

def get? (p : RowPlane α) (q : Pointer) : Option α :=
  if p.extent.contains q then
    some (cellOf p.default (p.rows[q.y.toNat]?.getD []) q.x.toNat)
  else none

/-- Replace the cell of a row, filling the row up to it first. -/
def setRow (default : α) (row : List α) (x : Nat) (a : α) : List α :=
  (padRow default (x + 1) row).set x a

def set? (p : RowPlane α) (q : Pointer) (a : α) : Option (RowPlane α) :=
  if p.extent.contains q then
    some { p with rows := p.rows.modify q.y.toNat fun row => setRow p.default row q.x.toNat a }
  else none

theorem cellOf_setRow (default : α) (row : List α) (x i : Nat) (a : α) :
    cellOf default (setRow default row x a) i = if x = i then a else cellOf default row i := by
  simp only [cellOf, setRow, padRow, List.getElem?_set, List.length_append, List.length_replicate]
  by_cases hx : x = i
  · subst hx
    simp only [if_true]
    rw [if_pos (by omega)]
    rfl
  · simp only [hx, if_false]
    by_cases hi : i < row.length
    · rw [List.getElem?_append_left hi]
    · rw [List.getElem?_append_right (by omega), List.getElem?_replicate,
        List.getElem?_eq_none (by omega)]
      split <;> rfl

theorem get?_isSome_iff {p : RowPlane α} {q : Pointer} :
    (p.get? q).isSome ↔ p.extent.contains q = true := by
  unfold get?
  split <;> simp_all

theorem set?_isSome_iff {p : RowPlane α} {q : Pointer} {a : α} :
    (p.set? q a).isSome ↔ p.extent.contains q = true := by
  unfold set?
  split <;> simp_all

theorem extent_of_set? {p r : RowPlane α} {q : Pointer} {a : α} (h : p.set? q a = some r) :
    r.extent = p.extent := by
  unfold set? at h
  split at h
  · cases h
    simp [extent]
  · cases h

theorem get?_of_set? {p r : RowPlane α} {q : Pointer} {a : α} (h : p.set? q a = some r)
    (s : Pointer) : r.get? s = if s = q then some a else p.get? s := by
  have hext := extent_of_set? h
  unfold set? at h
  split at h
  case isFalse => cases h
  case isTrue hq =>
    have hq' := Extent.contains_iff.mp hq
    unfold get?
    rw [hext]
    by_cases hs : p.extent.contains s = true
    · have hs' := Extent.contains_iff.mp hs
      simp only [extent] at hq' hs'
      cases h
      simp only [hs, if_true, List.getElem?_modify]
      by_cases hy : q.y.toNat = s.y.toNat
      · have hrow : q.y.toNat < p.rows.length := by omega
        rw [← hy, List.getElem?_eq_getElem hrow]
        simp only [if_true, Option.map_eq_map, Option.map_some, Option.getD_some, cellOf_setRow]
        by_cases hx : q.x.toNat = s.x.toNat
        · have : s = q := by
            cases s
            cases q
            simp only [Pointer.mk.injEq]
            simp only at hx hy hq' hs'
            omega
          simp [hx, this]
        · have : s ≠ q := fun e => hx (by rw [e])
          simp [hx, this]
      · have : s ≠ q := fun e => hy (by rw [e])
        simp [hy, this]
    · have : s ≠ q := fun e => hs (e ▸ hq)
      simp [hs, this]

end RowPlane
end MatrixStack
