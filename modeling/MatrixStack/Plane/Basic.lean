/-
Planes: stores of cells addressed by pointers.

A plane either grows over a list of rows or has one fixed block of cells.  Both answer a read
outside their extent with nothing and refuse a write there.  `Plane.get?_of_set?` is the law that
they share: a write changes the cell it names and no other.
-/
import MatrixStack.Plane.Fixed
import MatrixStack.Plane.Rows

namespace MatrixStack

inductive Plane (α : Type) where
  | rows (p : RowPlane α)
  | fixed (p : FixedPlane α)
  deriving DecidableEq

/-- The size of a fixed plane is refused where it is negative. -/
structure NegativeExtent where
  extent : Extent
  deriving DecidableEq

def NegativeExtent.message (e : NegativeExtent) : String :=
  Decimal.messageWith (e.extent.print?.map ("plane size must be non-negative, got " ++ ·))

/-- A fixed plane of the given size, unless that is negative. -/
def FixedPlane.create {α : Type} (e : Extent) (cell : Nat → α) :
    Except NegativeExtent (FixedPlane α) :=
  if e.width < 0 ∨ e.height < 0 then .error ⟨e⟩
  else .ok (.generate e.width.toNat e.height.toNat cell)

namespace Plane

variable {α : Type}

def extent : Plane α → Extent
  | .rows p => p.extent
  | .fixed p => p.extent

def get? : Plane α → Pointer → Option α
  | .rows p, q => p.get? q
  | .fixed p, q => p.get? q

def set? : Plane α → Pointer → α → Option (Plane α)
  | .rows p, q, a => (p.set? q a).map .rows
  | .fixed p, q, a => (p.set? q a).map .fixed

/-- Every pointer inside with its cell, row by row. -/
def cells (p : Plane α) : List (Pointer × α) :=
  p.extent.pointers.filterMap fun q => (p.get? q).map (q, ·)

theorem get?_isSome_iff {p : Plane α} {q : Pointer} :
    (p.get? q).isSome ↔ p.extent.contains q = true := by
  cases p with
  | rows p => exact RowPlane.get?_isSome_iff
  | fixed p => exact FixedPlane.get?_isSome_iff

theorem get?_eq_none_iff {p : Plane α} {q : Pointer} :
    p.get? q = none ↔ p.extent.contains q = false := by
  rw [← Option.not_isSome_iff_eq_none, get?_isSome_iff, Bool.not_eq_true]

theorem set?_isSome_iff {p : Plane α} {q : Pointer} {a : α} :
    (p.set? q a).isSome ↔ p.extent.contains q = true := by
  cases p with
  | rows p => simpa [set?, extent] using RowPlane.set?_isSome_iff
  | fixed p => simpa [set?, extent] using FixedPlane.set?_isSome_iff

theorem extent_of_set? {p r : Plane α} {q : Pointer} {a : α} (h : p.set? q a = some r) :
    r.extent = p.extent := by
  cases p with
  | rows p =>
    obtain ⟨r', hr, rfl⟩ := Option.map_eq_some_iff.mp h
    exact RowPlane.extent_of_set? hr
  | fixed p =>
    obtain ⟨r', hr, rfl⟩ := Option.map_eq_some_iff.mp h
    exact FixedPlane.extent_of_set? hr

theorem get?_of_set? {p r : Plane α} {q : Pointer} {a : α} (h : p.set? q a = some r)
    (s : Pointer) : r.get? s = if s = q then some a else p.get? s := by
  cases p with
  | rows p =>
    obtain ⟨r', hr, rfl⟩ := Option.map_eq_some_iff.mp h
    exact RowPlane.get?_of_set? hr s
  | fixed p =>
    obtain ⟨r', hr, rfl⟩ := Option.map_eq_some_iff.mp h
    exact FixedPlane.get?_of_set? hr s

/-- The plane after a write, which changes nothing outside the extent. -/
def set (p : Plane α) (q : Pointer) (a : α) : Plane α := (p.set? q a).getD p

@[simp] theorem extent_set (p : Plane α) (q : Pointer) (a : α) :
    (p.set q a).extent = p.extent := by
  unfold set
  cases h : p.set? q a with
  | none => rfl
  | some r => exact extent_of_set? h

theorem get?_set (p : Plane α) (q : Pointer) (a : α) (s : Pointer) :
    (p.set q a).get? s =
      if s = q ∧ p.extent.contains q = true then some a else p.get? s := by
  unfold set
  cases h : p.set? q a with
  | none =>
    have hq : ¬p.extent.contains q = true := fun hq => by
      have := set?_isSome_iff (a := a).mpr hq
      simp [h] at this
    simp [hq]
  | some r =>
    have hq : p.extent.contains q = true := set?_isSome_iff.mp (by rw [h]; rfl)
    simp [get?_of_set? h, hq]

end Plane
end MatrixStack
