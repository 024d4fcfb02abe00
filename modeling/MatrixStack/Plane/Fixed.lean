/-
A plane of fixed size over one array of cells, row after row.

The array is a value, which no other plane shares, and there is room for it however large the size.
-/
import MatrixStack.Plane.Extent

namespace MatrixStack

structure FixedPlane (α : Type) where
  width : Nat
  height : Nat
  cells : Array α
  size_cells : cells.size = width * height
  deriving DecidableEq

namespace FixedPlane

variable {α : Type}

def extent (p : FixedPlane α) : Extent := ⟨p.width, p.height⟩

/-- The place of a pointer in the array of cells. -/
def slot (width : Nat) (p : Pointer) : Nat := p.y.toNat * width + p.x.toNat

theorem slot_lt {w h : Nat} {p : Pointer} (hp : (Extent.mk w h).contains p = true) :
    slot w p < w * h := by
  have hp' := Extent.contains_iff.mp hp
  simp only at hp'
  have hx : p.x.toNat < w := by omega
  have hy : p.y.toNat + 1 ≤ h := by omega
  calc p.y.toNat * w + p.x.toNat < p.y.toNat * w + w := by omega
    _ = (p.y.toNat + 1) * w := (Nat.succ_mul _ _).symm
    _ ≤ h * w := Nat.mul_le_mul_right w hy
    _ = w * h := Nat.mul_comm h w

theorem slot_injective {w h : Nat} {p q : Pointer} (hp : (Extent.mk w h).contains p = true)
    (hq : (Extent.mk w h).contains q = true) (e : slot w p = slot w q) : p = q := by
  have hp' := Extent.contains_iff.mp hp
  have hq' := Extent.contains_iff.mp hq
  simp only at hp' hq'
  have hx : p.x.toNat = q.x.toNat := by
    have := congrArg (· % w) e
    simpa [slot, Nat.mul_add_mod_of_lt, Nat.mul_comm _ w, Nat.mod_eq_of_lt,
      show p.x.toNat < w by omega, show q.x.toNat < w by omega] using this
  have hy : p.y.toNat = q.y.toNat := by
    have e' : p.y.toNat * w = q.y.toNat * w := by
      simp only [slot] at e
      omega
    exact Nat.eq_of_mul_eq_mul_right (by omega) e'
  cases p
  cases q
  simp only [Pointer.mk.injEq]
  simp only at hx hy hp' hq'
  omega

/-- A plane whose cells are made from their numbers in row order. -/
def generate (width height : Nat) (cell : Nat → α) : FixedPlane α where
  width := width
  height := height
  cells := Array.ofFn fun i : Fin (width * height) => cell i
  size_cells := Array.size_ofFn

def get? (p : FixedPlane α) (q : Pointer) : Option α :=
  if p.extent.contains q then p.cells[slot p.width q]? else none

def set? (p : FixedPlane α) (q : Pointer) (a : α) : Option (FixedPlane α) :=
  if p.extent.contains q then
    some { p with
      cells := p.cells.setIfInBounds (slot p.width q) a
      size_cells := by rw [Array.size_setIfInBounds, p.size_cells] }
  else none

theorem get?_isSome_iff {p : FixedPlane α} {q : Pointer} :
    (p.get? q).isSome ↔ p.extent.contains q = true := by
  unfold get?
  split
  case isTrue h =>
    have := slot_lt (w := p.width) (h := p.height) h
    simp [p.size_cells, this, h]
  case isFalse h => simp [h]

theorem set?_isSome_iff {p : FixedPlane α} {q : Pointer} {a : α} :
    (p.set? q a).isSome ↔ p.extent.contains q = true := by
  unfold set?
  split <;> simp_all

theorem extent_of_set? {p r : FixedPlane α} {q : Pointer} {a : α} (h : p.set? q a = some r) :
    r.extent = p.extent := by
  unfold set? at h
  split at h
  · cases h
    rfl
  · cases h

theorem get?_of_set? {p r : FixedPlane α} {q : Pointer} {a : α} (h : p.set? q a = some r)
    (s : Pointer) : r.get? s = if s = q then some a else p.get? s := by
  have hext := extent_of_set? h
  unfold set? at h
  split at h
  case isFalse => cases h
  case isTrue hq =>
    unfold get?
    rw [hext]
    by_cases hs : p.extent.contains s = true
    · cases h
      simp only [hs, if_true, Array.getElem?_setIfInBounds]
      by_cases he : s = q
      · subst he
        have := slot_lt (w := p.width) (h := p.height) hs
        simp [p.size_cells, this]
      · have : slot p.width q ≠ slot p.width s := fun e => he (slot_injective hs hq e.symm)
        simp [this, he]
    · have : s ≠ q := fun e => hs (e ▸ hq)
      simp [hs, this]

end FixedPlane
end MatrixStack
