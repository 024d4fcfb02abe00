/-
Beside a grid that lies within a larger one.

A cursor that leaves a grid stands beside it, on the side that its direction points to.  Seen from a
larger grid with the same origin it is in the margin if it has left to the right or downwards, and
outside if it has left to the left or upwards, because the cursor wraps.  Walking straight on from
there it crosses the margin and never comes back into the smaller grid.
-/
import MatrixStack.Proofs.Machine.Cursor

namespace MatrixStack

/-- The first extent lies within the second, and both are smaller than the modulus. -/
structure Extent.Within (e e' : Extent) : Prop where
  width_le : e.width ≤ e'.width
  height_le : e.height ≤ e'.height
  width_lt : e'.width < Pointer.modulus
  height_lt : e'.height < Pointer.modulus

/-- The number of cells that the larger extent adds along a direction. -/
def Extent.margin (e e' : Extent) : Direction → Nat
  | .right => (e'.width - e.width).toNat
  | .down => (e'.height - e.height).toNat
  | .left | .up => 0

namespace Pointer

/-- The pointer some cells further along a direction. -/
def along (p : Pointer) (d : Direction) (k : Nat) : Pointer :=
  let delta : Int := if d.decreasing then -k else k
  if d.vertical then ⟨p.x, p.y + delta⟩ else ⟨p.x + delta, p.y⟩

theorem along_zero (p : Pointer) (d : Direction) : p.along d 0 = p := by
  cases d <;> simp [along, Direction.vertical, Direction.decreasing]

/-- The pointer has just left the extent along the direction. -/
def Beside (e : Extent) (d : Direction) (p : Pointer) : Prop :=
  e.contains p = false ∧ ∃ q, e.contains q = true ∧ p = q.advance d

variable {e e' : Extent} {d : Direction} {p : Pointer} {k : Nat}

theorem contains_along (h : e.Within e') (hp : Beside e d p) (hk : k ≤ e.margin e' d) :
    e'.contains (p.along d k) = decide (k < e.margin e' d) := by
  obtain ⟨hout, q, hq, rfl⟩ := hp
  obtain ⟨hw, hh, hw', hh'⟩ := h
  have hq' := Extent.contains_iff.mp hq
  have hout' := mt Extent.contains_iff.mpr (Bool.eq_false_iff.mp hout)
  rw [modulus_eq] at hw' hh'
  rw [Bool.eq_iff_iff, Extent.contains_iff, decide_eq_true_iff]
  cases d with
  | right | left | down | up =>
    simp only [along, advance, Extent.margin, Direction.vertical, Direction.decreasing, modulus_eq,
      if_true, Bool.false_eq_true, if_false] at hk hout' ⊢
    omega

theorem not_contains_along (h : e.Within e') (hp : Beside e d p) (hk : k ≤ e.margin e' d) :
    e.contains (p.along d k) = false := by
  obtain ⟨hout, q, hq, rfl⟩ := hp
  obtain ⟨hw, hh, hw', hh'⟩ := h
  have hq' := Extent.contains_iff.mp hq
  have hout' := mt Extent.contains_iff.mpr (Bool.eq_false_iff.mp hout)
  rw [modulus_eq] at hw' hh'
  rw [Bool.eq_false_iff, Ne, Extent.contains_iff]
  cases d with
  | right | left | down | up =>
    simp only [along, advance, Extent.margin, Direction.vertical, Direction.decreasing, modulus_eq,
      if_true, Bool.false_eq_true, if_false] at hk hout' ⊢
    omega

theorem advance_along (h : e.Within e') (hp : Beside e d p) (hk : k < e.margin e' d) :
    (p.along d k).advance d = p.along d (k + 1) := by
  have hin : e'.contains (p.along d k) = true := by
    rw [contains_along h hp (Nat.le_of_lt hk), decide_eq_true hk]
  have hin' := Extent.contains_iff.mp hin
  obtain ⟨hw, hh, hw', hh'⟩ := h
  rw [modulus_eq] at hw' hh'
  cases d with
  | right | left | down | up =>
    simp only [along, advance, Extent.margin, Direction.vertical, Direction.decreasing, modulus_eq,
      if_true, Bool.false_eq_true, if_false, mk.injEq, true_and, and_true] at hk hin' ⊢
    omega

end Pointer
end MatrixStack
