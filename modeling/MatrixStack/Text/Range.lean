/-
Character classes given by a table of code point ranges.
-/
namespace MatrixStack
namespace Text

/-- The character lies in one of the ranges, both ends included. -/
def inRanges (ranges : List (Nat × Nat)) (c : Char) : Bool :=
  ranges.any fun r => r.1 ≤ c.toNat && c.toNat ≤ r.2

theorem inRanges_iff {ranges : List (Nat × Nat)} {c : Char} :
    inRanges ranges c = true ↔ ∃ r ∈ ranges, r.1 ≤ c.toNat ∧ c.toNat ≤ r.2 := by
  simp [inRanges]

theorem inRanges_eq_false {ranges : List (Nat × Nat)} {c : Char}
    (h : ∀ r ∈ ranges, c.toNat < r.1 ∨ r.2 < c.toNat) : inRanges ranges c = false := by
  rw [Bool.eq_false_iff]
  intro hin
  obtain ⟨r, hr, lo, hi⟩ := inRanges_iff.mp hin
  rcases h r hr with h | h <;> omega

end Text
end MatrixStack
