/-
Numerals that are read back.

The numeral of a value is a minus sign, if the value is negative, and the digits of its magnitude.
Reading takes the sign off again and adds the digits up, so that a numeral within the limit is read
as the value that it was written for (`Decimal.read_text`).  Every value of a type of fixed width
has such a numeral (`NumberType.printable_of_holds`).
-/
import Mathlib.Algebra.Group.Int.Defs
import Mathlib.Algebra.Group.Nat.Defs
import MatrixStack.Number.Literal
import MatrixStack.Text.Blank

namespace MatrixStack
namespace Decimal

/-! ## Numerals as characters -/

theorem toList_repr (n : Nat) : n.repr.toList = Nat.toDigits 10 n := by
  rw [Nat.repr_eq_ofList_toDigits, String.toList_ofList]

theorem toList_text (v : Int) :
    (text v).toList =
      if v < 0 then '-' :: Nat.toDigits 10 v.natAbs else Nat.toDigits 10 v.natAbs := by
  cases v with
  | ofNat n => exact toList_repr n
  | negSucc n =>
    show ("-" ++ (n + 1).repr).toList = _
    rw [String.toList_append, toList_repr, if_pos (Int.negSucc_lt_zero n)]
    rfl

theorem isDigit_of_mem_toDigits {n : Nat} {c : Char} (h : c ∈ Nat.toDigits 10 n) :
    c.isDigit = true :=
  Nat.isDigit_of_mem_toDigits (by decide) (by decide) h

theorem mem_text {v : Int} {c : Char} (h : c ∈ (text v).toList) : c = '-' ∨ c.isDigit = true := by
  rw [toList_text] at h
  split at h
  · rcases List.mem_cons.mp h with hsign | hdigit
    · exact .inl hsign
    · exact .inr (isDigit_of_mem_toDigits hdigit)
  · exact .inr (isDigit_of_mem_toDigits h)

theorem toList_text_ne_nil (v : Int) : (text v).toList ≠ [] := by
  rw [toList_text]
  split
  · exact List.cons_ne_nil _ _
  · exact Nat.toDigits_ne_nil

theorem toNat_of_isDigit {c : Char} (h : c.isDigit = true) : 48 ≤ c.toNat ∧ c.toNat ≤ 57 := by
  simpa [Char.isDigit, UInt32.le_iff_toNat_le] using h

theorem isBlank_of_isDigit {c : Char} (h : c.isDigit = true) : Text.isBlank c = false := by
  have hc := toNat_of_isDigit h
  refine Text.inRanges_eq_false fun r hr => ?_
  have htable : ∀ r ∈ Text.blankRanges, r.2 < 48 ∨ 57 < r.1 := by decide
  have := htable r hr
  omega

theorem isBlank_of_mem_text {v : Int} {c : Char} (h : c ∈ (text v).toList) :
    Text.isBlank c = false := by
  rcases mem_text h with rfl | hdigit
  · rfl
  · exact isBlank_of_isDigit hdigit

/-! ## Reading numerals -/

theorem splitSign_of_digits {digits : List Char} (h : ∀ c ∈ digits, c.isDigit = true) :
    splitSign digits = (false, digits) := by
  unfold splitSign
  split
  · exact absurd (h '-' (List.mem_cons_self ..)) (by decide)
  · exact absurd (h '+' (List.mem_cons_self ..)) (by decide)
  · rfl

theorem splitSign_text (v : Int) :
    splitSign (text v).toList = (decide (v < 0), Nat.toDigits 10 v.natAbs) := by
  rw [toList_text]
  by_cases hneg : v < 0
  · rw [if_pos hneg, decide_eq_true hneg]
    rfl
  · rw [if_neg hneg, decide_eq_false hneg]
    exact splitSign_of_digits fun c hc => isDigit_of_mem_toDigits hc

theorem value_toDigits (n : Nat) : value (Nat.toDigits 10 n) = n := Nat.ofDigitChars_ten_toDigits

theorem applySign_natAbs (v : Int) : applySign (decide (v < 0)) v.natAbs = v := by
  unfold applySign
  split
  case isTrue h =>
    have := of_decide_eq_true h
    omega
  case isFalse h =>
    have : ¬v < 0 := fun hneg => h (decide_eq_true hneg)
    omega

/-- A numeral that is not too long is read as its value. -/
theorem read_text {v : Int} (h : printable v = true) : read (text v) = .ok v := by
  have hne : (Nat.toDigits 10 v.natAbs).isEmpty = false :=
    List.isEmpty_eq_false_iff.mpr Nat.toDigits_ne_nil
  have hdigits : (Nat.toDigits 10 v.natAbs).all Char.isDigit = true :=
    List.all_eq_true.mpr fun c hc => isDigit_of_mem_toDigits hc
  have hlen : ¬digitLimit < (Nat.toDigits 10 v.natAbs).length := by
    have hprint := of_decide_eq_true h
    rw [← String.length_toList, toList_repr] at hprint
    omega
  unfold read
  rw [splitSign_text]
  simp only [hne, hdigits, Bool.not_true, Bool.or_false, Bool.false_eq_true, if_false, hlen]
  rw [value_toDigits, applySign_natAbs]

/-- The numeral of a value is read only if it is not too long, and then as that value. -/
theorem read_text_eq_ok_iff {v w : Int} : read (text v) = .ok w ↔ printable v = true ∧ v = w := by
  by_cases h : printable v = true
  · rw [read_text h, Except.ok.injEq]
    exact (and_iff_right h).symm
  · refine iff_of_false (fun hread => ?_) fun hv => h hv.1
    have hlen : digitLimit < (Nat.toDigits 10 v.natAbs).length := by
      rw [← toList_repr, String.length_toList]
      simpa [printable] using h
    unfold read at hread
    rw [splitSign_text] at hread
    simp only [hlen, if_true] at hread
    split at hread <;> cases hread

/-- A one with as many zeros as there may be digits, or more, is too long. -/
theorem printable_ten_pow {n : Nat} (h : digitLimit ≤ n) : printable (10 ^ n) = false := by
  have hlong : ¬(10 ^ n : Int).natAbs < 10 ^ digitLimit := by
    rw [Int.natAbs_pow, Nat.not_lt]
    exact Nat.pow_le_pow_right (by decide) h
  rw [printable, decide_eq_false_iff_not, Nat.length_repr_le_iff (by decide)]
  exact hlong

theorem printable_of_natAbs_le {v : Int} (h : v.natAbs ≤ 0x10000000000000000) :
    printable v = true := by
  have hlen : v.natAbs.repr.length ≤ 20 :=
    (Nat.length_repr_le_iff (by decide)).mpr (Nat.lt_of_le_of_lt h (by decide))
  exact decide_eq_true (Nat.le_trans hlen (by decide))

end Decimal

/-! ## Literals -/

theorem NumberType.printable_of_holds {t : NumberType} {v : Int} (ht : t ≠ .unbounded)
    (h : t.Holds v) : Decimal.printable v = true := by
  apply Decimal.printable_of_natAbs_le
  cases t with
  | unbounded => exact absurd rfl ht
  | signed w => cases w <;> simp only [Holds, range?, Width.values] at h <;> omega
  | unsigned w => cases w <;> simp only [Holds, range?, Width.values] at h <;> omega

namespace Literal

/-- The value belongs to the type, and its numeral is not too long to be read; only the unbounded
integers have values whose numerals are. -/
def Writable (t : NumberType) (v : Int) : Prop :=
  t.Holds v ∧ (t = .unbounded → Decimal.printable v = true)

variable {t : NumberType} {v : Int}

instance : Decidable (Writable t v) := inferInstanceAs (Decidable (_ ∧ _))

theorem Writable.printable (h : Writable t v) : Decimal.printable v = true := by
  by_cases ht : t = .unbounded
  · exact h.2 ht
  · exact NumberType.printable_of_holds ht h.1

theorem read_text (h : Writable t v) : read t (Decimal.text v) = .ok ⟨t, v⟩ :=
  read_eq_ok_iff.mpr ⟨Decimal.read_text h.printable, rfl, h.1⟩

end Literal
end MatrixStack
