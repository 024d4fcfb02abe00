/-
The grammar of numerals.

A numeral is a sign or none and one or more digits, and names the integer that its digits add up to,
each counted ten to the number of digits after it (`positional`).  Reading takes exactly the
numerals that are not too long (`read_eq_ok_iff`).  Different numerals may name one integer; the
numeral that is printed is the one without a plus sign, without leading zeros and without a sign of
zero (`text_apply`), so it is never longer than the one that was read.
-/
import Mathlib.Algebra.Group.Nat.Defs
import Mathlib.Data.List.Induction
import MatrixStack.Proofs.Text.Decimal

namespace MatrixStack
namespace Decimal

inductive Sign where
  | none | plus | minus
  deriving DecidableEq

namespace Sign

def chars : Sign → List Char
  | .none => []
  | .plus => ['+']
  | .minus => ['-']

def apply : Sign → Nat → Int
  | .minus, n => -(n : Int)
  | .none, n | .plus, n => n

end Sign

/-- The sum of the digits, each counted ten to the number of digits after it. -/
def positional : List Char → Nat
  | [] => 0
  | c :: rest => (c.toNat - '0'.toNat) * 10 ^ rest.length + positional rest

/-- The text is a numeral with this sign and these digits, and not too long to be read. -/
structure Numeral (text : List Char) (sign : Sign) (digits : List Char) : Prop where
  text_eq : text = sign.chars ++ digits
  ne_nil : digits ≠ []
  digit : ∀ c ∈ digits, '0' ≤ c ∧ c ≤ '9'
  length_le : digits.length ≤ 4300

/-- The digits from the first that is not zero on, or one zero where all are. -/
def significant (digits : List Char) : List Char :=
  match digits.dropWhile (· = '0') with
  | [] => ['0']
  | rest => rest

/-- The numeral without a plus sign, leading zeros and the sign of zero. -/
def tidy : List Char → List Char
  | '+' :: digits => significant digits
  | '-' :: digits => if significant digits = ['0'] then ['0'] else '-' :: significant digits
  | digits => significant digits

/-! ## Digits and their places -/

theorem isDigit_iff {c : Char} : c.isDigit = true ↔ '0' ≤ c ∧ c ≤ '9' := by
  simp [Char.isDigit, Char.le_def]

theorem digitChar_toNat {c : Char} (h : c.isDigit = true) :
    Nat.digitChar (c.toNat - '0'.toNat) = c ∧ c.toNat - '0'.toNat < 10 := by
  have hc := toNat_of_isDigit h
  have hlt : c.toNat - '0'.toNat < 10 := by
    show c.toNat - 48 < 10
    omega
  refine ⟨Char.toNat_inj.mp ?_, hlt⟩
  rw [Nat.toNat_digitChar_of_lt_ten hlt]
  show 48 + (c.toNat - 48) = c.toNat
  omega

theorem positional_concat (ds : List Char) (c : Char) :
    positional (ds ++ [c]) = 10 * positional ds + (c.toNat - '0'.toNat) := by
  induction ds with
  | nil => simp [positional]
  | cons d ds ih =>
    rw [List.cons_append, positional, ih, positional, List.length_append, List.length_singleton,
      Nat.pow_succ, Nat.mul_add, Nat.add_assoc, Nat.mul_comm (10 ^ ds.length), Nat.mul_left_comm]

theorem value_eq_positional (ds : List Char) : value ds = positional ds := by
  induction ds using List.reverseRecOn with
  | nil => rfl
  | append_singleton ds c ih => rw [value_concat, positional_concat, ih]

theorem value_dropWhile_zero (ds : List Char) :
    value (ds.dropWhile (· = '0')) = value ds := by
  induction ds with
  | nil => rfl
  | cons c ds ih =>
    by_cases hc : c = '0'
    · subst hc
      rw [List.dropWhile_cons_of_pos (by decide), ih]
      rfl
    · rw [List.dropWhile_cons_of_neg (by simpa using hc)]

/-- Digits that do not begin with a zero are the digits of their value. -/
theorem toDigits_value {ds : List Char} (hdigits : ∀ c ∈ ds, c.isDigit = true) (hne : ds ≠ [])
    (hhead : ds.head? ≠ some '0') : Nat.toDigits 10 (value ds) = ds := by
  induction ds using List.reverseRecOn with
  | nil => exact absurd rfl hne
  | append_singleton ds c ih =>
    obtain ⟨hchar, hlt⟩ := digitChar_toNat (hdigits c (by simp))
    have hlast : Nat.toDigits 10 (c.toNat - '0'.toNat) = [c] := by
      rw [Nat.toDigits_of_lt_base hlt, hchar]
    rw [value_concat]
    cases ds with
    | nil => simpa [value] using hlast
    | cons d ds =>
      have hfirst : Nat.toDigits 10 (value (d :: ds)) = d :: ds :=
        ih (fun c hc => hdigits c (List.mem_append_left _ hc)) (List.cons_ne_nil _ _) hhead
      have hpos : 0 < value (d :: ds) := by
        refine Nat.pos_of_ne_zero fun hzero => hhead ?_
        rw [hzero] at hfirst
        exact congrArg List.head? hfirst.symm
      rw [← Nat.toDigits_append_toDigits (by decide) hpos hlt, hfirst, hlast]

theorem toDigits_value_eq_significant {ds : List Char} (hdigits : ∀ c ∈ ds, c.isDigit = true) :
    Nat.toDigits 10 (value ds) = significant ds := by
  rw [← value_dropWhile_zero, significant]
  have hhead := List.head?_dropWhile_not (· = '0') ds
  cases hrest : ds.dropWhile (· = '0') with
  | nil => rfl
  | cons c rest =>
    rw [hrest] at hhead
    refine toDigits_value (fun d hd => hdigits d ?_) (List.cons_ne_nil _ _) fun hzero => ?_
    · exact (List.dropWhile_sublist _).mem (hrest ▸ hd)
    · exact of_decide_eq_false hhead (Option.some.inj hzero)

theorem length_significant_le {ds : List Char} (hne : ds ≠ []) :
    (significant ds).length ≤ ds.length := by
  have hpos := List.length_pos_iff.mpr hne
  have hle := (List.dropWhile_sublist (l := ds) (· = '0')).length_le
  rw [significant]
  split
  · exact hpos
  · exact hle

theorem significant_eq_zero_iff {ds : List Char} (hdigits : ∀ c ∈ ds, c.isDigit = true) :
    significant ds = ['0'] ↔ value ds = 0 := by
  rw [← toDigits_value_eq_significant hdigits]
  constructor
  · intro h
    rw [← value_toDigits (value ds), h]
    rfl
  · intro h
    rw [h]
    rfl

/-! ## Reading -/

theorem exists_sign (cs : List Char) : ∃ sign : Sign,
    cs = sign.chars ++ (splitSign cs).2 ∧ (splitSign cs).1 = decide (sign = .minus) := by
  unfold splitSign
  split
  · exact ⟨.minus, rfl, rfl⟩
  · exact ⟨.plus, rfl, rfl⟩
  · exact ⟨.none, rfl, rfl⟩

theorem splitSign_chars (sign : Sign) {digits : List Char}
    (hdigits : ∀ c ∈ digits, c.isDigit = true) :
    splitSign (sign.chars ++ digits) = (decide (sign = .minus), digits) := by
  cases sign with
  | none => exact splitSign_of_digits hdigits
  | plus => rfl
  | minus => rfl

theorem applySign_eq_apply (sign : Sign) (n : Nat) :
    applySign (decide (sign = .minus)) n = sign.apply n := by
  cases sign <;> rfl

theorem Numeral.isDigit {text digits : List Char} {sign : Sign} (h : Numeral text sign digits) :
    ∀ c ∈ digits, c.isDigit = true :=
  fun c hc => isDigit_iff.mpr (h.digit c hc)

/-- Reading takes the numerals that are not too long, and gives what they name. -/
theorem read_eq_ok_iff {text : String} {v : Int} : read text = .ok v ↔
    ∃ sign digits, Numeral text.toList sign digits ∧ v = sign.apply (positional digits) := by
  constructor
  · intro h
    obtain ⟨sign, htext, hnegative⟩ := exists_sign text.toList
    have hread : read text =
        if (splitSign text.toList).2.isEmpty || !(splitSign text.toList).2.all Char.isDigit then
          .error .malformed
        else if digitLimit < (splitSign text.toList).2.length then
          .error (.tooLong (splitSign text.toList).2.length)
        else .ok (applySign (splitSign text.toList).1 (value (splitSign text.toList).2)) := rfl
    rw [hread, hnegative, applySign_eq_apply, value_eq_positional] at h
    split at h
    · cases h
    split at h
    · cases h
    next hwell hshort =>
    simp only [Bool.or_eq_true, Bool.not_eq_true', not_or, Bool.not_eq_false] at hwell
    refine ⟨sign, _, ⟨htext, ?_, ?_, ?_⟩, (Except.ok.inj h).symm⟩
    · exact mt List.isEmpty_iff.mpr hwell.1
    · exact fun c hc => isDigit_iff.mp (List.all_eq_true.mp hwell.2 c hc)
    · exact Nat.le_of_not_lt hshort
  · rintro ⟨sign, digits, h, rfl⟩
    have hempty : digits.isEmpty = false := List.isEmpty_eq_false_iff.mpr h.ne_nil
    have hall : digits.all Char.isDigit = true := List.all_eq_true.mpr h.isDigit
    have hshort : ¬digitLimit < digits.length := Nat.not_lt.mpr h.length_le
    unfold read
    rw [h.text_eq, splitSign_chars sign h.isDigit]
    simp only [hempty, hall, Bool.not_true, Bool.or_false, Bool.false_eq_true, if_false, hshort]
    rw [applySign_eq_apply, value_eq_positional]

/-! ## Printing what was read -/

theorem tidy_of_digits {digits : List Char} (hdigits : ∀ c ∈ digits, c.isDigit = true) :
    tidy digits = significant digits := by
  unfold tidy
  split
  · exact absurd (hdigits '+' (List.mem_cons_self ..)) (by decide)
  · exact absurd (hdigits '-' (List.mem_cons_self ..)) (by decide)
  · rfl

variable {text digits : List Char} {sign : Sign}

theorem Sign.natAbs_apply (sign : Sign) (n : Nat) : (sign.apply n).natAbs = n := by
  cases sign with
  | none => exact Int.natAbs_natCast n
  | plus => exact Int.natAbs_natCast n
  | minus => exact (Int.natAbs_neg n).trans (Int.natAbs_natCast n)

theorem Numeral.toDigits_natAbs (h : Numeral text sign digits) :
    Nat.toDigits 10 (sign.apply (positional digits)).natAbs = significant digits := by
  rw [Sign.natAbs_apply, ← value_eq_positional, toDigits_value_eq_significant h.isDigit]

/-- What a numeral names is printed as the tidy numeral. -/
theorem Numeral.text_apply (h : Numeral text sign digits) :
    (Decimal.text (sign.apply (positional digits))).toList = tidy text := by
  have hnonneg : ¬(positional digits : Int) < 0 := Int.not_lt.mpr (Int.natCast_nonneg _)
  rw [toList_text, h.toDigits_natAbs, h.text_eq]
  cases sign with
  | none =>
    rw [Sign.apply, if_neg hnonneg]
    exact (tidy_of_digits h.isDigit).symm
  | plus =>
    rw [Sign.apply, if_neg hnonneg]
    rfl
  | minus =>
    show _ = if significant digits = ['0'] then ['0'] else '-' :: significant digits
    have hzero := significant_eq_zero_iff h.isDigit
    rw [value_eq_positional] at hzero
    by_cases hsig : significant digits = ['0']
    · rw [if_pos hsig, Sign.apply, hzero.mp hsig, hsig]
      rfl
    · have hpos : 0 < positional digits := Nat.pos_of_ne_zero (mt hzero.mpr hsig)
      have hneg : Sign.minus.apply (positional digits) < 0 := by
        show -(positional digits : Int) < 0
        omega
      rw [if_neg hsig, if_pos hneg]

theorem Numeral.printable_apply (h : Numeral text sign digits) :
    printable (sign.apply (positional digits)) = true := by
  refine decide_eq_true ?_
  rw [← String.length_toList, toList_repr, h.toDigits_natAbs]
  exact Nat.le_trans (length_significant_le h.ne_nil) h.length_le

end Decimal
end MatrixStack
