/-
Wrapping an integer into a number type.

A type keeps of an integer its residue modulo the number of values of the type, and nothing else
(`wrap_eq_wrap_iff`); the unbounded type is the one of modulus zero.  Every operation but division
respects these residues, the bitwise ones because the lowest bits of a result are decided by the
lowest bits of the operands (`Bits.modEq_iff`).  So the value that a type gives to a result can be
worked out on wrapped operands, or on operands that are never wrapped (`wrap_onIntegers`).  Division
does not respect residues; there the operands have to be in range, and both ways of rounding have to
give the same quotient (`BinaryOp.onIntegers_div`).
-/
import Mathlib.Data.Int.ModEq
import MatrixStack.Number.Basic

namespace MatrixStack

/-! ## Lowest bits -/

namespace Bits

/-- The residue modulo a power of two has the lowest bits of the integer and no others. -/
theorem test_emod_two_pow (a : Int) (n i : Nat) :
    test (a % 2 ^ n) i = (decide (i < n) && test a i) := by
  have hpos : 0 < 2 ^ n := Nat.two_pow_pos n
  cases a with
  | ofNat m =>
    have hmod : (Int.ofNat m) % 2 ^ n = Int.ofNat (m % 2 ^ n) := by simp
    rw [hmod]
    exact Nat.testBit_mod_two_pow m n i
  | negSucc m =>
    have hlt : m % 2 ^ n < 2 ^ n := Nat.mod_lt m hpos
    have hmod : (Int.negSucc m) % 2 ^ n = Int.ofNat (2 ^ n - (m % 2 ^ n + 1)) := by
      rw [Int.negSucc_emod m (by exact_mod_cast hpos), Int.ofNat_eq_natCast, Nat.cast_sub hlt]
      push_cast
      omega
    rw [hmod]
    show (2 ^ n - (m % 2 ^ n + 1)).testBit i = (decide (i < n) && !m.testBit i)
    rw [Nat.testBit_two_pow_sub_succ hlt, Nat.testBit_mod_two_pow]
    cases decide (i < n) <;> rfl

theorem eq_of_test {a b : Int} (ha : 0 ≤ a) (hb : 0 ≤ b) (h : ∀ i, test a i = test b i) :
    a = b := by
  obtain ⟨m, rfl⟩ := Int.eq_ofNat_of_zero_le ha
  obtain ⟨k, rfl⟩ := Int.eq_ofNat_of_zero_le hb
  exact congrArg Int.ofNat (Nat.eq_of_testBit_eq h)

theorem modEq_iff {a b : Int} {n : Nat} :
    a ≡ b [ZMOD 2 ^ n] ↔ ∀ i < n, test a i = test b i := by
  constructor
  · intro h i hi
    have hbit : test (a % 2 ^ n) i = test (b % 2 ^ n) i := by rw [h.eq]
    rwa [test_emod_two_pow, test_emod_two_pow, decide_eq_true hi, Bool.true_and,
      Bool.true_and] at hbit
  · intro h
    have hne : (2 : Int) ^ n ≠ 0 := pow_ne_zero n two_ne_zero
    refine eq_of_test (Int.emod_nonneg a hne) (Int.emod_nonneg b hne) fun i => ?_
    rw [test_emod_two_pow, test_emod_two_pow]
    by_cases hi : i < n
    · rw [h i hi]
    · rw [decide_eq_false hi, Bool.false_and, Bool.false_and]

/-- An operation that acts on every bit by itself respects residues modulo a power of two. -/
theorem modEq_bitwise {f : Int → Int → Int} {g : Bool → Bool → Bool}
    (hf : ∀ a b i, test (f a b) i = g (test a i) (test b i)) {a a' b b' : Int} {n : Nat}
    (ha : a ≡ a' [ZMOD 2 ^ n]) (hb : b ≡ b' [ZMOD 2 ^ n]) : f a b ≡ f a' b' [ZMOD 2 ^ n] := by
  rw [modEq_iff] at ha hb ⊢
  intro i hi
  rw [hf, hf, ha i hi, hb i hi]

end Bits

/-! ## Residues -/

theorem Width.values_eq (w : Width) : (w.values : Int) = 2 ^ w.bits := by
  cases w <;> rfl

namespace NumberType

/-- The number of values of a type, and zero for the unbounded one. -/
def modulus : NumberType → Int
  | .unbounded => 0
  | .signed w => w.values
  | .unsigned w => w.values

theorem modulus_eq_zero_or_two_pow (t : NumberType) : t.modulus = 0 ∨ ∃ n, t.modulus = 2 ^ n := by
  cases t with
  | unbounded => exact .inl rfl
  | signed w => exact .inr ⟨w.bits, w.values_eq⟩
  | unsigned w => exact .inr ⟨w.bits, w.values_eq⟩

theorem wrap_modEq (t : NumberType) (a : Int) : t.wrap a ≡ a [ZMOD t.modulus] := by
  cases t with
  | unbounded => exact Int.ModEq.refl a
  | signed w => exact Int.bmod_emod
  | unsigned w => exact Int.mod_modEq a w.values

/-- A type tells two integers apart exactly where their residues differ. -/
theorem wrap_eq_wrap_iff {t : NumberType} {a b : Int} :
    t.wrap a = t.wrap b ↔ a ≡ b [ZMOD t.modulus] := by
  constructor
  · intro h
    exact (t.wrap_modEq a).symm.trans (h ▸ t.wrap_modEq b)
  · intro h
    cases t with
    | unbounded => exact Int.modEq_zero_iff.mp h
    | signed w =>
      show a.bmod w.values = b.bmod w.values
      rw [← Int.emod_bmod a, ← Int.emod_bmod b]
      exact congrArg (Int.bmod · w.values) h.eq
    | unsigned w => exact h.eq

/-! ## Operations on wrapped operands -/

variable {t : NumberType} {a a' b b' : Int}

theorem modEq_bitwise {f : Int → Int → Int} {g : Bool → Bool → Bool}
    (hf : ∀ a b i, Bits.test (f a b) i = g (Bits.test a i) (Bits.test b i))
    (ha : a ≡ a' [ZMOD t.modulus]) (hb : b ≡ b' [ZMOD t.modulus]) :
    f a b ≡ f a' b' [ZMOD t.modulus] := by
  rcases t.modulus_eq_zero_or_two_pow with hzero | ⟨n, hpow⟩
  · rw [hzero, Int.modEq_zero_iff] at ha hb
    rw [ha, hb]
  · rw [hpow] at ha hb ⊢
    exact Bits.modEq_bitwise hf ha hb

theorem modEq_onIntegers {op : BinaryOp} (hop : op ≠ .div) (u v : NumberType)
    (ha : a ≡ a' [ZMOD t.modulus]) (hb : b ≡ b' [ZMOD t.modulus]) :
    op.onIntegers u a b ≡ op.onIntegers v a' b' [ZMOD t.modulus] := by
  cases op with
  | add => exact ha.add hb
  | sub => exact ha.sub hb
  | mul => exact ha.mul hb
  | div => exact absurd rfl hop
  | or => exact modEq_bitwise Bits.test_or ha hb
  | and => exact modEq_bitwise Bits.test_and ha hb
  | xor => exact modEq_bitwise Bits.test_xor ha hb

/-- What a type makes of a result, whether or not the operands have been wrapped before. -/
theorem wrap_onIntegers {op : BinaryOp} (hop : op ≠ .div) (t u v : NumberType) (a b : Int) :
    t.wrap (op.onIntegers u (t.wrap a) (t.wrap b)) = t.wrap (op.onIntegers v a b) :=
  wrap_eq_wrap_iff.mpr (modEq_onIntegers hop u v (t.wrap_modEq a) (t.wrap_modEq b))

theorem wrap_not (t : NumberType) (a : Int) :
    t.wrap (Bits.not (t.wrap a)) = t.wrap (Bits.not a) := by
  rw [wrap_eq_wrap_iff, Bits.not_eq_neg_sub_one, Bits.not_eq_neg_sub_one]
  exact (t.wrap_modEq a).neg.sub_right 1

end NumberType

/-! ## Quotients that both ways of rounding agree on -/

/-- The quotient is exact, or the operands have the same sign. -/
def ExactOrPositive (a b : Int) : Prop := b ∣ a ∨ a.sign = b.sign

instance (a b : Int) : Decidable (ExactOrPositive a b) := inferInstanceAs (Decidable (_ ∨ _))

theorem fdiv_eq_tdiv_of_exactOrPositive {a b : Int} (h : ExactOrPositive a b) :
    a.fdiv b = a.tdiv b := by
  rw [Int.fdiv_eq_tdiv]
  by_cases hdvd : b ∣ a
  · rw [if_pos hdvd, sub_zero]
  have hsign : a.sign = b.sign := h.resolve_left hdvd
  have hb : b ≠ 0 := by
    rintro rfl
    rw [Int.sign_zero, Int.sign_eq_zero_iff_zero] at hsign
    exact hdvd (hsign ▸ dvd_refl a)
  rw [if_neg hdvd]
  rcases Int.lt_or_gt_of_ne hb with hneg | hpos
  · have ha : a < 0 := by rwa [← Int.sign_eq_neg_one_iff_neg, hsign, Int.sign_eq_neg_one_iff_neg]
    rw [if_neg (by omega), if_neg (by omega), Int.sign_eq_neg_one_of_neg hneg]
    omega
  · have ha : 0 < a := by rwa [← Int.sign_eq_one_iff_pos, hsign, Int.sign_eq_one_iff_pos]
    rw [if_pos (by omega), if_pos (by omega), sub_zero]

theorem BinaryOp.onIntegers_div {a b : Int} (h : ExactOrPositive a b) (u : NumberType) :
    BinaryOp.div.onIntegers u a b = a.fdiv b := by
  show (if u = .unbounded then a.fdiv b else a.tdiv b) = a.fdiv b
  rw [← fdiv_eq_tdiv_of_exactOrPositive h, ite_self]

end MatrixStack
