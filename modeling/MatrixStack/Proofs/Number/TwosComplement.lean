/-
Types of fixed width as two's complement arithmetic.

`TwosComplement` says what that is: the value of an integer is the one in range with the same
residue, an operation may be worked out on plain integers and wrapped once at the end, the bits of a
result come from the bits of the operands, and a quotient goes toward zero and leaves the range for
one pair of operands only.  Nothing in its proof depends on the width; signed and unsigned types
differ in where their range begins (`twosComplement_of_range`).
-/
import Mathlib.Algebra.Order.Ring.Int
import MatrixStack.Proofs.Number.Masks

namespace MatrixStack

/-! ## Bits -/

namespace Bits

/-- Bit `i` of an integer, without its written form: the parity of the integer divided by `2 ^ i`,
rounded down. -/
def parity (a : Int) (i : Nat) : Bool := a / 2 ^ i % 2 = 1

theorem test_eq_parity (a : Int) (i : Nat) : test a i = parity a i := by
  have hpos : (0 : Int) < 2 ^ i := Int.pow_pos (by decide)
  cases a with
  | ofNat m =>
    show m.testBit i = decide ((m : Int) / 2 ^ i % 2 = 1)
    rw [Nat.testBit_eq_decide_div_mod_eq, decide_eq_decide]
    norm_cast
  | negSucc m =>
    have hdiv : Int.negSucc m / 2 ^ i = -((m / 2 ^ i : Nat) : Int) - 1 := by
      rw [Int.negSucc_ediv m hpos, neg_add]
      push_cast
      rfl
    show (!m.testBit i) = decide (Int.negSucc m / 2 ^ i % 2 = 1)
    rw [Nat.testBit_eq_decide_div_mod_eq, hdiv, ← decide_not, decide_eq_decide]
    omega

theorem getLsbD_ofInt (n : Nat) (a : Int) (i : Nat) :
    (BitVec.ofInt n a).getLsbD i = (decide (i < n) && test a i) := by
  rw [← test_emod_two_pow, ← BitVec.testBit_toNat, BitVec.toNat_ofInt]
  obtain ⟨m, hm⟩ := Int.eq_ofNat_of_zero_le (Int.emod_nonneg a (pow_ne_zero n (two_ne_zero' Int)))
  push_cast
  rw [hm]
  rfl

/-- What acts on every bit of an integer acts so on its lowest bits. -/
theorem ofInt_bitwise {n : Nat} {a b c : Int} {u : BitVec n} {g : Bool → Bool → Bool}
    (hc : ∀ i, test c i = g (test a i) (test b i))
    (hu : ∀ i < n, u.getLsbD i = g ((BitVec.ofInt n a).getLsbD i) ((BitVec.ofInt n b).getLsbD i)) :
    BitVec.ofInt n c = u := by
  refine BitVec.eq_of_getLsbD_eq fun i hi => ?_
  rw [hu i hi, getLsbD_ofInt, getLsbD_ofInt, getLsbD_ofInt, decide_eq_true hi, hc]
  rfl

theorem ofInt_and (n : Nat) (a b : Int) :
    BitVec.ofInt n (and a b) = BitVec.ofInt n a &&& BitVec.ofInt n b :=
  ofInt_bitwise (test_and a b) fun _ _ => BitVec.getLsbD_and

theorem ofInt_or (n : Nat) (a b : Int) :
    BitVec.ofInt n (or a b) = BitVec.ofInt n a ||| BitVec.ofInt n b :=
  ofInt_bitwise (test_or a b) fun _ _ => BitVec.getLsbD_or

theorem ofInt_xor (n : Nat) (a b : Int) :
    BitVec.ofInt n (xor a b) = BitVec.ofInt n a ^^^ BitVec.ofInt n b :=
  ofInt_bitwise (test_xor a b) fun _ _ => BitVec.getLsbD_xor

theorem ofInt_not (n : Nat) (a : Int) : BitVec.ofInt n (not a) = ~~~BitVec.ofInt n a := by
  refine ofInt_bitwise (b := a) (g := fun p _ => !p) (test_not a) fun i hi => ?_
  rw [BitVec.getLsbD_not, decide_eq_true hi, Bool.true_and]

end Bits

/-! ## Quotients -/

theorem natAbs_tmod_lt (x : Int) {y : Int} (hy : y ≠ 0) : (x.tmod y).natAbs < y.natAbs := by
  rw [Int.natAbs_tmod]
  exact Nat.mod_lt _ (Int.natAbs_pos.mpr hy)

theorem sign_tmod_eq (x y : Int) : x.tmod y = 0 ∨ (x.tmod y).sign = x.sign := by
  have hsign := Int.sign_tmod x y
  by_cases hdvd : y ∣ x
  · rw [if_pos hdvd] at hsign
    exact .inl (Int.sign_eq_zero_iff_zero.mp hsign)
  · rw [if_neg hdvd] at hsign
    exact .inr hsign

theorem natAbs_tdiv_le_half (x : Int) {y : Int} (hy : 2 ≤ y.natAbs) :
    (x.tdiv y).natAbs ≤ x.natAbs / 2 := by
  rw [Int.natAbs_tdiv]
  exact Nat.div_le_div_left hy (by decide)

/-- A range that reaches as far below zero as above it, but for its least element, is left by one
quotient only: the one that is as far above zero as the least element is below. -/
theorem tdiv_in_range_iff {m x y : Int} (hm : 0 < m) (hlo : -m ≤ x) (hhi : x < m) (hy : y ≠ 0) :
    (-m ≤ x.tdiv y ∧ x.tdiv y < m) ↔ ¬(x = -m ∧ y = -1) := by
  obtain rfl | rfl | htwo : y = 1 ∨ y = -1 ∨ 2 ≤ y.natAbs := by omega
  · rw [Int.tdiv_one]
    omega
  · rw [Int.tdiv_neg, Int.tdiv_one]
    omega
  · have hhalf := natAbs_tdiv_le_half x htwo
    omega

/-! ## Two's complement -/

/-- What an operation is on plain integers, for the operations that respect residues. -/
def BinaryOp.plain? : BinaryOp → Option (Int → Int → Int)
  | .add => some (· + ·)
  | .sub => some (· - ·)
  | .mul => some (· * ·)
  | .or => some Bits.or
  | .and => some Bits.and
  | .xor => some Bits.xor
  | .div => none

theorem BinaryOp.onIntegers_of_plain? {op : BinaryOp} {f : Int → Int → Int}
    (h : op.plain? = some f) : op ≠ .div ∧ ∀ t a b, op.onIntegers t a b = f a b := by
  cases op <;> cases h <;> exact ⟨nofun, fun _ _ _ => rfl⟩

namespace NumberType

def least : Bool → Nat → Int
  | true, bits => -2 ^ (bits - 1)
  | false, _ => 0

def greatest : Bool → Nat → Int
  | true, bits => 2 ^ (bits - 1) - 1
  | false, bits => 2 ^ bits - 1

/-- The one pair of operands whose quotient is out of range. -/
def Overflows (signed : Bool) (bits : Nat) (x y : Int) : Prop :=
  signed = true ∧ x = least signed bits ∧ y = -1

/-- The numbers of the type are two's complement integers of so many bits. -/
structure TwosComplement (t : NumberType) (signed : Bool) (bits : Nat) : Prop where
  range : t.range? = some (least signed bits, greatest signed bits)
  /-- The value is the one integer in range with the same residue. -/
  value_iff : ∀ a v : Int, (Number.of t a).value = v ↔
    least signed bits ≤ v ∧ v ≤ greatest signed bits ∧ v ≡ a [ZMOD 2 ^ bits]
  /-- The right operand is a number of the type or a plain integer. -/
  binary : ∀ (op : BinaryOp) (f : Int → Int → Int), op.plain? = some f → ∀ a b : Int,
    Number.binary op (.of t a) (.of t b) = .ok (.of t (f a b)) ∧
    Number.binary op (.of t a) ⟨.unbounded, b⟩ = .ok (.of t (f a b))
  not : ∀ a : Int, (Number.of t a).not = .of t (Bits.not a)
  neg : ∀ a : Int, (Number.of t a).neg = .of t (-a)
  /-- The bit operations on plain integers are those of infinite two's complement. -/
  parity : ∀ (a b : Int) (i : Nat),
    Bits.parity (Bits.or a b) i = (Bits.parity a i || Bits.parity b i) ∧
    Bits.parity (Bits.and a b) i = (Bits.parity a i && Bits.parity b i) ∧
    Bits.parity (Bits.xor a b) i = Bool.xor (Bits.parity a i) (Bits.parity b i) ∧
    Bits.parity (Bits.not a) i = !Bits.parity a i
  /-- A number has the pattern of every integer of its residue. -/
  pattern : ∀ a : Int, BitVec.ofInt bits (Number.of t a).value = BitVec.ofInt bits a
  pattern_bitwise : ∀ a b : Int,
    BitVec.ofInt bits (Bits.or a b) = BitVec.ofInt bits a ||| BitVec.ofInt bits b ∧
    BitVec.ofInt bits (Bits.and a b) = BitVec.ofInt bits a &&& BitVec.ofInt bits b ∧
    BitVec.ofInt bits (Bits.xor a b) = BitVec.ofInt bits a ^^^ BitVec.ofInt bits b ∧
    BitVec.ofInt bits (Bits.not a) = ~~~BitVec.ofInt bits a
  /-- A quotient goes toward zero, and what remains has the sign of the dividend. -/
  div : ∀ a b x y : Int, (Number.of t a).value = x → (Number.of t b).value = y → y ≠ 0 →
    ¬Overflows signed bits x y →
    Number.binary .div (.of t a) (.of t b) = .ok ⟨t, x.tdiv y⟩ ∧
    ∃ r, x = x.tdiv y * y + r ∧ r.natAbs < y.natAbs ∧ (r = 0 ∨ r.sign = x.sign)
  div_overflow : ∀ a b x y : Int, (Number.of t a).value = x → (Number.of t b).value = y →
    Overflows signed bits x y →
    Number.binary .div (.of t a) (.of t b) = .ok ⟨t, least signed bits⟩
  overflows_iff : ∀ x y : Int, t.Holds x → t.Holds y → y ≠ 0 →
    (¬t.Holds (x.tdiv y) ↔ Overflows signed bits x y)

variable {t : NumberType} {signed : Bool} {bits : Nat}

theorem holds_iff (hrange : t.range? = some (least signed bits, greatest signed bits)) {v : Int} :
    t.Holds v ↔ least signed bits ≤ v ∧ v ≤ greatest signed bits := by
  rw [Holds, hrange]

theorem value_of_iff (hmod : t.modulus = 2 ^ bits) {a v : Int} :
    (Number.of t a).value = v ↔ t.Holds v ∧ v ≡ a [ZMOD 2 ^ bits] := by
  rw [← hmod]
  constructor
  · rintro rfl
    exact ⟨t.holds_wrap a, t.wrap_modEq a⟩
  · rintro ⟨hv, hmodEq⟩
    exact (wrap_eq_wrap_iff.mpr hmodEq.symm).trans (wrap_of_holds hv)

theorem wrap_onIntegers_left {op : BinaryOp} (hop : op ≠ .div) (t u v : NumberType) (a b : Int) :
    t.wrap (op.onIntegers u (t.wrap a) b) = t.wrap (op.onIntegers v a b) :=
  wrap_eq_wrap_iff.mpr (modEq_onIntegers hop u v (t.wrap_modEq a) (Int.ModEq.refl b))

theorem holds_tdiv_iff (hrange : t.range? = some (least signed bits, greatest signed bits))
    {x y : Int} (hx : t.Holds x) (hy : t.Holds y) (hne : y ≠ 0) :
    t.Holds (x.tdiv y) ↔ ¬Overflows signed bits x y := by
  rw [holds_iff hrange] at hx hy ⊢
  cases signed with
  | true =>
    have hpos : (0 : Int) < 2 ^ (bits - 1) := Int.pow_pos (by decide)
    have hiff := tdiv_in_range_iff hpos hx.1 (Int.lt_of_le_sub_one hx.2) hne
    rw [Overflows, and_iff_right rfl]
    exact (and_congr_right' Int.le_sub_one_iff).trans hiff
  | false =>
    -- A quotient of numbers without a sign is between zero and the dividend.
    have hnot : ¬Overflows false bits x y := fun h => Bool.false_ne_true h.1
    have hle : x.tdiv y ≤ x := Int.tdiv_le_self y hx.1
    exact iff_of_true ⟨Int.tdiv_nonneg hx.1 hy.1, hle.trans hx.2⟩ hnot

/-- The least number of a type with a sign is its own opposite. -/
theorem least_modEq_neg (hbits : 0 < bits) :
    least true bits ≡ -least true bits [ZMOD 2 ^ bits] := by
  obtain ⟨n, rfl⟩ := Nat.exists_eq_succ_of_ne_zero (Nat.ne_of_gt hbits)
  refine Int.modEq_iff_dvd.mpr ⟨1, ?_⟩
  simp only [least, Nat.add_sub_cancel, pow_succ, Nat.succ_eq_add_one]
  omega

end NumberType

open NumberType

theorem Number.binary_unbounded_right {op : BinaryOp} {t : NumberType} (ht : t ≠ .unbounded)
    (hop : op ≠ .div) (a b : Int) :
    Number.binary op ⟨t, a⟩ ⟨.unbounded, b⟩ = .ok (.of t (op.onIntegers t a b)) := by
  simp [Number.binary, Number.comparable, ht, hop]

theorem Number.div_of {t : NumberType} (ht : t ≠ .unbounded) {a b : Int} (hb : t.wrap b ≠ 0) :
    Number.binary .div (.of t a) (.of t b) = .ok (.of t ((t.wrap a).tdiv (t.wrap b))) := by
  have hdiv : BinaryOp.div.onIntegers t (t.wrap a) (t.wrap b) = (t.wrap a).tdiv (t.wrap b) :=
    if_neg ht
  rw [← hdiv]
  exact Number.binary_of_same fun _ => hb

theorem NumberType.twosComplement_of_range {t : NumberType} {signed : Bool} {bits : Nat}
    (hbits : 0 < bits) (hrange : t.range? = some (least signed bits, greatest signed bits))
    (hmod : t.modulus = 2 ^ bits) : TwosComplement t signed bits := by
  have ht : t ≠ .unbounded := by
    rintro rfl
    cases hrange
  exact {
    range := hrange
    value_iff := fun a v => by
      rw [value_of_iff hmod, holds_iff hrange, and_assoc]
    binary := fun op f hf a b => by
      obtain ⟨hop, honIntegers⟩ := BinaryOp.onIntegers_of_plain? hf
      rw [← honIntegers t a b]
      constructor
      · rw [Number.of, Number.of, Number.binary_of_same fun h => absurd h hop, Number.of,
          t.wrap_onIntegers hop t t]
        rfl
      · rw [Number.of, Number.binary_unbounded_right ht hop, Number.of,
          wrap_onIntegers_left hop t t t]
        rfl
    not := fun a => congrArg (Number.mk t) (t.wrap_not a)
    neg := fun a => congrArg (Number.mk t) (wrap_eq_wrap_iff.mpr (t.wrap_modEq a).neg)
    parity := fun a b i => by
      simp only [← Bits.test_eq_parity]
      exact ⟨Bits.test_or a b i, Bits.test_and a b i, Bits.test_xor a b i, Bits.test_not a i⟩
    pattern := fun a => by
      have hmodEq := t.wrap_modEq a
      rw [hmod, Bits.modEq_iff] at hmodEq
      refine BitVec.eq_of_getLsbD_eq fun i hi => ?_
      rw [Bits.getLsbD_ofInt, Bits.getLsbD_ofInt]
      exact congrArg _ (hmodEq i hi)
    pattern_bitwise := fun a b =>
      ⟨Bits.ofInt_or bits a b, Bits.ofInt_and bits a b, Bits.ofInt_xor bits a b,
        Bits.ofInt_not bits a⟩
    div := by
      rintro a b _ _ rfl rfl hne hover
      have hquotient := (holds_tdiv_iff hrange (t.holds_wrap a) (t.holds_wrap b) hne).mpr hover
      refine ⟨?_, _, (Int.tdiv_mul_add_tmod _ _).symm, natAbs_tmod_lt _ hne, sign_tmod_eq _ _⟩
      rw [Number.div_of ht hne, Number.of, wrap_of_holds hquotient]
      rfl
    div_overflow := by
      rintro a b x y hx hy ⟨hsigned, rfl, rfl⟩
      have ha : t.wrap a = least signed bits := hx
      have hb : t.wrap b = -1 := hy
      have hquotient : (Number.of t (-least signed bits)).value = least signed bits :=
        (value_of_iff hmod).mpr ⟨ha ▸ t.holds_wrap a, hsigned ▸ least_modEq_neg hbits⟩
      rw [Number.div_of ht (by rw [hb]; decide), ha, hb, Int.tdiv_neg, Int.tdiv_one]
      exact congrArg (fun v => Except.ok (Number.mk t v)) hquotient
    overflows_iff := fun x y hx hy hne => by
      rw [holds_tdiv_iff hrange hx hy hne, not_not] }

/-- Numbers of a fixed width, with or without a sign, are two's complement integers. -/
theorem Number.fixed_width_is_twos_complement (w : Width) :
    TwosComplement (.signed w) true w.bits ∧ TwosComplement (.unsigned w) false w.bits := by
  constructor
  · exact twosComplement_of_range (by cases w <;> decide) (range?_signed w) w.values_eq
  · exact twosComplement_of_range (by cases w <;> decide) (range?_unsigned w) w.values_eq

example : Number.binary .div (.of (.signed .bits8) 128) (.of (.signed .bits8) 255) =
    .ok (.of (.signed .bits8) (-128)) := by decide

end MatrixStack
