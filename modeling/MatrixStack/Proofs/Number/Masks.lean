/-
Arithmetic of a fixed width in bits.

The definitions speak of residues, of ranges and of quotients that go toward zero.  The same in bits:
a residue modulo a power of two is what a mask leaves (`Bits.and_mask`), a value with a sign is that
residue, less the whole power if its highest bit is set (`wrap_signed_eq_mask`), and a quotient is
that of the magnitudes, with its sign by whether the operands differ in theirs
(`BinaryOp.onIntegers_div_of_fixed`).  The cursor is masked like a number (`Pointer.advance_eq_mask`).
-/
import MatrixStack.Direction
import MatrixStack.Proofs.Number.Wrapping

namespace MatrixStack

/-! ## Masks -/

namespace Bits

theorem test_mask (n i : Nat) : test (2 ^ n - 1) i = decide (i < n) := by
  have hmask : (2 ^ n - 1 : Int) = Int.ofNat (2 ^ n - 1) := by
    rw [Int.ofNat_eq_natCast, Nat.cast_sub (Nat.two_pow_pos n)]
    push_cast
    rfl
  rw [hmask]
  exact Nat.testBit_two_pow_sub_one n i

theorem and_nonneg (a : Int) {b : Int} (hb : 0 ≤ b) : 0 ≤ and a b := by
  obtain ⟨k, rfl⟩ := Int.eq_ofNat_of_zero_le hb
  cases a <;> exact Int.natCast_nonneg _

/-- A mask leaves the residue modulo its power of two. -/
theorem and_mask (a : Int) (n : Nat) : and a (2 ^ n - 1) = a % 2 ^ n := by
  have hpos : (0 : Int) < 2 ^ n := Int.pow_pos (by decide)
  have hmask : (0 : Int) ≤ 2 ^ n - 1 := Int.le_sub_one_of_lt hpos
  refine eq_of_test (and_nonneg a hmask) (Int.emod_nonneg a hpos.ne') fun i => ?_
  rw [test_and, test_emod_two_pow, test_mask, Bool.and_comm]

end Bits

/-! ## Number types -/

namespace NumberType

theorem range?_signed (w : Width) :
    range? (.signed w) = some (-2 ^ (w.bits - 1), 2 ^ (w.bits - 1) - 1) := by
  cases w <;> rfl

theorem range?_unsigned (w : Width) : range? (.unsigned w) = some (0, 2 ^ w.bits - 1) := by
  cases w <;> rfl

theorem wrap_unsigned_eq_mask (w : Width) (v : Int) :
    wrap (.unsigned w) v = Bits.and v (2 ^ w.bits - 1) := by
  rw [Bits.and_mask, ← w.values_eq]
  rfl

/-- What the mask leaves, unless its highest bit is set; then it stands for a negative value. -/
theorem wrap_signed_eq_mask (w : Width) (v : Int) :
    wrap (.signed w) v =
      let raw := Bits.and v (2 ^ w.bits - 1)
      if raw >>> (w.bits - 1) = 0 then raw else raw - 2 ^ w.bits := by
  rw [Bits.and_mask]
  dsimp only
  rw [Int.shiftRight_eq_div_pow]
  cases w <;> simp only [wrap, Width.bits, Width.values, Int.bmod_def] <;> omega

end NumberType

/-- A quotient of a fixed width is that of the magnitudes, and negative if just one operand is. -/
theorem BinaryOp.onIntegers_div_of_fixed {t : NumberType} (ht : t ≠ .unbounded) (a b : Int) :
    BinaryOp.div.onIntegers t a b =
      let q : Int := (a.natAbs / b.natAbs : Nat)
      if decide (a < 0) = decide (b < 0) then q else -q := by
  have htdiv : BinaryOp.div.onIntegers t a b = a.tdiv b := if_neg ht
  rw [htdiv]
  have hpos (n : Nat) : decide (Int.ofNat n < 0) = false :=
    decide_eq_false (Int.not_lt.mpr (Int.natCast_nonneg n))
  have hneg (n : Nat) : decide (Int.negSucc n < 0) = true := decide_eq_true (Int.negSucc_lt_zero n)
  cases a <;> cases b <;> simp only [hpos, hneg] <;> rfl

/-! ## The cursor -/

/-- The component along the axis moves by one and is masked; the other one stays. -/
theorem Pointer.advance_eq_mask (p : Pointer) (d : Direction) :
    p.advance d =
      let delta : Int := if d.decreasing then -1 else 1
      let mask : Int := 2 ^ 64 - 1
      if d.vertical then ⟨p.x, Bits.and (p.y + delta) mask⟩
      else ⟨Bits.and (p.x + delta) mask, p.y⟩ := by
  dsimp only
  rw [Bits.and_mask, Bits.and_mask]
  rfl

end MatrixStack
