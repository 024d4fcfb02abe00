/-
Bitwise operations on unbounded integers in two's complement.

A negative integer is a row of bits that is one from some place on, so `-(m + 1)` has the bits of
`m` inverted.  `Bits.test` reads one bit, and the lemmas `test_and`, `test_or`, `test_xor` and
`test_not` say that each operation acts on every bit by itself.
-/
namespace MatrixStack
namespace Bits

/-- Bit `i` of the infinite two's complement form. -/
def test : Int → Nat → Bool
  | .ofNat m, i => m.testBit i
  | .negSucc m, i => !m.testBit i

/-- The bits of `m` that `n` does not have. -/
def without (m n : Nat) : Nat := m ^^^ (m &&& n)

theorem testBit_without (m n i : Nat) :
    (without m n).testBit i = (m.testBit i && !n.testBit i) := by
  simp only [without, Nat.testBit_xor, Nat.testBit_and]
  cases m.testBit i <;> cases n.testBit i <;> rfl

def and : Int → Int → Int
  | .ofNat m, .ofNat n => .ofNat (m &&& n)
  | .ofNat m, .negSucc n => .ofNat (without m n)
  | .negSucc m, .ofNat n => .ofNat (without n m)
  | .negSucc m, .negSucc n => .negSucc (m ||| n)

def or : Int → Int → Int
  | .ofNat m, .ofNat n => .ofNat (m ||| n)
  | .ofNat m, .negSucc n => .negSucc (without n m)
  | .negSucc m, .ofNat n => .negSucc (without m n)
  | .negSucc m, .negSucc n => .negSucc (m &&& n)

def xor : Int → Int → Int
  | .ofNat m, .ofNat n => .ofNat (m ^^^ n)
  | .ofNat m, .negSucc n => .negSucc (m ^^^ n)
  | .negSucc m, .ofNat n => .negSucc (m ^^^ n)
  | .negSucc m, .negSucc n => .ofNat (m ^^^ n)

def not : Int → Int
  | .ofNat m => .negSucc m
  | .negSucc m => .ofNat m

theorem test_and (a b : Int) (i : Nat) : test (and a b) i = (test a i && test b i) := by
  cases a <;> cases b <;> simp [test, and, testBit_without, Bool.and_comm]

theorem test_or (a b : Int) (i : Nat) : test (or a b) i = (test a i || test b i) := by
  cases a <;> cases b <;> simp [test, or, testBit_without, Bool.or_comm]

theorem test_xor (a b : Int) (i : Nat) : test (xor a b) i = Bool.xor (test a i) (test b i) := by
  cases a <;> cases b <;> simp [test, xor]

theorem test_not (a : Int) (i : Nat) : test (not a) i = !test a i := by
  cases a <;> simp [test, not]

theorem not_eq_neg_sub_one (a : Int) : not a = -a - 1 := by
  cases a <;> simp only [not, Int.negSucc_eq, Int.ofNat_eq_natCast] <;> omega

end Bits
end MatrixStack
