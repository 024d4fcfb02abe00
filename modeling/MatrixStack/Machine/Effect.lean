/-
What operators, comparators and exchanges do to the register, a stack and the direction.

An operator that finds its stack empty goes on with a neutral number: one for products and
quotients, zero for the rest.  A divisor of zero counts as one.  All operands of a program have
one type, and then no operator is refused (`Operator.compute_of_same`).
-/
import MatrixStack.Instruction
import MatrixStack.Number.Basic
import MatrixStack.Stack.Basic

namespace MatrixStack

namespace Operator

/-- What stands in for an operand that the stack does not have. -/
def neutral (type : NumberType) : BinaryOp → Number
  | .mul | .div => Number.one type
  | .add | .sub | .or | .and | .xor => Number.zero type

/-- The divisor used for a given operand. -/
def divisor (type : NumberType) (n : Number) : Except NumberError Number :=
  (Number.equal n (.zero type)).map fun isZero => if isZero then .one type else n

def compute (type : NumberType) (op : BinaryOp) (register operand : Number) :
    Except NumberError Number :=
  match op with
  | .div =>
    match divisor type operand with
    | .error cause => .error cause
    | .ok d => Number.binary .div register d
  | op => Number.binary op register operand

theorem divisor_of_same (t : NumberType) (b : Int) :
    divisor t ⟨t, b⟩ = .ok (if b = 0 then .one t else ⟨t, b⟩) := by
  unfold divisor Number.zero
  rw [Number.equal_of_same]
  by_cases hb : b = 0 <;> simp [Except.map, hb]

/-- Operands of one type are never refused; only the divisor needs to be looked at. -/
theorem compute_of_same (t : NumberType) (op : BinaryOp) (a b : Int) :
    compute t op ⟨t, a⟩ ⟨t, b⟩ =
      .ok (.of t (op.onIntegers t a (if op = .div ∧ b = 0 then 1 else b))) := by
  cases op with
  | div =>
    simp only [compute, divisor_of_same]
    by_cases hb : b = 0
    · simp [hb, Number.one, Number.binary_of_same]
    · simp [hb, Number.binary_of_same]
  | add | sub | mul | or | and | xor => simp [compute, Number.binary_of_same]

/-- The new register, or the cause of a refusal, and the stack afterwards. -/
def apply (o : Operator) (type : NumberType) (register : Number) (stack : Stack Number) :
    Except NumberError Number × Stack Number :=
  match o with
  | .push => (.ok register, stack.push register)
  | .pop =>
    let (top, rest) := stack.pop
    (.ok (top.getD (.zero type)), rest)
  | .duplicate =>
    match stack.pop with
    | (none, rest) => (.ok register, rest.push (.zero type))
    | (some top, rest) => (.ok register, (rest.push top).push top)
  | .not => (.ok register.not, stack)
  | .add => operate .add
  | .subtract => operate .sub
  | .multiply => operate .mul
  | .divide => operate .div
  | .or => operate .or
  | .and => operate .and
  | .xor => operate .xor
where
  operate (op : BinaryOp) : Except NumberError Number × Stack Number :=
    let (top, rest) := stack.pop
    (compute type op register (top.getD (neutral type op)), rest)

end Operator

namespace Comparator

/-- Turn right where the register is smaller and left where it is larger. -/
def turn (register other : Number) (d : Direction) : Except NumberError Direction :=
  match Number.less register other with
  | .error cause => .error cause
  | .ok true => .ok d.clockwise
  | .ok false =>
    match Number.less other register with
    | .error cause => .error cause
    | .ok true => .ok d.counterClockwise
    | .ok false => .ok d

/-- The new direction, or the cause of a refusal, and the stack afterwards. -/
def apply (c : Comparator) (type : NumberType) (register : Number) (stack : Stack Number)
    (d : Direction) : Except NumberError Direction × Stack Number :=
  match c with
  | .zero => (turn register (.zero type) d, stack)
  | .stack =>
    let (top, rest) := stack.pop
    (turn register (top.getD (.zero type)) d, rest)

theorem turn_of_same (t : NumberType) (a b : Int) (d : Direction) :
    turn ⟨t, a⟩ ⟨t, b⟩ d =
      .ok (if a < b then d.clockwise else if b < a then d.counterClockwise else d) := by
  unfold turn
  simp only [Number.less_of_same]
  by_cases hab : a < b
  · simp [hab]
  · by_cases hba : b < a <;> simp [hab, hba]

end Comparator

/-- What becomes of the register in an exchange: it goes out, or a number is to come in for it. -/
inductive Transfer where
  | printed (v : Number)
  | awaited
  deriving DecidableEq

def Exchange.apply (e : Exchange) (register : Number) : Transfer :=
  match e with
  | .print => .printed register
  | .input => .awaited

end MatrixStack
