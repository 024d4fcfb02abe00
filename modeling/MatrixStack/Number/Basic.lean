/-
Numbers and their arithmetic.

A number is a value together with its type.  Operations take numbers of one type, or one number
of a fixed width on the left and an unbounded one on the right; the result is computed on
unbounded integers and wrapped into the type of the left operand.  Other pairs are refused with
the cause.  `Number.binary_of_same` and `Number.less_of_same` say what happens where both operands
have one type, which is all that a program ever does.
-/
import MatrixStack.Number.Bits
import MatrixStack.Number.Kind

namespace MatrixStack

structure Number where
  type : NumberType
  value : Int
  deriving DecidableEq

/-- An arithmetic operation of two operands. -/
inductive BinaryOp where
  | add | sub | mul | div | or | and | xor
  deriving DecidableEq

/-- A question about the order of two operands. -/
inductive Relation where
  | lt | le | gt | ge
  deriving DecidableEq

namespace BinaryOp

def symbol : BinaryOp → String
  | .add => "+"
  | .sub => "-"
  | .mul => "*"
  | .div => "//"
  | .or => "|"
  | .and => "&"
  | .xor => "^"

/-- The operation on plain integers.  Division goes toward zero for a type of fixed width and to
the floor for the unbounded one; the divisor is not zero. -/
def onIntegers (op : BinaryOp) (type : NumberType) (a b : Int) : Int :=
  match op with
  | .add => a + b
  | .sub => a - b
  | .mul => a * b
  | .div => if type = .unbounded then a.fdiv b else a.tdiv b
  | .or => Bits.or a b
  | .and => Bits.and a b
  | .xor => Bits.xor a b

end BinaryOp

namespace Relation

def symbol : Relation → String
  | .lt => "<"
  | .le => "<="
  | .gt => ">"
  | .ge => ">="

def onIntegers (rel : Relation) (a b : Int) : Bool :=
  match rel with
  | .lt => a < b
  | .le => a ≤ b
  | .gt => b < a
  | .ge => b ≤ a

end Relation

/-- Why an operation on two numbers has no result. -/
inductive NumberError where
  | mixed (left right : NumberType)
  | unsupported (op : BinaryOp) (left right : NumberType)
  | divisionByZero
  deriving DecidableEq

/-- The refusal of an operation for operands of the two named kinds. -/
def unsupportedMessage (symbol left right : String) : String :=
  "unsupported operand type(s) for " ++ symbol ++ ": '" ++ left ++ "' and '" ++ right ++ "'"

def NumberError.message : NumberError → String
  | .mixed left right => "cannot mix " ++ left.label ++ " and " ++ right.label
  | .unsupported op left right => unsupportedMessage op.symbol left.label right.label
  | .divisionByZero => "integer division or modulo by zero"

namespace Number

/-- The number of a type that an integer wraps to. -/
def of (type : NumberType) (v : Int) : Number := ⟨type, type.wrap v⟩

theorem of_of_holds {t : NumberType} {v : Int} (h : t.Holds v) : of t v = ⟨t, v⟩ := by
  rw [of, NumberType.wrap_of_holds h]

def zero (type : NumberType) : Number := ⟨type, 0⟩

def one (type : NumberType) : Number := ⟨type, 1⟩

/-- The two operands have one fixed width, or at least one of them is unbounded. -/
def comparable (a b : Number) : Bool :=
  a.type = b.type || a.type = .unbounded || b.type = .unbounded

def binary (op : BinaryOp) (a b : Number) : Except NumberError Number :=
  if a.type ≠ b.type ∧ a.type = .unbounded then .error (.unsupported op a.type b.type)
  else if !a.comparable b then .error (.mixed a.type b.type)
  else if op = .div ∧ b.value = 0 then .error .divisionByZero
  else .ok (of a.type (op.onIntegers a.type a.value b.value))

def not (a : Number) : Number := of a.type (Bits.not a.value)

def neg (a : Number) : Number := of a.type (-a.value)

/-- Equality of values; two different fixed widths are refused. -/
def equal (a b : Number) : Except NumberError Bool :=
  if a.comparable b then .ok (a.value = b.value) else .error (.mixed a.type b.type)

def related (rel : Relation) (a b : Number) : Except NumberError Bool :=
  if a.comparable b then .ok (rel.onIntegers a.value b.value)
  else .error (.mixed a.type b.type)

def less (a b : Number) : Except NumberError Bool := related .lt a b

theorem binary_of_same {op : BinaryOp} {t : NumberType} {a b : Int} (h : op = .div → b ≠ 0) :
    binary op ⟨t, a⟩ ⟨t, b⟩ = .ok (of t (op.onIntegers t a b)) := by
  have hb : ¬(op = .div ∧ b = 0) := fun ⟨hop, hz⟩ => h hop hz
  simp [binary, comparable, hb]

theorem less_of_same (t : NumberType) (a b : Int) : less ⟨t, a⟩ ⟨t, b⟩ = .ok (decide (a < b)) := by
  simp [less, related, comparable, Relation.onIntegers]

theorem equal_of_same (t : NumberType) (a b : Int) :
    equal ⟨t, a⟩ ⟨t, b⟩ = .ok (decide (a = b)) := by
  simp [equal, comparable]

end Number
end MatrixStack
