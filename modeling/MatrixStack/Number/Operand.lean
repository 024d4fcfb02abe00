/-
Operands of any kind.

An expression over numbers may meet a truth value, a text or nothing at all in place of a number.
A truth value counts as the unbounded 1 or 0, and stays a truth value under the bit operations
with another one.  Texts are joined, ordered, and repeated a number of times.  Every other pair of
kinds is refused with its cause, except that operands of different kinds are never equal.
-/
import MatrixStack.Number.Literal

namespace MatrixStack

inductive Operand where
  | number (n : Number)
  | truth (b : Bool)
  | text (s : String)
  | nothing
  deriving DecidableEq

/-- Why an operation on operands has no result. -/
inductive OperandError where
  | number (cause : NumberError)
  | unsupported (op : BinaryOp) (left right : String)
  | unsupportedUnary (symbol kind : String)
  | unordered (rel : Relation) (left right : String)
  | notJoinable (kind : String)
  | notRepeatable (kind : String)
  | countTooLarge (kind : String)
  | noIndex (kind : String)
  | tooLong
  | unprintable
  deriving DecidableEq

def OperandError.message : OperandError → String
  | .number cause => cause.message
  | .unsupported op left right => unsupportedMessage op.symbol left right
  | .unsupportedUnary symbol kind => "bad operand type for unary " ++ symbol ++ ": '" ++ kind ++ "'"
  | .unordered rel left right =>
    "'" ++ rel.symbol ++ "' not supported between instances of '" ++ left ++ "' and '" ++ right ++
      "'"
  | .notJoinable kind => "can only concatenate str (not \"" ++ kind ++ "\") to str"
  | .notRepeatable kind => "can't multiply sequence by non-int of type '" ++ kind ++ "'"
  | .noIndex kind => "'" ++ kind ++ "' object cannot be interpreted as an integer"
  | .countTooLarge kind => "cannot fit '" ++ kind ++ "' into an index-sized integer"
  | .tooLong => "repeated string is too long"
  | .unprintable => Decimal.unprintableMessage

namespace Operand

/-- The name of the kind of an operand in messages. -/
def kind : Operand → String
  | .number n => n.type.label
  | .truth _ => "bool"
  | .text _ => "str"
  | .nothing => "NoneType"

def number? : Operand → Option Number
  | .number n => some n
  | .truth b => some ⟨.unbounded, if b then 1 else 0⟩
  | _ => none

/-- The greatest count of repetitions, and the greatest length that a text can have. -/
def lengthLimit : Nat := 0x7FFFFFFFFFFFFFFF

/-- A text a number of times over; a count below one gives the empty text. -/
def repeated (s : String) (times : Operand) : Except OperandError Operand :=
  match times.number? with
  | none => .error (.notRepeatable times.kind)
  | some n =>
    let total := s.length * n.value.toNat
    if n.value < -(lengthLimit : Int) - 1 ∨ (lengthLimit : Int) < n.value then
      .error (.countTooLarge times.kind)
    else if lengthLimit < total then .error .tooLong
    else if total = 0 then .ok (.text "")
    else .ok (.text (String.join (List.replicate n.value.toNat s)))

def binary (op : BinaryOp) (a b : Operand) : Except OperandError Operand :=
  match op, a, b with
  | .or, .truth x, .truth y => .ok (.truth (x || y))
  | .and, .truth x, .truth y => .ok (.truth (x && y))
  | .xor, .truth x, .truth y => .ok (.truth (x ^^ y))
  | .add, .text s, .text t => .ok (.text (s ++ t))
  | .add, .text _, _ => .error (.notJoinable b.kind)
  | .mul, .text s, _ => repeated s b
  | .mul, _, .text s => repeated s a
  | _, _, _ =>
    match a.number?, b.number? with
    | some m, some n =>
      match Number.binary op m n with
      | .ok r => .ok (.number r)
      | .error (.unsupported op _ _) => .error (.unsupported op a.kind b.kind)
      | .error cause => .error (.number cause)
    | _, _ => .error (.unsupported op a.kind b.kind)

def not (a : Operand) : Except OperandError Operand :=
  match a.number? with
  | some n => .ok (.number n.not)
  | none => .error (.unsupportedUnary "~" a.kind)

def neg (a : Operand) : Except OperandError Operand :=
  match a.number? with
  | some n => .ok (.number n.neg)
  | none => .error (.unsupportedUnary "-" a.kind)

def equal (a b : Operand) : Except OperandError Bool :=
  match a.number?, b.number? with
  | some m, some n => (Number.equal m n).mapError .number
  | _, _ => .ok (a = b)

def related (rel : Relation) (a b : Operand) : Except OperandError Bool :=
  match a, b with
  | .text s, .text t =>
    .ok (match rel with
      | .lt => s < t
      | .le => ¬t < s
      | .gt => t < s
      | .ge => ¬s < t)
  | _, _ =>
    match a.number?, b.number? with
    | some m, some n => (Number.related rel m n).mapError .number
    | _, _ => .error (.unordered rel a.kind b.kind)

/-- The two operands are filed under one key: they are equal and their numbers have one type. -/
def sameKey (a b : Operand) : Bool :=
  match a.number?, b.number? with
  | some m, some n => m = n
  | _, _ => a = b

def truthText (b : Bool) : String := if b then "True" else "False"

/-- The operand as output shows it. -/
def printed : Operand → Except OperandError String
  | .number n => (n.printed?.map .ok).getD (.error .unprintable)
  | .truth b => .ok (truthText b)
  | .text s => .ok s
  | .nothing => .ok "None"

/-- The operand as an expression would write it. -/
def written : Operand → Except OperandError String
  | .number n => (n.written?.map .ok).getD (.error .unprintable)
  | .truth b => .ok (truthText b)
  | .text s => .ok (Text.quote s)
  | .nothing => .ok "None"

def index (a : Operand) : Except OperandError Operand :=
  match a.number? with
  | some n => .ok (.number ⟨.unbounded, n.value⟩)
  | none => .error (.noIndex a.kind)

end Operand
end MatrixStack
