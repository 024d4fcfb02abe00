/-
Numbers as text, and as indices.

A literal is a decimal numeral whose value lies in the range of the type: a literal out of range
is refused, so that wrapping the others changes nothing.  `Literal.read_eq_ok_iff` is the exact
condition.
-/
import MatrixStack.Number.Basic
import MatrixStack.Text.Decimal
import MatrixStack.Text.Quoted

namespace MatrixStack

/-- Why a text is no literal of a type. -/
inductive LiteralFault where
  | malformed (text : String)
  | tooLong (digits : Nat)
  | outOfRange (text : String) (type : NumberType) (least greatest : Int)
  deriving DecidableEq

def LiteralFault.message : LiteralFault → String
  | .malformed text => "invalid decimal literal: " ++ Text.quote text
  | .tooLong digits => Decimal.tooLongMessage digits
  | .outOfRange text type least greatest =>
    Text.quote text ++ " out of range for " ++ type.label ++ " (" ++ Decimal.text least ++ ".." ++
      Decimal.text greatest ++ ")"

namespace Literal

/-- The integer of a decimal numeral. -/
def readInteger (text : String) : Except LiteralFault Int :=
  match Decimal.read text with
  | .error .malformed => .error (.malformed text)
  | .error (.tooLong digits) => .error (.tooLong digits)
  | .ok v => .ok v

def read (type : NumberType) (text : String) : Except LiteralFault Number :=
  match readInteger text with
  | .error fault => .error fault
  | .ok v =>
    match type.range? with
    | none => .ok (.of type v)
    | some (least, greatest) =>
      if least ≤ v ∧ v ≤ greatest then .ok (.of type v)
      else .error (.outOfRange text type least greatest)

theorem read_eq_ok_iff {type : NumberType} {text : String} {n : Number} :
    read type text = .ok n ↔
      Decimal.read text = .ok n.value ∧ n.type = type ∧ type.Holds n.value := by
  obtain ⟨t, v⟩ := n
  unfold read readInteger
  cases hd : Decimal.read text with
  | error fault => cases fault <;> simp
  | ok w =>
    -- Wrapping a value in range changes nothing.
    have hof (hw : type.Holds w) : Number.of type w = ⟨t, v⟩ ↔ w = v ∧ t = type := by
      rw [Number.of_of_holds hw, Number.mk.injEq, and_comm, eq_comm (a := t)]
    unfold NumberType.Holds at hof ⊢
    cases hr : type.range? with
    | none =>
      simp only [hr] at hof
      simp [hof trivial]
    | some r =>
      obtain ⟨lo, hi⟩ := r
      simp only [hr] at hof
      by_cases hin : lo ≤ w ∧ w ≤ hi
      · simp only [hin, and_self, if_true, Except.ok.injEq, hof hin]
        constructor
        · rintro ⟨rfl, rfl⟩
          exact ⟨rfl, rfl, hin⟩
        · rintro ⟨rfl, rfl, -⟩
          exact ⟨rfl, rfl⟩
      · simp only [hin, if_false, Except.ok.injEq, reduceCtorEq, false_iff, not_and]
        rintro rfl _
        simpa using hin

end Literal

namespace Number

def printed? (n : Number) : Option String := Decimal.print? n.value

/-- The numeral, within the label of the type unless the number is unbounded. -/
def written? (n : Number) : Option String :=
  n.printed?.map fun numeral =>
    if n.type = .unbounded then numeral else n.type.label ++ "(" ++ numeral ++ ")"

/-- The value as an index, unless it is negative. -/
def index? (n : Number) : Option Nat := if 0 ≤ n.value then some n.value.toNat else none

def negativeIndexMessage (n : Number) : String :=
  Decimal.messageWith (n.printed?.map ("negative index: " ++ ·))

end Number
end MatrixStack
