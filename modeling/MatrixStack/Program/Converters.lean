/-
How the tokens of a stack declaration become numbers and indices.

A number type brings its own pair of converters; a program may be read with others.  A converter
either refuses its token, which is a fault of the text, or fails for want of a key of its own,
which ends the reading.
-/
import MatrixStack.Number.Literal
import MatrixStack.Program.Error

namespace MatrixStack

inductive Refusal where
  | rejected
  | missingKey (key : String)
  deriving DecidableEq

/-- The load error of a refusal, given the one for a rejected token. -/
def Refusal.toLoadError (onRejected : LoadError) : Refusal → LoadError
  | .rejected => onRejected
  | .missingKey key => .missingKey key

structure Converters where
  number : String → Except Refusal Number
  index : Number → Except Refusal Int

namespace Converters

/-- The literals of the type, and its values that are not negative as indices. -/
def ofType (type : NumberType) : Converters where
  number text :=
    match Literal.read type text with
    | .error _ => .error .rejected
    | .ok n => .ok n
  index n := if n.value < 0 then .error .rejected else .ok n.value

def readNumber (conv : Converters) (token : String) : Except LoadError Number :=
  match conv.number token with
  | .error refusal => .error (refusal.toLoadError (.invalidNumber token))
  | .ok n => .ok n

def readCoordinate (conv : Converters) (token : String) : Except LoadError Int :=
  match conv.number token with
  | .error refusal => .error (refusal.toLoadError (.invalidCoordinate token))
  | .ok n =>
    match conv.index n with
    | .error refusal => .error (refusal.toLoadError (.invalidCoordinate token))
    | .ok i => .ok i

theorem readNumber_eq_ok_iff {conv : Converters} {token : String} {n : Number} :
    conv.readNumber token = .ok n ↔ conv.number token = .ok n := by
  unfold readNumber
  cases conv.number token <;> simp

theorem readCoordinate_eq_ok_iff {conv : Converters} {token : String} {i : Int} :
    conv.readCoordinate token = .ok i ↔ ∃ n, conv.number token = .ok n ∧ conv.index n = .ok i := by
  unfold readCoordinate
  cases conv.number token with
  | error refusal => simp
  | ok n =>
    simp only [Except.ok.injEq, exists_eq_left']
    cases conv.index n <;> simp

theorem number_ofType_eq_ok_iff {type : NumberType} {token : String} {n : Number} :
    (ofType type).number token = .ok n ↔ Literal.read type token = .ok n := by
  cases h : Literal.read type token with
  | error fault => simp [ofType, h]
  | ok m => simp [ofType, h]

theorem index_ofType_eq_ok_iff {type : NumberType} {n : Number} {i : Int} :
    (ofType type).index n = .ok i ↔ 0 ≤ n.value ∧ n.value = i := by
  by_cases h : n.value < 0
  · simp only [ofType, h, if_true, reduceCtorEq, false_iff, not_and]
    omega
  · simp only [ofType, h, if_false, Except.ok.injEq]
    omega

end Converters
end MatrixStack
