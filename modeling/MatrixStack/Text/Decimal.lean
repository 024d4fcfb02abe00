/-
Decimal numerals.

A numeral is an optional sign and one or more ASCII digits.  Reading and printing are both
limited to numerals of at most 4300 digits; the sign does not count and leading zeros do.
`read` gives the value or the reason of the refusal, and `print?` is `none` for a value whose
numeral is too long.  `text` has no limit; it is for values that are known to be short.
-/
namespace MatrixStack
namespace Decimal

def digitLimit : Nat := 4300

/-- Why a text is no numeral. -/
inductive Fault where
  | malformed
  | tooLong (digits : Nat)
  deriving DecidableEq

/-- The message for a numeral that is too long to be read. -/
def tooLongMessage (digits : Nat) : String :=
  "Exceeds the limit (4300 digits) for integer string conversion: value has " ++ digits.repr ++
    " digits; use sys.set_int_max_str_digits() to increase the limit"

/-- The message for a value too long to be printed. -/
def unprintableMessage : String :=
  "Exceeds the limit (4300 digits) for integer string conversion; " ++
    "use sys.set_int_max_str_digits() to increase the limit"

/-- Whether the text starts with a minus sign, and what follows its sign. -/
def splitSign : List Char → Bool × List Char
  | '-' :: rest => (true, rest)
  | '+' :: rest => (false, rest)
  | rest => (false, rest)

/-- The value of a row of digits, the most significant first. -/
def value (digits : List Char) : Nat :=
  digits.foldl (fun n c => 10 * n + (c.toNat - '0'.toNat)) 0

theorem value_concat (ds : List Char) (c : Char) :
    value (ds ++ [c]) = 10 * value ds + (c.toNat - '0'.toNat) := by
  simp [value]

def applySign (negative : Bool) (n : Nat) : Int :=
  if negative then -(n : Int) else n

def read (text : String) : Except Fault Int :=
  let (negative, digits) := splitSign text.toList
  if digits.isEmpty || !digits.all Char.isDigit then .error .malformed
  else if digitLimit < digits.length then .error (.tooLong digits.length)
  else .ok (applySign negative (value digits))

/-- The numeral of a value, whatever its length. -/
def text : Int → String
  | .ofNat n => n.repr
  | .negSucc n => "-" ++ (n + 1).repr

def printable (v : Int) : Bool := v.natAbs.repr.length ≤ digitLimit

def print? (v : Int) : Option String :=
  if printable v then some (text v) else none

/-- A message with numerals in it; one too long to be printed leaves only the complaint about it. -/
def messageWith (numerals : Option String) : String := numerals.getD unprintableMessage

theorem print?_eq_some_iff {v : Int} {s : String} :
    print? v = some s ↔ printable v = true ∧ text v = s := by
  simp [print?]

end Decimal
end MatrixStack
