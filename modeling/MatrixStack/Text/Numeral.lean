/-
Integers written freely in a base.

Such a numeral may have spaces around it, a sign, the mark of its base in front (`0x` for sixteen,
`0o` for eight), and single underscores between its digits and after the mark.  Decimal digits of
any script count as the ASCII ones.  In base ten the digits are limited as in `Decimal.read`.
-/
import MatrixStack.Text.Blank
import MatrixStack.Text.Decimal

namespace MatrixStack
namespace Text

/-- The zero of every script with decimal digits; the other nine digits follow it. -/
def digitZeros : List Nat :=
  [0x30, 0x660, 0x6F0, 0x7C0, 0x966, 0x9E6, 0xA66, 0xAE6, 0xB66, 0xBE6, 0xC66, 0xCE6, 0xD66,
   0xDE6, 0xE50, 0xED0, 0xF20, 0x1040, 0x1090, 0x17E0, 0x1810, 0x1946, 0x19D0, 0x1A80, 0x1A90,
   0x1B50, 0x1BB0, 0x1C40, 0x1C50, 0xA620, 0xA8D0, 0xA900, 0xA9D0, 0xA9F0, 0xAA50, 0xABF0,
   0xFF10, 0x104A0, 0x10D30, 0x11066, 0x110F0, 0x11136, 0x111D0, 0x112F0, 0x11450, 0x114D0,
   0x11650, 0x116C0, 0x11730, 0x118E0, 0x11950, 0x11C50, 0x11D50, 0x11DA0, 0x16A60, 0x16AC0,
   0x16B50, 0x1D7CE, 0x1D7D8, 0x1D7E2, 0x1D7EC, 0x1D7F6, 0x1E140, 0x1E2F0, 0x1E950, 0x1FBF0]

/-- The value of a decimal digit of any script. -/
def decimalDigit? (c : Char) : Option Nat :=
  (digitZeros.find? fun first => first ≤ c.toNat && c.toNat < first + 10).map (c.toNat - ·)

end Text

namespace Numeral

/-- The blanks of plain ASCII text that may stand around a numeral. -/
def isSpace (c : Char) : Bool := c = ' ' || (0x09 ≤ c.toNat && c.toNat ≤ 0x0D)

/-- A character as the ASCII one that it stands for. -/
def fold (c : Char) : Char :=
  if c.toNat < 0x7F then c
  else if Text.isBlank c then ' '
  else
    match Text.decimalDigit? c with
    | some d => Char.ofNat ('0'.toNat + d)
    | none => '?'

/-- ASCII text stands as it is; in any other, blanks and digits are folded. -/
def normalize (cs : List Char) : List Char :=
  if cs.all fun c => c.toNat < 0x80 then cs else cs.map fold

def digitValue? (base : Nat) (c : Char) : Option Nat :=
  let d :=
    if c.isDigit then c.toNat - '0'.toNat
    else if 'a' ≤ c ∧ c ≤ 'z' then c.toNat - 'a'.toNat + 10
    else if 'A' ≤ c ∧ c ≤ 'Z' then c.toNat - 'A'.toNat + 10
    else base
  if d < base then some d else none

/-- The digits of a row in which single underscores may separate them. -/
def digits? (base : Nat) : List Char → Option (List Nat)
  | [] => none
  | [c] => (digitValue? base c).map ([·])
  | c :: '_' :: rest => do return (← digitValue? base c) :: (← digits? base rest)
  | c :: rest => do return (← digitValue? base c) :: (← digits? base rest)

/-- What follows the mark of the base, if it is there. -/
def dropMark (base : Nat) : List Char → List Char
  | '0' :: m :: rest =>
    if (base = 16 ∧ (m = 'x' ∨ m = 'X')) ∨ (base = 8 ∧ (m = 'o' ∨ m = 'O')) then
      match rest with
      | '_' :: rest => rest
      | rest => rest
    else '0' :: m :: rest
  | cs => cs

def valueOf (base : Nat) (digits : List Nat) : Nat := digits.foldl (fun n d => base * n + d) 0

def read (base : Nat) (text : String) : Option Int :=
  let body := Text.trimWhere isSpace (normalize text.toList)
  let (negative, unsigned) := Decimal.splitSign body
  match digits? base (dropMark base unsigned) with
  | none => none
  | some digits =>
    if base = 10 ∧ Decimal.digitLimit < digits.length then none
    else some (Decimal.applySign negative (valueOf base digits))

end Numeral
end MatrixStack
