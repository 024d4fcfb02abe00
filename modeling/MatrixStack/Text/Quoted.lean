/-
The quoted form of a text, as messages show it.

A text stands between single quotes, or between double quotes if it holds a single quote and no
double one.  The quote in use and the backslash are escaped with a backslash; a newline, a
carriage return and a tab have their letters; every other character without a visible form is
written as its code point in two, four or eight lower case hexadecimal digits.
-/
import MatrixStack.Text.Printable

namespace MatrixStack
namespace Text

/-- The digits of `n` in base 16, with zeros in front up to the given width. -/
def hexPadded (width n : Nat) : List Char :=
  let digits := Nat.toDigits 16 n
  List.replicate (width - digits.length) '0' ++ digits

def codePointEscape (n : Nat) : List Char :=
  if n < 0x100 then '\\' :: 'x' :: hexPadded 2 n
  else if n < 0x10000 then '\\' :: 'u' :: hexPadded 4 n
  else '\\' :: 'U' :: hexPadded 8 n

/-- How one character is written between quotes of the given kind. -/
def escape (mark c : Char) : List Char :=
  if c = mark ∨ c = '\\' then ['\\', c]
  else if c = '\n' then ['\\', 'n']
  else if c = '\r' then ['\\', 'r']
  else if c = '\t' then ['\\', 't']
  else if isPrintable c then [c]
  else codePointEscape c.toNat

def quoteMark (cs : List Char) : Char :=
  if cs.contains '\'' && !cs.contains '"' then '"' else '\''

def quote (text : String) : String :=
  let cs := text.toList
  let mark := quoteMark cs
  String.ofList (mark :: cs.flatMap (escape mark) ++ [mark])

end Text
end MatrixStack
