/-
Blank characters, and trimming them from the ends of a text.

Blanks are the ASCII controls from tab to carriage return, the four information separators, and
every space or line separator of Unicode.  The zero width characters are not among them.
-/
import MatrixStack.Text.Range

namespace MatrixStack
namespace Text

def blankRanges : List (Nat × Nat) :=
  [(0x09, 0x0D), (0x1C, 0x20), (0x85, 0x85), (0xA0, 0xA0), (0x1680, 0x1680), (0x2000, 0x200A),
    (0x2028, 0x2029), (0x202F, 0x202F), (0x205F, 0x205F), (0x3000, 0x3000)]

def isBlank (c : Char) : Bool := inRanges blankRanges c

/-- Drop the characters of a class from both ends. -/
def trimWhere (p : Char → Bool) (cs : List Char) : List Char :=
  ((cs.dropWhile p).reverse.dropWhile p).reverse

/-- The text without the blanks at either end. -/
def trim (text : String) : String := String.ofList (trimWhere isBlank text.toList)

/-- Drop the characters of a class from the end. -/
def trimEndWhere (p : Char → Bool) (cs : List Char) : List Char :=
  (cs.reverse.dropWhile p).reverse

theorem trimEndWhere_concat_of_pos {p : Char → Bool} {c : Char} (h : p c = true)
    (cs : List Char) : trimEndWhere p (cs ++ [c]) = trimEndWhere p cs := by
  simp [trimEndWhere, h]

end Text
end MatrixStack
