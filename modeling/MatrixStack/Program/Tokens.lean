/-
The tokens of a stack declaration.

Tokens are the runs of characters that are neither blank nor a number sign.  A number sign starts
a comment that ends at the next newline; nothing but blanks may follow the comment.
-/
import MatrixStack.Text.Blank

namespace MatrixStack
namespace Tokens

/-- The runs of characters that are not blank. -/
def words (cs : List Char) : List (List Char) :=
  (cs.splitOnP Text.isBlank).filter fun word => !word.isEmpty

def beforeComment (cs : List Char) : List Char := cs.takeWhile (· ≠ '#')

/-- What stands after the comment, from the newline that ends it on. -/
def afterComment (cs : List Char) : List Char := (cs.dropWhile (· ≠ '#')).dropWhile (· ≠ '\n')

/-- The tokens, unless there is text after the comment. -/
def read? (cs : List Char) : Option (List String) :=
  if (afterComment cs).all Text.isBlank then some ((words (beforeComment cs)).map String.ofList)
  else none

end Tokens
end MatrixStack
