/-
Lines of a text.

A text that comes from a file or a stream has one kind of line end, the newline, after
`unifyNewlines`.  `splitLines` cuts a whole text into lines and forgets one carriage return at the
end of each; `keepNewlines` cuts it after each newline and forgets nothing.
-/
import MatrixStack.Text.Blank

namespace MatrixStack
namespace Text

/-- Carriage returns become newlines, together with a newline that follows. -/
def unifyNewlines : List Char → List Char
  | [] => []
  | '\r' :: '\n' :: rest => '\n' :: unifyNewlines rest
  | c :: rest => (if c = '\r' then '\n' else c) :: unifyNewlines rest

/-- The line without one carriage return at its end. -/
def dropReturn (line : List Char) : List Char :=
  if line.getLast? = some '\r' then line.dropLast else line

/-- The pieces between newlines, without a last piece that is empty. -/
def splitLines (text : List Char) : List (List Char) :=
  let pieces := text.splitOn '\n'
  let lines := if pieces.getLast? = some [] then pieces.dropLast else pieces
  lines.map dropReturn

/-- The lines of a text as they are shown and numbered. -/
def lines (text : String) : List String := (splitLines text.toList).map String.ofList

/-- The line without the carriage returns and newlines at its end. -/
def dropLineEnd (line : List Char) : List Char := trimEndWhere (fun c => c = '\r' ∨ c = '\n') line

/-- The lines of a text, each with its newline; the last may have none. -/
def keepNewlines : List Char → List (List Char)
  | [] => []
  | c :: rest =>
    if c = '\n' then ['\n'] :: keepNewlines rest
    else
      match keepNewlines rest with
      | [] => [[c]]
      | line :: more => (c :: line) :: more

end Text
end MatrixStack
