/-
The lines of a program.

A line that starts with a number sign is a comment, one that starts with `s` declares the contents
of a stack, and every other line is a row of instructions, up to a number sign in it.
-/
import MatrixStack.Program.Converters
import MatrixStack.Program.Tokens

namespace MatrixStack

/-- Numbers to be pushed onto the stack of a block, the first one first. -/
structure Declaration where
  block : Pointer
  values : List Number
  deriving DecidableEq

inductive Line where
  | comment
  | declaration (d : Declaration)
  | row (instructions : List Instruction)
  deriving DecidableEq

/-- The declaration of a line, its first character included: a pointer, then any numbers. -/
def Declaration.read (conv : Converters) (line : List Char) : Except LoadError Declaration :=
  match Tokens.read? line.tail with
  | none => .error .textAfterComment
  | some (x :: y :: values) => do
    let x ← conv.readCoordinate x
    let y ← conv.readCoordinate y
    return ⟨⟨x, y⟩, ← values.mapM conv.readNumber⟩
  | some _ => .error (.missingPointer (String.ofList line))

namespace Line

def readInstruction (c : Char) : Except LoadError Instruction :=
  match Instruction.ofChar? c with
  | some i => .ok i
  | none => .error (.unknownInstruction (String.singleton c))

theorem readInstruction_eq_ok_iff {c : Char} {i : Instruction} :
    readInstruction c = .ok i ↔ Instruction.ofChar? c = some i := by
  unfold readInstruction
  cases Instruction.ofChar? c <;> simp

/-- The characters of a row that are instructions: those before a number sign. -/
def rowChars (line : List Char) : List Char := line.takeWhile (· ≠ '#')

def readRow (line : List Char) : Except LoadError (List Instruction) :=
  (rowChars line).mapM readInstruction

def read (conv : Converters) (line : List Char) : Except LoadError Line :=
  match line with
  | '#' :: _ => .ok .comment
  | 's' :: _ => (Declaration.read conv line).map .declaration
  | _ => (readRow line).map .row

def row? : Line → Option (List Instruction)
  | .row instructions => some instructions
  | _ => none

def declaration? : Line → Option Declaration
  | .declaration d => some d
  | _ => none

end Line
end MatrixStack
