/-
Why a program text becomes no machine.

Most causes are faults of the text.  The last four are not: a custom converter may fail in a way
that says nothing about its token, and a fixed machine may be asked for in a size that does not
exist.
-/
import MatrixStack.Machine.Basic
import MatrixStack.Text.Utf8

namespace MatrixStack

inductive LoadError where
  | unknownInstruction (text : String)
  | instructionOutOfRange (place : Pointer) (c : Char)
  | invalidNumber (text : String)
  | invalidCoordinate (text : String)
  | stackOutOfRange (block : Pointer)
  | missingPointer (line : String)
  | invalidEncoding (source : String) (reason : Utf8.Reason)
  | textAfterComment
  | missingKey (key : String)
  | negativeExtent (cause : NegativeExtent)
  | noCapacity (cause : NoCapacity)
  | sizeMismatch (cause : SizeMismatch)
  deriving DecidableEq

namespace LoadError

def message : LoadError → String
  | unknownInstruction text => "unknown instruction: " ++ Text.quote text
  | instructionOutOfRange place c =>
    "instruction " ++ Text.quote (String.singleton c) ++ " out of range: " ++ place.text
  | invalidNumber text => "invalid number: " ++ Text.quote text
  | invalidCoordinate text => "invalid stack coordinate: " ++ Text.quote text
  | stackOutOfRange block =>
    Decimal.messageWith (block.print?.map ("stack pointer out of range: " ++ ·))
  | missingPointer line => "stack line missing pointer: " ++ Text.quote line
  | invalidEncoding source reason =>
    source ++ ": program text is not valid UTF-8 (" ++ reason.text ++ ")"
  | textAfterComment => "text after a comment"
  | missingKey key => Text.quote key
  | negativeExtent cause => cause.message
  | noCapacity cause => cause.message
  | sizeMismatch cause => cause.message

/-- The error is a fault of the program text. -/
def ofText : LoadError → Bool
  | textAfterComment | missingKey _ | negativeExtent _ | noCapacity _ | sizeMismatch _ => false
  | _ => true

end LoadError
end MatrixStack
