/-
Programs read from bytes: from a stream, or from the contents of a file.

A file is decoded as a whole before anything in it is read.  A stream gives its lines first.
-/
import MatrixStack.Program.Growable
import MatrixStack.Terminal.Stream

namespace MatrixStack
namespace Program

/-- Load a program from a stream of the given name, and read the stream to its end. -/
def ofStream (conv : Converters) (type : NumberType) (name : String) (s : Stream) :
    Except LoadError Machine := do
  let layout ← Layout.read conv (s.lines.map Text.dropLineEnd)
  match s.ending with
  | some f => .error (.invalidEncoding name f.reason)
  | none => ofLayout type layout

/-- The text of a file of the given name. -/
def textOfBytes (name : String) (bytes : List UInt8) : Except LoadError String :=
  let decoded := Utf8.decode bytes
  match decoded.fault with
  | some f => .error (.invalidEncoding name f.reason)
  | none => .ok (String.ofList (Text.unifyNewlines decoded.chars))

end Program
end MatrixStack
