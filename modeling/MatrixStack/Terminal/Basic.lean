/-
A terminal: a stream of input and the text written so far.
-/
import MatrixStack.Terminal.Stream

namespace MatrixStack

structure Terminal where
  stdin : Stream
  stdout : String
  stderr : String
  deriving DecidableEq

namespace Terminal

def ofInput (stdin : Stream) : Terminal := ⟨stdin, "", ""⟩

def print (t : Terminal) (s : String) : Terminal := { t with stdout := t.stdout ++ s }

def printLine (t : Terminal) (s : String) : Terminal := t.print (s ++ "\n")

def warnLine (t : Terminal) (s : String) : Terminal := { t with stderr := t.stderr ++ s ++ "\n" }

/-- The next line of the input, which is empty at its end. -/
def readLine (t : Terminal) : Except Utf8.Fault (List Char) × Terminal :=
  let (line, stdin) := t.stdin.read
  (line, { t with stdin := stdin })

end Terminal
end MatrixStack
