/-
The interpreter as a program of its own.

`Job.next` decides what a command does.  The loop here reads the program files beforehand, gets
more input when a program waits for it, and writes out what the terminal holds after every turn.
-/
import MatrixStack.Interpreter.CommandLine

namespace MatrixStack
namespace Interpreter

/-- The system gives an error number as it is or negated, by the call that fails. -/
def isErrorNumber (code : UInt32) (number : UInt32) : Bool := code = number || code = 0 - number

/-- The refusal of a path, when it is one that a command reports. -/
def refusal? (path : Path) : IO.Error → Option FileError
  | .noFileOrDirectory _ _ _ => some (.notFound path)
  | .inappropriateType _ code _ =>
    some (if isErrorNumber code 20 then .notDirectory path else .isDirectory path)
  | .invalidArgument _ code _ => if isErrorNumber code 36 then some (.nameTooLong path) else none
  | _ => none

def readFile (path : Path) : IO (Except FileError (List UInt8)) := do
  match ← (IO.FS.readBinFile path.text).toBaseIO with
  | .ok bytes => return .ok bytes.toList
  | .error e =>
    match refusal? path e with
    | some refused => return .error refused
    | none => throw e

/-- A reader of files that holds the contents of the files that a command line names. -/
def readerFor (args : List String) : IO FileReader := do
  match Arguments.parse args with
  | .error _ => return fun path => .error (.notFound path)
  | .ok a =>
    if a.introduces || a.fromInput then return fun path => .error (.notFound path)
    let contents ← a.files.mapM fun file => do
      let path := Path.ofString file
      return (path, ← readFile path)
    return fun path => (contents.lookup path).getD (.error (.notFound path))

/-- The chunks that are left of a source, as it gives them. -/
partial def readChunks (source : IO.FS.Stream) : IO (List (List UInt8)) := do
  let chunk ← source.read Stream.chunkSize.toUSize
  if chunk.isEmpty then return [] else return chunk.toList :: (← readChunks source)

def allInput : IO Stream := do
  return .ofChunks (← readChunks (← IO.getStdin))

/-- More input: the next line that a person types, or all that a file or a pipe still holds. -/
def moreInput : IO Stream := do
  let source ← IO.getStdin
  if ← source.isTty then return .ofChunks [(← source.getLine).toUTF8.toList] else allInput

/-- Write what a terminal holds past the characters of its output that are written already. -/
def writeOut (t : Terminal) (written : Nat) : IO Unit := do
  let text := String.ofList (t.stdout.toList.drop written)
  unless text.isEmpty do
    let target ← IO.getStdout
    target.putStr text
    target.flush
  unless t.stderr.isEmpty do
    (← IO.getStderr).putStr t.stderr

/-- The program waits and there is nothing left to answer it with. -/
def Job.lacksInput (job : Job) : Bool :=
  !job.piped && job.live.machine.state = .inputWaiting && job.live.terminal.stdin = ⟨[], none⟩

/-- Write the prompt, and put more input behind it; with the characters that are written. -/
def Job.supply (job : Job) : IO (Job × Nat) := do
  let shown := prompt (settings job.arguments job.piped) job.live.terminal
  writeOut shown 0
  let stdin ← moreInput
  let terminal := { job.live.terminal with stdin := stdin }
  return ({ job with live := { job.live with terminal := terminal } }, shown.stdout.length)

partial def work (read : FileReader) (job : Job) : IO Exit := do
  let (job, written) ← if job.lacksInput then job.supply else pure (job, 0)
  match job.next read with
  | .over outcome =>
    writeOut outcome.terminal written
    return outcome.exit
  | .working job =>
    writeOut job.live.terminal written
    let terminal := Terminal.ofInput job.live.terminal.stdin
    work read { job with live := { job.live with terminal := terminal } }

/-- The input that a command needs before it starts, which is all of it if it holds the program. -/
def initialInput (args : List String) : IO Stream := do
  match Arguments.parse args with
  | .ok a => if a.fromInput && !a.introduces then allInput else return ⟨[], none⟩
  | .error _ => return ⟨[], none⟩

def execute (args : List String) : IO UInt32 := do
  let read ← readerFor args
  let exit ← match start args read (.ofInput (← initialInput args)) with
    | .over outcome => do
      writeOut outcome.terminal 0
      pure outcome.exit
    | .working job => work read job
  match exit with
  | .status code => return code.toUInt32
  | .escaped cause =>
    (← IO.getStderr).putStr (cause.message ++ "\n")
    return 1

end Interpreter
end MatrixStack

def main (args : List String) : IO UInt32 := MatrixStack.Interpreter.execute args
