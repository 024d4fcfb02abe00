/-
A session: one program, its machine, and everything that it has printed.

A load or an input that fails leaves the session as it was.  A step that fails, or that prints a
number too long to be shown, has been taken by the machine, and nothing else changes.
-/
import MatrixStack.Files.Tree
import MatrixStack.Number.Literal
import MatrixStack.Program.Reading

namespace MatrixStack

inductive Phase where
  | idle | running | input | done
  deriving DecidableEq

namespace Phase

def name : Phase → String
  | .idle => "idle"
  | .running => "running"
  | .input => "input"
  | .done => "done"

def ofState : State → Phase
  | .running => .running
  | .inputWaiting => .input
  | .stopped => .done

end Phase

structure Session where
  numberType : NumberType
  machine : Option Machine
  source : List String
  name : String
  output : List String
  phase : Phase
  deriving DecidableEq

/-- Why a file gives a session no program. -/
inductive OpenError where
  | file (cause : FileError)
  | load (cause : LoadError)
  deriving DecidableEq

/-- Why a step is not completed. -/
inductive TickError where
  | fault (cause : Fault)
  | unprintable
  deriving DecidableEq

def TickError.message : TickError → String
  | .fault cause => cause.message
  | .unprintable => Decimal.unprintableMessage

namespace Session

def start (type : NumberType) : Session := ⟨type, none, [], "<none>", [], .idle⟩

/-- The name of a program that was not given one. -/
def unnamed : String := "<string>"

/-- Put a program in place of the one before. -/
def loadText (s : Session) (source name : String) : Except LoadError Session := do
  let m ← Program.load (.ofType s.numberType) s.numberType source
  return { s with
    machine := some m
    source := Text.lines source
    name := name
    output := []
    phase := .running }

def loadFile (s : Session) (tree : FileTree) (file : String) : Except OpenError Session := do
  let path := Path.ofString file
  let bytes ← (tree.read path).mapError .file
  let source ← (Program.textOfBytes path.text bytes).mapError .load
  (s.loadText source path.text).mapError .load

/-- The session with a changed machine, and the phase that belongs to it. -/
def withMachine (s : Session) (m : Machine) : Session :=
  { s with machine := some m, phase := Phase.ofState m.state }

/-- One step: whether the machine can go on, or the error, and the session afterwards. -/
def tick (s : Session) : Except TickError Bool × Session :=
  match s.machine with
  | none => (.ok false, s)
  | some m =>
    match m.step with
    | (.error fault, m) => (.error (.fault fault), { s with machine := some m })
    | (.ok none, m) => (.ok (m.state = .running), s.withMachine m)
    | (.ok (some v), m) =>
      match v.printed? with
      | none => (.error .unprintable, { s with machine := some m })
      | some numeral =>
        (.ok (m.state = .running),
          { s.withMachine m with output := s.output ++ [numeral] })

/-- A number of steps and what each answered; an error ends them. -/
def ticks (s : Session) : Nat → Except TickError (List Bool) × Session
  | 0 => (.ok [], s)
  | n + 1 =>
    match s.tick with
    | (.error e, s) => (.error e, s)
    | (.ok b, s) =>
      match ticks s n with
      | (.error e, s) => (.error e, s)
      | (.ok bs, s) => (.ok (b :: bs), s)

/-- Answer the machine's request; without one the text is not even read. -/
def provide (s : Session) (text : String) : Except LiteralFault Session :=
  match s.machine with
  | none => .ok s
  | some m =>
    if m.state = .inputWaiting then
      (Literal.read s.numberType (Text.trim text)).map fun v => s.withMachine (m.input v)
    else .ok s

end Session
end MatrixStack
