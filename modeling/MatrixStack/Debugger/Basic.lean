/-
The debugger: a session with panels, an input box and actions that step it in batches.

Every action ends with a refresh, which appends the lines not yet seen to the output panel.  Runs
go on in the background, and one to the end also refreshes at regular intervals.  A fault of the
machine that an action meets is added to the printed lines and ends the action; any other fault, and
a number too long to be printed, ends the debugger.
-/
import MatrixStack.Debugger.Panel
import MatrixStack.Session

namespace MatrixStack

structure Debugger where
  session : Session
  /-- The lines that the output panel has received. -/
  log : List String
  inputValue : String
  deriving DecidableEq

namespace Debugger

inductive Action where
  | step | step10 | step100
  | run
  | runToPrint
  | submit (text : String)
  deriving DecidableEq

/-- Runs go on in the background; every other action is over at once. -/
def Action.inBackground : Action → Bool
  | .run | .runToPrint => true
  | .step | .step10 | .step100 | .submit _ => false

/-- What ends the debugger: a number that is too long, a fault that nobody reports, or a run that
does not end. -/
inductive Crash where
  | unprintable
  | fault (cause : Fault)
  | endless
  deriving DecidableEq

def refresh (d : Debugger) : Debugger :=
  { d with log := d.log ++ d.session.output.drop d.log.length }

def start (session : Session) : Debugger := refresh ⟨session, [], ""⟩

def report (d : Debugger) (message : String) : Debugger :=
  refresh { d with
    session := { d.session with output := d.session.output ++ ["[ERROR] " ++ message] } }

/-- Ask the session for one step. -/
def tick (d : Debugger) : Except TickError Bool × Debugger :=
  let (answer, session) := d.session.tick
  (answer, { d with session := session })

/-- What becomes of an action that a step error ends. -/
def fail (d : Debugger) : TickError → Except Crash Debugger
  | .fault cause => if cause.ofMachine then .ok (d.report cause.message) else .error (.fault cause)
  | .unprintable => .error .unprintable

/-- At most a number of steps, as long as the program can go on. -/
def steps (d : Debugger) : Nat → Except Crash Debugger
  | 0 => .ok d.refresh
  | n + 1 =>
    match d.tick with
    | (.error e, d) => d.fail e
    | (.ok false, d) => .ok d.refresh
    | (.ok true, d) => steps d n

/-- No number in the panels is too long to be printed. -/
def showable (d : Debugger) : Bool :=
  match d.session.machine with
  | some m => (Panel.stateText? m).isSome && (Panel.stacksText? m).isSome
  | none => false

/-- The number of steps after which a run refreshes the panels. -/
def refreshInterval : Nat := 500

/-- Steps until the program cannot go on, after `taken` steps of the same run. -/
def runWithin (d : Debugger) (taken : Nat) : Nat → Except Crash Debugger
  | 0 => .error .endless
  | n + 1 =>
    match d.tick with
    | (.error e, d) => d.fail e
    | (.ok false, d) => .ok d.refresh
    | (.ok true, d) =>
      if (taken + 1) % refreshInterval = 0 && !d.showable then .error .unprintable
      else runWithin d (taken + 1) n

/-- Steps until there are more printed lines than before, or the program cannot go on. -/
def runToPrintWithin (d : Debugger) (printed : Nat) : Nat → Except Crash Debugger
  | 0 => .error .endless
  | n + 1 =>
    match d.tick with
    | (.error e, d) => d.fail e
    | (.ok false, d) => .ok d.refresh
    | (.ok true, d) =>
      if printed < d.session.output.length then .ok d.refresh
      else runToPrintWithin d printed n

/-- Submit the text of the input box, which stays there if it is no literal. -/
def submit (d : Debugger) (text : String) : Debugger :=
  match d.session.provide text with
  | .error fault => report { d with inputValue := text } fault.message
  | .ok s => refresh { d with session := s, inputValue := "" }

/-- What an action does, where runs have a number of turns to end in. -/
def carryOut (d : Debugger) (turns : Nat) : Action → Except Crash Debugger
  | .step => d.steps 1
  | .step10 => d.steps 10
  | .step100 => d.steps 100
  | .run => d.runWithin 0 turns
  | .runToPrint => d.runToPrintWithin d.session.output.length turns
  | .submit text => .ok (d.submit text)

/-- Carry out an action, and show the panels that its last refresh left. -/
def act (d : Debugger) (turns : Nat) (a : Action) : Except Crash Debugger :=
  match d.carryOut turns a with
  | .error crash => .error crash
  | .ok after => if after.showable then .ok after else .error .unprintable

/-- The input box is open while the machine waits for a number. -/
def inputEnabled (d : Debugger) : Bool :=
  match d.session.machine with
  | some m => m.state = .inputWaiting
  | none => false

/-- What the panels show. -/
structure View where
  grid : String
  spans : List Panel.Span
  state : String
  stackList : String
  output : List String
  logged : Nat
  inputEnabled : Bool
  inputValue : String
  deriving DecidableEq

def view? (d : Debugger) : Option View := do
  let m ← d.session.machine
  let state ← Panel.stateText? m
  let stackList ← Panel.stacksText? m
  return {
    grid := Panel.gridText m
    spans := Panel.gridSpans m
    state := state
    stackList := stackList
    output := d.session.output
    logged := d.log.length
    inputEnabled := d.inputEnabled
    inputValue := d.inputValue }

end Debugger
end MatrixStack
