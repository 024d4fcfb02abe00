/-
Running a machine at a terminal.

A run goes in turns.  A running machine takes one step, and a number that it prints goes to the
output on a line of its own.  For a waiting machine one line is read: a literal answers it, and
any other line is echoed with its fault.  A program that was itself read from the input has
nothing to answer with, so an empty line ends its run.

`finish?` takes turns until the run ends; by `finish?_unique` the end does not depend on how many
turns were allowed.
-/
import MatrixStack.Machine.Run
import MatrixStack.Number.Literal
import MatrixStack.Terminal.Basic

namespace MatrixStack
namespace Interpreter

structure Settings where
  /-- The program itself was read from the input. -/
  piped : Bool
  /-- Neither prompts nor reports are written. -/
  suppress : Bool
  maxSteps : Option Int
  deriving DecidableEq

/-- Why a request for a number cannot be answered. -/
inductive RequestError where
  | pipedProgram | closedStream
  deriving DecidableEq

def RequestError.message : RequestError → String
  | .pipedProgram =>
    "Inputs cannot be used when the program is piped into the interpreter!\n" ++
      "Run the program by passing the file path as an argument."
  | .closedStream => "Input requested but the input stream is closed."

/-- How a run at a terminal ends. -/
inductive Ending where
  | stopped
  | capped
  | unanswered (cause : RequestError)
  | undecodable (cause : Utf8.Fault)
  | unprintable
  | fault (cause : Fault)
  deriving DecidableEq

structure Result where
  ending : Ending
  machine : Machine
  terminal : Terminal
  deriving DecidableEq

def prompt (s : Settings) (t : Terminal) : Terminal := if s.suppress then t else t.print "> "

/-- The echo of a line that is no literal. -/
def echo (t : Terminal) (text : String) (fault : LiteralFault) : Terminal :=
  (t.printLine (Text.quote text)).printLine fault.message

/-- A run in progress: the steps that it has asked of its machine, the machine, and the terminal. -/
structure Live where
  steps : Nat
  machine : Machine
  terminal : Terminal
  deriving DecidableEq

/-- What a turn of a run leads to. -/
inductive Turn where
  | goes (live : Live)
  | ends (result : Result)
  deriving DecidableEq

def capReached (s : Settings) (steps : Nat) : Bool :=
  match s.maxSteps with
  | none => false
  | some cap => cap ≤ steps

def reportCap (s : Settings) (steps : Nat) (t : Terminal) : Terminal :=
  if s.suppress then t
  else t.warnLine ("Stopped after " ++ steps.repr ++ " steps (--max-steps).")

/-- One step of a running machine, and its printed number. -/
def stepTurn (s : Settings) (l : Live) : Turn :=
  if capReached s l.steps then .ends ⟨.capped, l.machine, reportCap s l.steps l.terminal⟩
  else
    match l.machine.step with
    | (.error fault, m) => .ends ⟨.fault fault, m, l.terminal⟩
    | (.ok none, m) => .goes ⟨l.steps + 1, m, l.terminal⟩
    | (.ok (some v), m) =>
      match v.printed? with
      | none => .ends ⟨.unprintable, m, l.terminal⟩
      | some numeral => .goes ⟨l.steps + 1, m, l.terminal.printLine numeral⟩

/-- One line for a waiting machine: it answers the request, or is echoed, or ends the run. -/
def lineTurn (s : Settings) (l : Live) : Turn :=
  let m := l.machine
  let (line, t) := (prompt s l.terminal).readLine
  match line with
  | .error cause => .ends ⟨.undecodable cause, m, t⟩
  | .ok line =>
    let text := Text.trim (String.ofList line)
    if text.isEmpty && s.piped then .ends ⟨.unanswered .pipedProgram, m, t⟩
    else if line.isEmpty then .ends ⟨.unanswered .closedStream, m, t⟩
    else
      match Literal.read m.numberType text with
      | .ok v => .goes { l with machine := m.input v, terminal := t }
      | .error fault => .goes { l with terminal := echo t text fault }

def turn (s : Settings) (l : Live) : Turn :=
  match l.machine.state with
  | .stopped => .ends ⟨.stopped, l.machine, l.terminal⟩
  | .running => stepTurn s l
  | .inputWaiting => lineTurn s l

/-- The end of a run in progress, if it comes within a number of turns. -/
def finish? (s : Settings) (l : Live) : Nat → Option Result
  | 0 => none
  | n + 1 =>
    match turn s l with
    | .ends r => some r
    | .goes l => finish? s l n

/-- The run of a machine at a terminal, if it ends within a number of turns. -/
def run? (s : Settings) (m : Machine) (t : Terminal) (turns : Nat) : Option Result :=
  finish? s ⟨0, m, t⟩ turns

/-- A run that has ended within some turns ends the same way within more. -/
theorem finish?_add {s : Settings} {l : Live} {n : Nat} {r : Result}
    (h : finish? s l n = some r) (k : Nat) : finish? s l (n + k) = some r := by
  induction n generalizing l with
  | zero => cases h
  | succ n ih =>
    rw [Nat.succ_add]
    rw [finish?] at h ⊢
    cases ht : turn s l with
    | ends r' => simpa only [ht] using h
    | goes l' =>
      simp only [ht] at h ⊢
      exact ih h

/-- The end of a run does not depend on the number of turns that it was given. -/
theorem finish?_unique {s : Settings} {l : Live} {n k : Nat} {r r' : Result}
    (h : finish? s l n = some r) (h' : finish? s l k = some r') : r = r' := by
  have hn := finish?_add h k
  have hk := finish?_add h' n
  rw [Nat.add_comm] at hk
  exact Option.some.inj (hn.symm.trans hk)

end Interpreter
end MatrixStack
