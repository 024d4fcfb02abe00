/-
Runs: stepping a machine until it stops, waits in vain, or has used up its steps.

A run takes the numbers that answer its requests from a list.  `Machine.run` executes at most a
given number of steps, so it always ends; `Machine.runToEnd?` has no cap and answers only where
the run ends by itself within a bound.
-/
import MatrixStack.Machine.Basic

namespace MatrixStack

/-- The result of a run: the printed numbers in order, the machine, the numbers left over, and the
fault that ended the run if one did. -/
structure Run where
  outputs : List Number
  machine : Machine
  rest : List Number
  fault : Option Fault
  deriving DecidableEq

namespace Machine

/-- Answer a request from the list, if there is a request and an answer. -/
def answer (m : Machine) (pending : List Number) : Machine × List Number :=
  if m.state = .inputWaiting then
    match pending with
    | [] => (m, [])
    | v :: rest => (m.input v, rest)
  else (m, pending)

/-- `run` with the numbers printed so far, latest first. -/
def runFrom (printed : List Number) (m : Machine) (pending : List Number) : Nat → Run
  | 0 =>
    let (m, rest) := m.answer pending
    ⟨printed.reverse, m, rest, none⟩
  | n + 1 =>
    let (m, rest) := m.answer pending
    if m.state = .running then
      match m.step with
      | (.ok none, m) => runFrom printed m rest n
      | (.ok (some v), m) => runFrom (v :: printed) m rest n
      | (.error fault, m) => ⟨printed.reverse, m, rest, some fault⟩
    else ⟨printed.reverse, m, rest, none⟩

/-- Step the machine at most `cap` times, answering requests from the list. -/
def run (m : Machine) (pending : List Number) (cap : Nat) : Run := m.runFrom [] pending cap

/-- The run is over although more steps were allowed. -/
def ended (r : Run) : Bool := r.fault.isSome || r.machine.state ≠ .running

/-- The uncapped run, if it ends within `bound` steps. -/
def runToEnd? (bound : Nat) (m : Machine) (pending : List Number) : Option Run :=
  let r := m.run pending bound
  if ended r then some r else none

theorem runFrom_eq (printed : List Number) (m : Machine) (pending : List Number) (n : Nat) :
    m.runFrom printed pending n =
      { m.run pending n with outputs := printed.reverse ++ (m.run pending n).outputs } := by
  unfold run
  induction n generalizing printed m pending with
  | zero => simp [runFrom]
  | succ n ih =>
    simp only [runFrom]
    split
    · split
      · exact ih _ _ _
      · rename_i v m' _
        rw [ih (v :: printed), ih [v]]
        simp
      · simp
    · simp

end Machine
end MatrixStack
