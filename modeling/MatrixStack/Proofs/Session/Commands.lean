/-
Commands to a session, assignment by assignment.

A session is changed by four commands.  As a procedure, a command reads the session and assigns its
fields one after another, and a failure leaves whatever has been assigned by then.  `perform_eq`
says that this comes to what the functions of a session say at once: a load assigns its first field
only when nothing can fail any more, and an input is read before the machine is touched, so that
neither leaves a trace when it fails (`perform_of_error`).
-/
import MatrixStack.Proofs.Program.Outcome
import MatrixStack.Session

namespace MatrixStack
namespace Session

/-- What a session is told to do. -/
inductive Command where
  | loadText (source name : String)
  | loadFile (tree : FileTree) (file : String)
  | tick
  | provide (text : String)

/-- Why a command fails. -/
inductive Failure where
  | opening (cause : OpenError)
  | tick (cause : TickError)
  | literal (cause : LiteralFault)
  deriving DecidableEq

/-- A change that is made at once, or a failure that makes none. -/
def settle {ε : Type} (failure : ε → Failure) (s : Session) :
    Except ε Session → Except Failure (Option Bool) × Session
  | .error e => (.error (failure e), s)
  | .ok s' => (.ok none, s')

/-- What a command gives back, if it is a step, or why it has failed, and the session afterwards. -/
def perform (s : Session) : Command → Except Failure (Option Bool) × Session
  | .loadText source name => settle (.opening ∘ .load) s (s.loadText source name)
  | .loadFile tree file => settle .opening s (s.loadFile tree file)
  | .tick => (s.tick.1.map some |>.mapError .tick, s.tick.2)
  | .provide text => settle .literal s (s.provide text)

/-- The session after a sequence of commands, whether they fail or not. -/
def afterAll (s : Session) (cs : List Command) : Session := cs.foldl (fun s c => (s.perform c).2) s

/-! ## Procedures -/

/-- Changes to the fields of a session, one after another; a failure undoes none of them. -/
abbrev Procedure := EStateM Failure Session

namespace Procedure

/-- The result of a reading, or the failure of the whole procedure. -/
def attempt {ε α : Type} (failure : ε → Failure) : Except ε α → Procedure α
  | .ok a => pure a
  | .error e => throw (failure e)

def updatePhase : Procedure Unit :=
  modify fun s =>
    match s.machine with
    | none => s
    | some m => { s with phase := Phase.ofState m.state }

def loadText (source name : String) : Procedure Unit := do
  let type := (← get).numberType
  let m ← attempt (.opening ∘ .load) (Program.load (.ofType type) type source)
  modify fun s => { s with machine := some m }
  modify fun s => { s with source := Text.lines source }
  modify fun s => { s with name := name }
  modify fun s => { s with output := [] }
  modify fun s => { s with phase := .running }

def loadFile (tree : FileTree) (file : String) : Procedure Unit := do
  let path := Path.ofString file
  let bytes ← attempt (.opening ∘ .file) (tree.read path)
  let source ← attempt (.opening ∘ .load) (Program.textOfBytes path.text bytes)
  loadText source path.text

/-- Add a printed number to the output, unless it is too long to be shown. -/
def print (v : Number) : Procedure Unit :=
  match v.printed? with
  | none => throw (.tick .unprintable)
  | some numeral => modify fun s => { s with output := s.output ++ [numeral] }

/-- Assign the phase, and answer by it whether the program can go on. -/
def answerByPhase : Procedure Bool := do
  updatePhase
  return (← get).phase = .running

def tick : Procedure Bool := do
  match (← get).machine with
  | none => return false
  | some m =>
    let (answer, after) := m.step
    modify fun s => { s with machine := some after }
    let printed ← attempt (.tick ∘ .fault) answer
    if let some v := printed then print v
    answerByPhase

def provide (text : String) : Procedure Unit := do
  match (← get).machine with
  | none => return
  | some m =>
    if m.state = .inputWaiting then
      let v ← attempt .literal (Literal.read (← get).numberType (Text.trim text))
      modify fun s => { s with machine := some (m.input v) }
      updatePhase

/-- A procedure that gives nothing back. -/
def silent (p : Procedure Unit) : Procedure (Option Bool) := do
  p
  return none

end Procedure

def Command.procedure : Command → Procedure (Option Bool)
  | .loadText source name => (Procedure.loadText source name).silent
  | .loadFile tree file => (Procedure.loadFile tree file).silent
  | .tick => do return some (← Procedure.tick)
  | .provide text => (Procedure.provide text).silent

/-- The end of a procedure with the session that it leaves. -/
def outcome {α : Type} : EStateM.Result Failure Session α → Except Failure α × Session
  | .ok a s => (.ok a, s)
  | .error e s => (.error e, s)

/-! ## Procedures at once -/

namespace Procedure

variable {s : Session}

/-- The result of a procedure that either changes the session at once or fails without a trace. -/
def ofExcept {ε : Type} (failure : ε → Failure) (s : Session) :
    Except ε Session → EStateM.Result Failure Session Unit
  | .ok s' => .ok () s'
  | .error e => .error (failure e) s

theorem run_attempt_ok {ε α : Type} (failure : ε → Failure) (a : α) :
    (attempt failure (.ok a)).run s = .ok a s := rfl

theorem run_loadText (s : Session) (source name : String) :
    (loadText source name).run s =
      ofExcept (.opening ∘ .load) s (s.loadText source name) := by
  rw [loadText, Session.loadText, EStateM.run_bind, EStateM.run_get]
  simp only [EStateM.run_bind]
  cases Program.load (.ofType s.numberType) s.numberType source with
  | error e => rfl
  | ok m => rfl

theorem run_loadFile (s : Session) (tree : FileTree) (file : String) :
    (loadFile tree file).run s = ofExcept .opening s (s.loadFile tree file) := by
  rw [loadFile, Session.loadFile, EStateM.run_bind]
  cases tree.read (Path.ofString file) with
  | error e => rfl
  | ok bytes =>
    rw [run_attempt_ok, Except.mapError, Outcome.ok_bind]
    dsimp only
    rw [EStateM.run_bind]
    cases Program.textOfBytes (Path.ofString file).text bytes with
    | error e => rfl
    | ok source =>
      rw [run_attempt_ok, Except.mapError, Outcome.ok_bind]
      dsimp only
      rw [run_loadText]
      cases s.loadText source (Path.ofString file).text <;> rfl

theorem run_answerByPhase {m : Machine} (h : s.machine = some m) :
    answerByPhase.run s =
      .ok (m.state = .running) { s with phase := Phase.ofState m.state } := by
  have hanswer : decide (Phase.ofState m.state = .running) = decide (m.state = .running) := by
    cases m.state <;> rfl
  rw [answerByPhase, EStateM.run_bind, updatePhase, EStateM.run_modify, h, ← hanswer]
  rfl

/-- A step assigns the phase after the output, and answers by the phase. -/
theorem run_tick (s : Session) :
    tick.run s =
      match s.tick with
      | (.ok b, s') => .ok b s'
      | (.error e, s') => .error (.tick e) s' := by
  rcases s with ⟨type, _ | m, source, name, output, phase⟩
  · rfl
  · unfold Session.tick
    rw [tick, EStateM.run_bind, EStateM.run_get]
    dsimp only
    rcases m.step with ⟨fault | none | v, after⟩
    · rfl
    · rw [EStateM.run_bind, EStateM.run_modify]
      dsimp only
      rw [EStateM.run_bind, run_attempt_ok]
      dsimp only
      rw [run_answerByPhase rfl]
      rfl
    · rw [EStateM.run_bind, EStateM.run_modify]
      dsimp only
      rw [EStateM.run_bind, run_attempt_ok]
      dsimp only [print]
      cases v.printed? with
      | none => rfl
      | some numeral =>
        dsimp only
        rw [EStateM.run_bind, EStateM.run_modify]
        dsimp only
        rw [run_answerByPhase rfl]
        rfl

theorem run_provide (s : Session) (text : String) :
    (provide text).run s = ofExcept .literal s (s.provide text) := by
  rcases s with ⟨type, _ | m, source, name, output, phase⟩
  · rfl
  · unfold Session.provide
    rw [provide, EStateM.run_bind, EStateM.run_get]
    dsimp only
    by_cases hs : m.state = .inputWaiting
    · rw [if_pos hs, if_pos hs, EStateM.run_bind, EStateM.run_get]
      dsimp only
      cases Literal.read type (Text.trim text) with
      | error fault => rfl
      | ok v => rfl
    · rw [if_neg hs, if_neg hs]
      rfl

end Procedure

theorem outcome_silent {ε : Type} {p : Procedure Unit} {failure : ε → Failure} {s : Session}
    {x : Except ε Session} (h : p.run s = Procedure.ofExcept failure s x) :
    outcome (p.silent.run s) = settle failure s x := by
  rw [Procedure.silent, EStateM.run_bind, h]
  cases x <;> rfl

/-- A command as a procedure comes to what the session makes of it at once. -/
theorem perform_eq (s : Session) (c : Command) : s.perform c = outcome (c.procedure.run s) := by
  cases c with
  | loadText source name =>
    rw [perform, Command.procedure, outcome_silent (Procedure.run_loadText s source name)]
  | loadFile tree file =>
    rw [perform, Command.procedure, outcome_silent (Procedure.run_loadFile s tree file)]
  | tick =>
    rw [Command.procedure, EStateM.run_bind, Procedure.run_tick, perform]
    rcases s.tick with ⟨e | b, s'⟩ <;> rfl
  | provide text =>
    rw [perform, Command.procedure, outcome_silent (Procedure.run_provide s text)]

/-- A load or an input that fails leaves the whole session as it was, and the machine goes on
waiting for the input; only a step can fail after something has been assigned. -/
theorem perform_of_error {s : Session} {c : Command} {e : Failure} (hc : c ≠ .tick)
    (h : (s.perform c).1 = .error e) :
    (s.perform c).2 = s ∧
      ∀ text, c = .provide text → ∃ m, s.machine = some m ∧ m.state = .inputWaiting := by
  have hsettle {ε : Type} {failure : ε → Failure} {x : Except ε Session}
      (hx : (settle failure s x).1 = .error e) : (settle failure s x).2 = s := by
    cases x with
    | error e' => rfl
    | ok s' => cases hx
  cases c with
  | tick => exact absurd rfl hc
  | loadText | loadFile =>
    rw [perform] at h ⊢
    exact ⟨hsettle h, nofun⟩
  | provide text =>
    rw [perform] at h ⊢
    refine ⟨hsettle h, fun _ _ => ?_⟩
    rcases s with ⟨type, _ | m, source, name, output, phase⟩
    · cases h
    · by_cases hs : m.state = .inputWaiting
      · exact ⟨m, rfl, hs⟩
      · rw [Session.provide] at h
        dsimp only at h
        rw [if_neg hs] at h
        cases h

end Session
end MatrixStack
