/-
The ends of commands.

A command takes one turn after the other, but what it comes to can be told program by program: it
comes to an outcome just when the program that it runs comes to an end, and what follows that end
comes to the outcome (`comesTo_working_iff`).

Nothing that a command does depends on the texts that have been written before.  With earlier texts
in front, every turn, every end and every outcome is the same with these texts in front
(`comesTo_after_iff`).  From its input, a run takes lines at the front only (`Finishes.isRest`).
-/
import MatrixStack.Interpreter.CommandLine
import MatrixStack.Proofs.Interpreter.Turns

namespace MatrixStack
namespace Interpreter

variable {read : FileReader} {job : Job} {o : Outcome}

/-- What a command goes on with when its program has come to an end. -/
def Job.afterRun (job : Job) (read : FileReader) (r : Result) : Progress :=
  match conclude job.arguments r with
  | some outcome => .over outcome
  | none => nextFile job.arguments job.numberType read r.terminal job.rest

/-- The command comes to this outcome. -/
def Progress.ComesTo (read : FileReader) : Progress → Outcome → Prop
  | .over outcome, o => outcome = o
  | .working job, o => ∃ turns, job.finish? read turns = some o

/-- The command line comes to this outcome. -/
def Comes (args : List String) (read : FileReader) (stdin : Stream) (o : Outcome) : Prop :=
  ∃ turns, command args read stdin turns = some o

theorem comes_iff {args : List String} {stdin : Stream} :
    Comes args read stdin o ↔ (start args read (.ofInput stdin)).ComesTo read o := by
  unfold Comes command
  cases start args read (.ofInput stdin) with
  | «over» outcome =>
    constructor
    · rintro ⟨turns, h⟩
      exact Option.some.inj h
    · rintro rfl
      exact ⟨0, rfl⟩
  | working job => exact Iff.rfl

theorem comesTo_over {outcome : Outcome} : (Progress.over outcome).ComesTo read o ↔ o = outcome :=
  eq_comm

/-! ## From turns to programs -/

theorem comesTo_next : (Progress.working job).ComesTo read o ↔ (job.next read).ComesTo read o := by
  constructor
  · rintro ⟨turns, h⟩
    cases turns with
    | zero => cases h
    | succ turns =>
      rw [Job.finish?] at h
      cases hnext : job.next read with
      | «over» outcome =>
        rw [hnext] at h
        exact Option.some.inj h
      | working job' =>
        rw [hnext] at h
        exact ⟨turns, h⟩
  · intro h
    cases hnext : job.next read with
    | «over» outcome =>
      rw [hnext] at h
      exact ⟨1, by rw [Job.finish?, hnext]; exact congrArg some h⟩
    | working job' =>
      rw [hnext] at h
      obtain ⟨turns, hturns⟩ := h
      exact ⟨turns + 1, by rw [Job.finish?, hnext]; exact hturns⟩

theorem next_of_goes {l : Live} (h : turn (settings job.arguments job.piped) job.live = .goes l) :
    job.next read = .working { job with live := l } := by
  rw [Job.next, h]

theorem next_of_ends {r : Result}
    (h : turn (settings job.arguments job.piped) job.live = .ends r) :
    job.next read = job.afterRun read r := by
  rw [Job.next, h]
  rfl

/-- A command at work comes to what follows the end of its program. -/
theorem comesTo_working_iff : (Progress.working job).ComesTo read o ↔
    ∃ r, Finishes (settings job.arguments job.piped) job.live r ∧
      (job.afterRun read r).ComesTo read o := by
  constructor
  · rintro ⟨turns, h⟩
    induction turns generalizing job with
    | zero => cases h
    | succ turns ih =>
      cases hturn : turn (settings job.arguments job.piped) job.live with
      | goes l =>
        rw [Job.finish?, next_of_goes hturn] at h
        obtain ⟨r, hr, hafter⟩ := ih h
        exact ⟨r, finishes_of_goes hturn hr, hafter⟩
      | ends r =>
        have hworking : (Progress.working job).ComesTo read o := ⟨turns + 1, h⟩
        rw [comesTo_next, next_of_ends hturn] at hworking
        exact ⟨r, finishes_of_ends hturn, hworking⟩
  · rintro ⟨r, ⟨turns, h⟩, hafter⟩
    induction turns generalizing job with
    | zero => cases h
    | succ turns ih =>
      rw [comesTo_next]
      cases hturn : turn (settings job.arguments job.piped) job.live with
      | goes l =>
        rw [finish?, hturn] at h
        rw [next_of_goes hturn]
        exact @ih { job with live := l } hafter h
      | ends r' =>
        rw [finish?, hturn] at h
        cases h
        rw [next_of_ends hturn]
        exact hafter

end Interpreter

/-! ## Earlier texts -/

namespace Terminal

/-- The terminal with the texts of an earlier one in front. -/
def after (t earlier : Terminal) : Terminal :=
  ⟨t.stdin, earlier.stdout ++ t.stdout, earlier.stderr ++ t.stderr⟩

variable (t earlier : Terminal)

/-- A terminal is one with the same input and no texts, behind its own texts. -/
theorem ofInput_after (t : Terminal) : (ofInput t.stdin).after t = t := by
  unfold after ofInput
  rw [String.append_empty, String.append_empty]

theorem print_after (s : String) : (t.after earlier).print s = (t.print s).after earlier := by
  unfold print after
  rw [String.append_assoc]

theorem printLine_after (s : String) :
    (t.after earlier).printLine s = (t.printLine s).after earlier := print_after t earlier _

theorem warnLine_after (s : String) :
    (t.after earlier).warnLine s = (t.warnLine s).after earlier := by
  unfold warnLine after
  rw [String.append_assoc, String.append_assoc, String.append_assoc]

theorem readLine_after :
    (t.after earlier).readLine = (t.readLine.1, t.readLine.2.after earlier) := rfl

end Terminal

namespace Interpreter

variable (earlier : Terminal)

def Live.after (l : Live) : Live := { l with terminal := l.terminal.after earlier }

def Result.after (r : Result) : Result := { r with terminal := r.terminal.after earlier }

def Turn.after : Turn → Turn
  | .goes l => .goes (l.after earlier)
  | .ends r => .ends (r.after earlier)

def Outcome.after (o : Outcome) : Outcome := { o with terminal := o.terminal.after earlier }

def Job.after (job : Job) : Job := { job with live := job.live.after earlier }

def Progress.after : Progress → Progress
  | .working job => .working (job.after earlier)
  | .over o => .over (o.after earlier)

theorem prompt_after (s : Settings) (t : Terminal) :
    prompt s (t.after earlier) = (prompt s t).after earlier := by
  unfold prompt
  split
  · rfl
  · exact t.print_after earlier _

theorem echo_after (t : Terminal) (text : String) (fault : LiteralFault) :
    echo (t.after earlier) text fault = (echo t text fault).after earlier := by
  unfold echo
  rw [Terminal.printLine_after, Terminal.printLine_after]

theorem reportCap_after (s : Settings) (steps : Nat) (t : Terminal) :
    reportCap s steps (t.after earlier) = (reportCap s steps t).after earlier := by
  unfold reportCap
  split
  · rfl
  · exact t.warnLine_after earlier _

theorem report_after (a : Arguments) (t : Terminal) (message : String) :
    report a (t.after earlier) message = (report a t message).after earlier := by
  unfold report
  split
  · rfl
  · rw [Terminal.warnLine_after]
    rfl

theorem lineTurn_after (s : Settings) (l : Live) :
    lineTurn s (l.after earlier) = (lineTurn s l).after earlier := by
  unfold lineTurn
  simp only [Live.after, prompt_after, Terminal.readLine_after]
  rcases (prompt s l.terminal).readLine with ⟨cause | line, t⟩
  · rfl
  · simp only
    split
    · rfl
    · split
      · rfl
      · cases Literal.read l.machine.numberType (Text.trim (String.ofList line)) with
        | ok v => rfl
        | error fault =>
          simp only [echo_after]
          rfl

theorem turn_after (s : Settings) (l : Live) :
    turn s (l.after earlier) = (turn s l).after earlier := by
  cases hs : l.machine.state with
  | stopped =>
    rw [turn_of_stopped hs, turn_of_stopped (l := l.after earlier) hs]
    rfl
  | running =>
    cases hcap : capReached s l.steps with
    | true =>
      rw [turn_of_capped hs hcap, turn_of_capped (l := l.after earlier) hs hcap]
      simp only [Live.after, reportCap_after]
      rfl
    | false =>
      rw [turn_of_step hs hcap, turn_of_step (l := l.after earlier) hs hcap]
      simp only [Live.after]
      rcases l.machine.step with ⟨fault | none | v, m⟩
      · rfl
      · rfl
      · simp only
        cases v.printed? with
        | none => rfl
        | some numeral =>
          simp only [Terminal.printLine_after]
          rfl
  | inputWaiting =>
    rw [turn_of_waiting hs, turn_of_waiting (l := l.after earlier) hs]
    exact lineTurn_after earlier s l

theorem conclude_after (a : Arguments) (r : Result) :
    conclude a (r.after earlier) = (conclude a r).map (Outcome.after earlier) := by
  unfold conclude Result.after
  simp only
  split
  case h_1 | h_2 => rfl
  case h_3 => rw [report_after]; rfl
  case h_4 | h_5 => rfl
  case h_6 => rw [report_after]; split <;> rfl

theorem loadFile_after (a : Arguments) (type : NumberType) (read : FileReader) (t : Terminal)
    (file : String) :
    loadFile a type read (t.after earlier) file =
      (loadFile a type read t file).mapError (Outcome.after earlier) := by
  unfold loadFile
  cases read (Path.ofString file) with
  | error e =>
    cases e with
    | nullByte => rfl
    | notFound | notDirectory | isDirectory | nameTooLong =>
      exact congrArg Except.error (report_after earlier a t _)
  | ok bytes =>
    simp only
    cases Program.textOfBytes file bytes with
    | error e => exact congrArg Except.error (report_after earlier a t _)
    | ok source =>
      simp only
      cases Program.load (.ofType type) type source with
      | error e => exact congrArg Except.error (report_after earlier a t _)
      | ok m => rfl

theorem beginProgram_after (job : Job) :
    beginProgram (job.after earlier) = (beginProgram job).after earlier := by
  unfold beginProgram Job.after
  simp only
  split <;> rfl

theorem nextFile_after (a : Arguments) (type : NumberType) (read : FileReader) (t : Terminal)
    (files : List String) :
    nextFile a type read (t.after earlier) files =
      (nextFile a type read t files).after earlier := by
  cases files with
  | nil => rfl
  | cons file rest =>
    rw [nextFile, nextFile, loadFile_after]
    cases loadFile a type read t file with
    | error outcome => rfl
    | ok m => exact beginProgram_after earlier ⟨a, type, false, ⟨0, m, t⟩, rest⟩

theorem next_after (read : FileReader) (job : Job) :
    (job.after earlier).next read = (job.next read).after earlier := by
  unfold Job.next
  simp only [Job.after]
  rw [turn_after]
  cases turn (settings job.arguments job.piped) job.live with
  | goes l => rfl
  | ends r =>
    simp only [Turn.after]
    rw [conclude_after]
    cases conclude job.arguments r with
    | some outcome => rfl
    | none => exact nextFile_after earlier job.arguments job.numberType read r.terminal job.rest

theorem finish?_after (read : FileReader) (job : Job) (turns : Nat) :
    (job.after earlier).finish? read turns =
      (job.finish? read turns).map (Outcome.after earlier) := by
  induction turns generalizing job with
  | zero => rfl
  | succ turns ih =>
    rw [Job.finish?, Job.finish?, next_after]
    cases job.next read with
    | «over» outcome => rfl
    | working job' => exact ih job'

/-- A command with earlier texts in front comes to its outcome with these texts in front. -/
theorem comesTo_after_iff {read : FileReader} {p : Progress} {o : Outcome} :
    (p.after earlier).ComesTo read o ↔ ∃ o', p.ComesTo read o' ∧ o = o'.after earlier := by
  cases p with
  | «over» outcome =>
    constructor
    · rintro rfl
      exact ⟨outcome, rfl, rfl⟩
    · rintro ⟨_, rfl, rfl⟩
      rfl
  | working job =>
    constructor
    · rintro ⟨turns, h⟩
      rw [finish?_after, Option.map_eq_some_iff] at h
      obtain ⟨o', ho', rfl⟩ := h
      exact ⟨o', ⟨turns, ho'⟩, rfl⟩
    · rintro ⟨o', ⟨turns, ho'⟩, rfl⟩
      exact ⟨turns, by rw [finish?_after, ho']; rfl⟩

end Interpreter

/-! ## The input that is left -/

/-- What is left of a stream when lines at its front have been read. -/
structure Stream.IsRest (rest s : Stream) : Prop where
  lines : rest.lines <:+ s.lines
  ending : rest.ending = s.ending

namespace Stream

variable {s s' s'' : Stream}

theorem IsRest.refl (s : Stream) : s.IsRest s := ⟨List.suffix_refl _, rfl⟩

theorem IsRest.trans (h : s''.IsRest s') (h' : s'.IsRest s) : s''.IsRest s :=
  ⟨h.lines.trans h'.lines, h.ending.trans h'.ending⟩

theorem read_isRest (s : Stream) : s.read.2.IsRest s := by
  rcases s with ⟨lines | ⟨line, rest⟩, ending⟩
  · cases ending <;> exact .refl _
  · exact ⟨List.suffix_cons line rest, rfl⟩

end Stream

namespace Interpreter

def Turn.terminal : Turn → Terminal
  | .goes l => l.terminal
  | .ends r => r.terminal

theorem stdin_prompt (s : Settings) (t : Terminal) : (prompt s t).stdin = t.stdin := by
  rw [prompt_eq]
  rfl

theorem lineTurn_isRest (s : Settings) (l : Live) :
    (lineTurn s l).terminal.stdin.IsRest l.terminal.stdin := by
  have hread : ((prompt s l.terminal).readLine).2.stdin.IsRest l.terminal.stdin := by
    have hrest := (prompt s l.terminal).stdin.read_isRest
    rw [stdin_prompt] at hrest
    rw [Terminal.readLine, stdin_prompt]
    exact hrest
  unfold lineTurn
  rcases hline : (prompt s l.terminal).readLine with ⟨cause | line, t⟩
  · rw [hline] at hread
    exact hread
  · rw [hline] at hread
    simp only
    split
    · exact hread
    · split
      · exact hread
      · cases Literal.read l.machine.numberType (Text.trim (String.ofList line)) <;> exact hread

theorem turn_isRest (s : Settings) (l : Live) :
    (turn s l).terminal.stdin.IsRest l.terminal.stdin := by
  cases hs : l.machine.state with
  | stopped =>
    rw [turn_of_stopped hs]
    exact .refl _
  | running =>
    cases hcap : capReached s l.steps with
    | true =>
      rw [turn_of_capped hs hcap, Turn.terminal, stdin_reportCap]
      exact .refl _
    | false =>
      rw [turn_of_step hs hcap]
      rcases l.machine.step with ⟨fault | none | v, m⟩
      · exact .refl _
      · exact .refl _
      · cases hnumeral : v.printed? <;> simp only [hnumeral] <;> exact .refl _
  | inputWaiting =>
    rw [turn_of_waiting hs]
    exact lineTurn_isRest s l

/-- A run takes lines at the front of its input only. -/
theorem Finishes.isRest {s : Settings} {l : Live} {r : Result} (h : Finishes s l r) :
    r.terminal.stdin.IsRest l.terminal.stdin := by
  obtain ⟨turns, h⟩ := h
  induction turns generalizing l with
  | zero => cases h
  | succ turns ih =>
    have hturn := turn_isRest s l
    rw [finish?] at h
    cases hresult : turn s l with
    | ends r' =>
      rw [hresult] at h hturn
      cases h
      exact hturn
    | goes l' =>
      rw [hresult] at h hturn
      exact (ih h).trans hturn

/-- A command that fails with this outcome at a terminal has not read on. -/
structure Outcome.FailsAt (o : Outcome) (t : Terminal) : Prop where
  exit : o.exit ≠ .status 0
  stdin : o.terminal.stdin = t.stdin

theorem report_failsAt (a : Arguments) (t : Terminal) (message : String) :
    (report a t message).FailsAt t := by
  refine ⟨nofun, ?_⟩
  unfold report
  split <;> rfl

theorem escaped_failsAt (e : Escape) (t : Terminal) : Outcome.FailsAt ⟨.escaped e, t⟩ t :=
  ⟨nofun, rfl⟩

theorem conclude_failsAt {a : Arguments} {r : Result} {o : Outcome} (h : conclude a r = some o) :
    o.FailsAt r.terminal := by
  rcases r with ⟨ending, m, t⟩
  cases ending with
  | stopped | capped => cases h
  | unanswered cause =>
    cases h
    exact report_failsAt a t _
  | undecodable cause | unprintable =>
    cases h
    exact escaped_failsAt _ t
  | fault cause =>
    cases h
    split
    · exact report_failsAt a t _
    · exact escaped_failsAt _ t

theorem loadFile_failsAt {a : Arguments} {type : NumberType} {read : FileReader} {t : Terminal}
    {file : String} {o : Outcome} (h : loadFile a type read t file = .error o) : o.FailsAt t := by
  unfold loadFile at h
  cases hread : read (Path.ofString file) with
  | error e =>
    rw [hread] at h
    cases e with
    | nullByte =>
      cases h
      exact escaped_failsAt _ t
    | notFound | notDirectory | isDirectory | nameTooLong =>
      cases h
      exact report_failsAt a t _
  | ok bytes =>
    simp only [hread] at h
    cases htext : Program.textOfBytes file bytes with
    | error e =>
      simp only [htext] at h
      cases h
      exact report_failsAt a t _
    | ok source =>
      simp only [htext] at h
      cases hload : Program.load (.ofType type) type source with
      | error e =>
        simp only [hload] at h
        cases h
        exact report_failsAt a t _
      | ok m =>
        simp only [hload] at h
        cases h

end Interpreter
end MatrixStack
