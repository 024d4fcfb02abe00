/-
How a command can end.

`Turned` lists what a turn of a run can be when its machine is well formed, and `Concludes` what a
whole command can come to: success, one report with status 1, or a failure that nobody reports.
Whatever ends a command says what it met: `Complaint.Arises` and `Escape.Arises` name the part of the
arguments, files or input that is to blame.  So a command whose options have their values, whose paths
are possible, whose numbers are of a fixed width and whose input can be decoded always ends with
status 0 or 1 (`command_reports_or_escapes`).
-/
import MatrixStack.Interpreter.CommandLine
import MatrixStack.Proofs.Interpreter.Turns
import MatrixStack.Proofs.Program.Faultless
import MatrixStack.Proofs.Program.Readings
import MatrixStack.Proofs.Program.Rejections
import MatrixStack.Proofs.Text.Decimal

namespace MatrixStack

/-! ## Programs from bytes -/

namespace Program

variable {t : NumberType} {chunks : List (List UInt8)} {m : Machine} {e : LoadError}

theorem ofText_of_textOfBytes {file : String} {bytes : List UInt8}
    (h : textOfBytes file bytes = .error e) :
    e.ofText = true := by
  cases hfault : (Utf8.decode bytes).fault with
  | none =>
    rw [textOfBytes_of_valid hfault] at h
    cases h
  | some f =>
    simp only [textOfBytes, hfault] at h
    cases h
    rfl

/-- What a stream that cannot be decoded is refused for. -/
theorem ofText_of_ofStream_undecodable {name : String} {f : Utf8.Fault}
    (hf : (Stream.ofChunks chunks).ending = some f)
    {r : Except LoadError Machine} (h : ofStream (.ofType t) t name (Stream.ofChunks chunks) = r) :
    ∃ e, r = .error e ∧ e.ofText = true := by
  subst h
  rw [ofStream]
  cases hread : Layout.read (.ofType t) ((Stream.ofChunks chunks).lines.map Text.dropLineEnd) with
  | ok layout =>
    simp only [hf]
    exact ⟨_, rfl, rfl⟩
  | error e =>
    have hlines : ∀ line ∈ (Stream.ofChunks chunks).lines.map Text.dropLineEnd, '\n' ∉ line := by
      intro line hline
      obtain ⟨whole, hwhole, rfl⟩ := List.mem_map.mp hline
      obtain ⟨text, htext⟩ := Stream.exists_text_of_mem_ofChunks hwhole
      exact Text.not_mem_dropLineEnd_of_mem_keepNewlines htext
    obtain ⟨_, _, -, h⟩ := ((Layout.read_eq_error_iff hlines).mp hread).exists
    exact ⟨e, rfl, h.ofText⟩

theorem ofText_of_ofStream {name : String}
    (h : ofStream (.ofType t) t name (Stream.ofChunks chunks) = .error e) : e.ofText = true := by
  cases hf : (Stream.ofChunks chunks).ending with
  | none =>
    rw [ofStream_ofChunks (Stream.ending_ofChunks_eq_none_iff.mp hf)] at h
    exact ofText_of_load h
  | some f =>
    obtain ⟨e', he, htext⟩ := ofText_of_ofStream_undecodable hf h
    cases he
    exact htext

theorem loaded_of_ofStream {name : String}
    (h : ofStream (.ofType t) t name (Stream.ofChunks chunks) = .ok m) : Loaded (.ofType t) t m := by
  cases hf : (Stream.ofChunks chunks).ending with
  | none =>
    rw [ofStream_ofChunks (Stream.ending_ofChunks_eq_none_iff.mp hf)] at h
    exact .grown _ h
  | some f =>
    obtain ⟨e', he, -⟩ := ofText_of_ofStream_undecodable hf h
    cases he

end Program

namespace Interpreter

variable {s : Settings} {t : NumberType} {l : Live}

/-! ## One turn -/

/-- What a turn of a run can be whose machine has numbers of one type. -/
inductive Turned (s : Settings) (t : NumberType) (l : Live) : Turn → Prop where
  | goes {l' : Live} (machine : l'.machine.WellFormed t)
    (ending : l'.terminal.stdin.ending = l.terminal.stdin.ending)
    (lines : ∀ line ∈ l'.terminal.stdin.lines, line ∈ l.terminal.stdin.lines)
    (stderr : l'.terminal.stderr = l.terminal.stderr) : Turned s t l (.goes l')
  | stopped : Turned s t l (.ends ⟨.stopped, l.machine, l.terminal⟩)
  | capped (cap : Int) (hcap : s.maxSteps = some cap) (h : cap ≤ l.steps) :
    Turned s t l (.ends ⟨.capped, l.machine, reportCap s l.steps l.terminal⟩)
  | piped {term : Terminal} (h : s.piped = true) (stderr : term.stderr = l.terminal.stderr) :
    Turned s t l (.ends ⟨.unanswered .pipedProgram, l.machine, term⟩)
  | closed {term : Terminal} (h : s.piped = false)
    (input : [] ∈ l.terminal.stdin.lines ∨ l.terminal.stdin.ending = none)
    (stderr : term.stderr = l.terminal.stderr) :
    Turned s t l (.ends ⟨.unanswered .closedStream, l.machine, term⟩)
  | undecodable {term : Terminal} (f : Utf8.Fault) (h : l.terminal.stdin.ending = some f)
    (stderr : term.stderr = l.terminal.stderr) :
    Turned s t l (.ends ⟨.undecodable f, l.machine, term⟩)
  | unprintable {m : Machine} (h : t = .unbounded) :
    Turned s t l (.ends ⟨.unprintable, m, l.terminal⟩)

theorem turned_of_running (hm : l.machine.WellFormed t) (hs : l.machine.state = .running) :
    Turned s t l (turn s l) := by
  cases hcap : capReached s l.steps with
  | true =>
    rw [turn_of_capped hs hcap]
    unfold capReached at hcap
    cases hmax : s.maxSteps with
    | none =>
      rw [hmax] at hcap
      cases hcap
    | some cap =>
      rw [hmax] at hcap
      exact .capped cap hmax (of_decide_eq_true hcap)
  | false =>
    obtain ⟨⟨printed, hok⟩, hafter⟩ := Machine.step_wellFormed hm
    rw [turn_of_step hs hcap]
    rcases hstep : l.machine.step with ⟨answer, after⟩
    rw [hstep] at hok hafter
    cases hok
    cases printed with
    | none => exact .goes hafter rfl (fun _ h => h) rfl
    | some v =>
      cases hprint : v.printed? with
      | some numeral =>
        simp only [hprint]
        exact .goes hafter rfl (fun _ h => h) rfl
      | none =>
        simp only [hprint]
        refine .unprintable (Decidable.by_contra fun hfixed => ?_)
        -- The number is the register, and registers of a fixed width can be printed.
        have hv : v = l.machine.register := Machine.eq_register_of_step (congrArg Prod.fst hstep)
        have hprintable := NumberType.printable_of_holds hfixed hm.register.2
        rw [← hv] at hprintable
        rw [Number.printed?, Decimal.print?, if_pos hprintable] at hprint
        cases hprint

/-- A line that has been read ends the run, answers the machine, or is echoed. -/
theorem turned_of_line {line : List Char} {term : Terminal} (hm : l.machine.WellFormed t)
    (hread : (prompt s l.terminal).readLine = (.ok line, term))
    (hending : term.stdin.ending = l.terminal.stdin.ending)
    (hlines : ∀ line ∈ term.stdin.lines, line ∈ l.terminal.stdin.lines)
    (hstderr : term.stderr = l.terminal.stderr)
    (hempty : line = [] → [] ∈ l.terminal.stdin.lines ∨ l.terminal.stdin.ending = none) :
    Turned s t l (lineTurn s l) := by
  rw [lineTurn, hread]
  simp only
  split
  case isTrue h => exact .piped (Bool.and_eq_true_iff.mp h).2 hstderr
  case isFalse hnotpiped =>
    split
    case isTrue h =>
      obtain rfl := List.isEmpty_iff.mp h
      have hpiped : s.piped = false := by
        rw [Bool.and_eq_true_iff, not_and, Bool.not_eq_true] at hnotpiped
        exact hnotpiped (by decide)
      exact .closed hpiped (hempty rfl) hstderr
    case isFalse =>
      cases hanswer : Literal.read l.machine.numberType (Text.trim (String.ofList line)) with
      | ok v =>
        have hv := (Literal.read_eq_ok_iff.mp hanswer).2
        rw [hm.numberType] at hv
        exact .goes (Machine.input_wellFormed hm hv) hending hlines hstderr
      | error fault => exact .goes hm hending hlines hstderr

theorem turned_of_waiting (hm : l.machine.WellFormed t) (hs : l.machine.state = .inputWaiting) :
    Turned s t l (turn s l) := by
  cases hlines : l.terminal.stdin.lines with
  | cons line rest =>
    rw [turn_of_waiting hs]
    refine turned_of_line hm (readLine_prompt_of_line hlines) rfl (fun line' h => ?_) rfl ?_
    · rw [hlines]
      exact List.mem_cons_of_mem _ h
    · rintro rfl
      exact .inl (by rw [hlines]; exact List.mem_cons_self ..)
  | nil =>
    cases hending : l.terminal.stdin.ending with
    | none =>
      have hstdin : l.terminal.stdin = ⟨[], none⟩ := by rw [← hlines, ← hending]
      rw [turn_of_waiting hs]
      exact turned_of_line hm (readLine_prompt_of_end hstdin) rfl nofun rfl fun _ => .inr hending
    | some f =>
      have hstdin : l.terminal.stdin = ⟨[], some f⟩ := by rw [← hlines, ← hending]
      rw [turn_of_fault hs hstdin]
      exact .undecodable f hending rfl

theorem turn_turned (hm : l.machine.WellFormed t) : Turned s t l (turn s l) := by
  cases hs : l.machine.state with
  | stopped =>
    rw [turn_of_stopped hs]
    exact .stopped
  | running => exact turned_of_running hm hs
  | inputWaiting => exact turned_of_waiting hm hs

/-! ## What a command meets -/

/-- What a command reports when it fails. -/
inductive Complaint where
  | file (cause : FileError)
  | load (cause : LoadError)
  | request (cause : RequestError)
  deriving DecidableEq

def Complaint.message : Complaint → String
  | .file cause => cause.message
  | .load cause => cause.message
  | .request cause => cause.message

section

variable (a : Arguments) (read : FileReader) (stdin : Stream)

/-- A file cannot be read, a program text is wrong, the input holds the program that asks for a
number, or the input has ended. -/
def Complaint.Arises : Complaint → Prop
  | .file cause => a.fromInput = false ∧ cause ≠ .nullByte ∧
      ∃ file ∈ a.files, read (Path.ofString file) = .error cause
  | .load cause => cause.ofText = true
  | .request .pipedProgram => a.fromInput = true
  | .request .closedStream => a.fromInput = false ∧ stdin.ending = none

/-- The input of a program from a file cannot be decoded, a number has too many digits, a path has a
null character, or an option has no value. -/
def Escape.Arises : Escape → Prop
  | .undecodable cause => a.fromInput = false ∧ stdin.ending = some cause
  | .unprintable => a.numberType = some .unbounded
  | .fault _ => False
  | .nullByte => a.fromInput = false ∧
      ∃ file ∈ a.files, read (Path.ofString file) = .error .nullByte
  | .untyped => a.numberType = none
  | .uncounted => a.maxSteps = some none

/-- Nothing but a notice for each program that the cap has stopped. -/
inductive Notices : String → Prop where
  | none : Notices ""
  | capped {text : String} (h : Notices text) (loud : a.suppress = false) {cap : Int} {steps : Nat}
    (hcap : a.maxSteps = some (some cap)) (hsteps : cap ≤ steps) :
    Notices (text ++ ("Stopped after " ++ steps.repr ++ " steps (--max-steps).") ++ "\n")

/-- What a command can come to. -/
inductive Concludes : Outcome → Prop where
  | success {term : Terminal} (h : Notices a term.stderr) : Concludes ⟨.status 0, term⟩
  | reported {notices : String} {term : Terminal} (c : Complaint) (arises : c.Arises a read stdin)
    (h : Notices a notices)
    (stderr : term.stderr = if a.suppress then "" else notices ++ c.message ++ "\n") :
    Concludes ⟨.status 1, term⟩
  | escaped {term : Terminal} (e : Escape) (arises : e.Arises a read stdin)
    (h : Notices a term.stderr) : Concludes ⟨.escaped e, term⟩

/-- What holds of a command at work. -/
structure Job.Sound (job : Job) : Prop where
  arguments : job.arguments = a
  numberType : a.numberType = some job.numberType
  counted : a.maxSteps ≠ some none
  piped : job.piped = a.fromInput
  machine : job.live.machine.WellFormed job.numberType
  ending : job.live.terminal.stdin.ending = if a.fromInput then none else stdin.ending
  lines : ∀ line ∈ job.live.terminal.stdin.lines, line ≠ []
  rest : ∀ file ∈ job.rest, a.fromInput = false ∧ file ∈ a.files
  stderr : Notices a job.live.terminal.stderr

/-- A command goes on in order, or it is over in one of the ways that there are. -/
inductive Proceeds : Progress → Prop where
  | working {job : Job} (h : job.Sound a stdin) : Proceeds (.working job)
  | concluded {o : Outcome} (h : Concludes a read stdin o) : Proceeds (.over o)

end

variable {a : Arguments} {read : FileReader} {stdin : Stream} {term : Terminal} {job : Job}
variable {type : NumberType} {o : Outcome}

theorem Notices.eq_empty {text : String} (h : Notices a text) (hs : a.suppress = true) :
    text = "" := by
  cases h with
  | none => rfl
  | capped _ hloud => cases hs.symm.trans hloud

theorem concludes_report {c : Complaint} (harises : c.Arises a read stdin)
    (h : Notices a term.stderr) : Concludes a read stdin (report a term c.message) := by
  refine .reported c harises h ?_
  cases hs : a.suppress with
  | true => exact h.eq_empty hs
  | false => rfl

theorem Notices.reportCap {cap : Int} {steps : Nat} {piped : Bool} (h : Notices a term.stderr)
    (hcap : a.maxSteps = some (some cap)) (hsteps : cap ≤ steps) :
    Notices a (reportCap (settings a piped) steps term).stderr := by
  unfold Interpreter.reportCap
  cases hs : a.suppress with
  | true =>
    rw [if_pos (show (settings a piped).suppress = true from hs)]
    exact h
  | false =>
    rw [if_neg (by rw [settings, hs]; exact Bool.false_ne_true)]
    exact h.capped hs hcap hsteps

/-! ## Programs -/

theorem beginProgram_proceeds (job : Job) (h : a.maxSteps ≠ some none → job.Sound a stdin)
    (ha : job.arguments = a) (hstderr : Notices a job.live.terminal.stderr) :
    Proceeds a read stdin (beginProgram job) := by
  unfold beginProgram
  rw [ha]
  split
  case isTrue hcount => exact .concluded (.escaped .uncounted hcount hstderr)
  case isFalse hcount => exact .working (h hcount)

theorem loadFile_cases {file : String} (type : NumberType) (hfiles : a.fromInput = false)
    (hfile : file ∈ a.files) (hstderr : Notices a term.stderr) :
    (∃ m, loadFile a type read term file = .ok m ∧ m.WellFormed type) ∨
      ∃ o, loadFile a type read term file = .error o ∧ Concludes a read stdin o := by
  unfold loadFile
  cases hread : read (Path.ofString file) with
  | error cause =>
    have hreport (hcause : cause ≠ .nullByte) :
        Concludes a read stdin (report a term cause.message) :=
      concludes_report (c := .file cause) ⟨hfiles, hcause, file, hfile, hread⟩ hstderr
    cases cause with
    | nullByte => exact .inr ⟨_, rfl, .escaped .nullByte ⟨hfiles, file, hfile, hread⟩ hstderr⟩
    | notFound | notDirectory | isDirectory | nameTooLong => exact .inr ⟨_, rfl, hreport nofun⟩
  | ok bytes =>
    cases htext : Program.textOfBytes file bytes with
    | error e =>
      have he := Program.ofText_of_textOfBytes htext
      simp only [htext]
      exact .inr ⟨_, rfl, concludes_report (c := .load e) he hstderr⟩
    | ok source =>
      simp only [htext]
      cases hload : Program.load (.ofType type) type source with
      | error e =>
        have he := Program.ofText_of_load hload
        exact .inr ⟨_, rfl, concludes_report (c := .load e) he hstderr⟩
      | ok m => exact .inl ⟨m, rfl, (Program.Loaded.grown source hload).wellFormed⟩

theorem nextFile_proceeds {files : List String} (htype : a.numberType = some type)
    (hending : term.stdin.ending = if a.fromInput then none else stdin.ending)
    (hlines : ∀ line ∈ term.stdin.lines, line ≠ [])
    (hfiles : ∀ file ∈ files, a.fromInput = false ∧ file ∈ a.files)
    (hstderr : Notices a term.stderr) :
    Proceeds a read stdin (nextFile a type read term files) := by
  cases files with
  | nil => exact .concluded (.success hstderr)
  | cons file rest =>
    obtain ⟨hinput, hfile⟩ := hfiles file (List.mem_cons_self ..)
    have hcases : (∃ m, loadFile a type read term file = .ok m ∧ m.WellFormed type) ∨
        ∃ o, loadFile a type read term file = .error o ∧ Concludes a read stdin o :=
      loadFile_cases type hinput hfile hstderr
    unfold nextFile
    rcases hcases with ⟨m, hload, hm⟩ | ⟨o, hload, ho⟩
    · simp only [hload]
      refine beginProgram_proceeds _ (fun hcounted => ?_) rfl hstderr
      exact {
        arguments := rfl
        numberType := htype
        counted := hcounted
        piped := hinput.symm
        machine := hm
        ending := hending
        lines := hlines
        rest := fun file h => hfiles file (List.mem_cons_of_mem _ h)
        stderr := hstderr }
    · simp only [hload]
      exact .concluded ho

theorem pipedProgram_proceeds {chunks : List (List UInt8)} (htype : a.numberType = some type)
    (hinput : a.fromInput = true) :
    Proceeds a read (Stream.ofChunks chunks)
      (pipedProgram a type (.ofInput (Stream.ofChunks chunks))) := by
  unfold pipedProgram
  cases hload : Program.ofStream (.ofType type) type "<stdin>" (Stream.ofChunks chunks) with
  | error e =>
    have he := Program.ofText_of_ofStream hload
    simp only [Terminal.ofInput, hload]
    exact .concluded (concludes_report (c := .load e) he .none)
  | ok m =>
    simp only [Terminal.ofInput, hload]
    refine beginProgram_proceeds _ (fun hcounted => ?_) rfl .none
    exact {
      arguments := rfl
      numberType := htype
      counted := hcounted
      piped := hinput.symm
      machine := (Program.loaded_of_ofStream hload).wellFormed
      ending := by rw [hinput]; rfl
      lines := nofun
      rest := nofun
      stderr := .none }

/-! ## Turns of a command -/

theorem Job.Sound.next (h : job.Sound a stdin) : Proceeds a read stdin (job.next read) := by
  obtain rfl := h.arguments
  have hturned := turn_turned (s := settings job.arguments job.piped) h.machine
  unfold Job.next
  generalize turn (settings job.arguments job.piped) job.live = result at hturned ⊢
  cases hturned with
  | goes machine ending lines stderr =>
    exact .working { h with
      machine := machine
      ending := ending.trans h.ending
      lines := fun line hline => h.lines line (lines line hline)
      stderr := by rw [stderr]; exact h.stderr }
  | stopped => exact nextFile_proceeds h.numberType h.ending h.lines h.rest h.stderr
  | capped cap hcap hsteps =>
    have hmax : job.arguments.maxSteps = some (some cap) := Option.join_eq_some_iff.mp hcap
    have hstdin := stdin_reportCap (settings job.arguments job.piped) job.live.steps
      job.live.terminal
    exact nextFile_proceeds h.numberType (by rw [hstdin]; exact h.ending)
      (by rw [hstdin]; exact h.lines) h.rest (h.stderr.reportCap hmax hsteps)
  | piped hpiped stderr =>
    have harises : Complaint.Arises job.arguments read stdin (.request .pipedProgram) :=
      h.piped.symm.trans hpiped
    have hreport := concludes_report (c := .request .pipedProgram) harises
      (by rw [stderr]; exact h.stderr)
    exact .concluded hreport
  | closed hpiped input stderr =>
    have hinput : job.arguments.fromInput = false := h.piped.symm.trans hpiped
    have hnone := h.ending.symm.trans (input.resolve_left fun hempty => h.lines [] hempty rfl)
    rw [hinput] at hnone
    have harises : Complaint.Arises job.arguments read stdin (.request .closedStream) :=
      ⟨hinput, hnone⟩
    have hreport := concludes_report (c := .request .closedStream) harises
      (by rw [stderr]; exact h.stderr)
    exact .concluded hreport
  | undecodable f hf stderr =>
    have hsome := h.ending.symm.trans hf
    have harises : Escape.Arises job.arguments read stdin (.undecodable f) := by
      cases hinput : job.arguments.fromInput with
      | true =>
        rw [hinput] at hsome
        cases hsome
      | false =>
        rw [hinput] at hsome
        exact ⟨hinput, hsome⟩
    exact .concluded (.escaped _ harises (by rw [stderr]; exact h.stderr))
  | unprintable hunbounded =>
    have harises : Escape.Arises job.arguments read stdin .unprintable :=
      h.numberType.trans (congrArg some hunbounded)
    exact .concluded (.escaped _ harises h.stderr)

theorem concludes_of_finish? {turns : Nat} (h : job.Sound a stdin)
    (hfinish : job.finish? read turns = some o) : Concludes a read stdin o := by
  induction turns generalizing job with
  | zero => cases hfinish
  | succ turns ih =>
    have hnext : Proceeds a read stdin (job.next read) := h.next
    rw [Job.finish?] at hfinish
    generalize job.next read = progress at hnext hfinish
    cases hnext with
    | working hsound => exact ih hsound hfinish
    | concluded ho =>
      cases hfinish
      exact ho

theorem begin_proceeds (a : Arguments) (read : FileReader) (chunks : List (List UInt8))
    (hruns : a.introduces = false) :
    Proceeds a read (Stream.ofChunks chunks) (begin a read (.ofInput (Stream.ofChunks chunks))) := by
  unfold begin
  rw [hruns, if_neg Bool.false_ne_true]
  cases htype : a.numberType with
  | none => exact .concluded (.escaped .untyped htype .none)
  | some type =>
    simp only
    cases hinput : a.fromInput with
    | true => exact pipedProgram_proceeds htype hinput
    | false =>
      refine nextFile_proceeds htype (by rw [hinput]; rfl) (fun line hline => ?_)
        (fun file hfile => ⟨hinput, hfile⟩) .none
      obtain ⟨text, htext⟩ := Stream.exists_text_of_mem_ofChunks hline
      exact Text.ne_nil_of_mem_keepNewlines htext

theorem Concludes.of_command {args : List String} {chunks : List (List UInt8)} {turns : Nat}
    (hargs : Arguments.parse args = .ok a) (hruns : a.introduces = false)
    (h : command args read (Stream.ofChunks chunks) turns = some o) :
    Concludes a read (Stream.ofChunks chunks) o := by
  have hbegin := begin_proceeds a read chunks hruns
  unfold command start at h
  rw [hargs] at h
  simp only at h
  generalize begin a read (.ofInput (Stream.ofChunks chunks)) = progress at hbegin h
  cases hbegin with
  | working hsound => exact concludes_of_finish? hsound h
  | concluded ho =>
    cases h
    exact ho

theorem next_of_undecodable {f : Utf8.Fault} (hs : job.live.machine.state = .inputWaiting)
    (hstdin : job.live.terminal.stdin = ⟨[], some f⟩) (read : FileReader) :
    ∃ term, job.next read = .over ⟨.escaped (.undecodable f), term⟩ := by
  unfold Job.next
  rw [turn_of_fault hs hstdin]
  exact ⟨_, rfl⟩

/-- A command that runs programs ends with status 0, or with status 1 and one report, or in a failure
that nobody reports.  A failure of the last kind is one of five: the input of a program from a file
cannot be decoded, a number has too many digits, a path has a null character, or one of the two
options with values has none.  In every other case the status is 0 or 1.  A program that asks for a
number where the lines before a fault of the input have run out always fails in this way.  The bytes
of the input and the chunks that they come in are arbitrary. -/
theorem command_reports_or_escapes (args : List String) (a : Arguments) (read : FileReader)
    (chunks : List (List UInt8)) (turns : Nat) (o : Outcome) (hargs : Arguments.parse args = .ok a)
    (hruns : a.introduces = false)
    (h : command args read (Stream.ofChunks chunks) turns = some o) :
    Concludes a read (Stream.ofChunks chunks) o ∧
    ((a.fromInput = true ∨ (Utf8.decode chunks.flatten).fault = none) →
      a.numberType ≠ some .unbounded → a.numberType ≠ none → a.maxSteps ≠ some none →
      (∀ file ∈ a.files, read (Path.ofString file) ≠ .error .nullByte) →
      o.exit = .status 0 ∨ o.exit = .status 1) ∧
    ∀ (job : Job) f, job.live.machine.state = .inputWaiting →
      job.live.terminal.stdin = ⟨[], some f⟩ →
      ∃ term, job.next read = .over ⟨.escaped (.undecodable f), term⟩ := by
  have hconcludes := Concludes.of_command hargs hruns h
  refine ⟨hconcludes, fun hinput hbounded htyped hcounted hpaths => ?_,
    fun job f hs hstdin => next_of_undecodable hs hstdin read⟩
  cases hconcludes with
  | success => exact .inl rfl
  | reported => exact .inr rfl
  | escaped e arises =>
    cases e with
    | undecodable f =>
      obtain ⟨hfile, hending⟩ := arises
      have hvalid := hinput.resolve_left (by rw [hfile]; exact Bool.false_ne_true)
      rw [Stream.ending_ofChunks_eq_none_iff.mpr hvalid] at hending
      cases hending
    | unprintable => exact absurd arises hbounded
    | fault cause => exact arises.elim
    | nullByte =>
      obtain ⟨-, file, hfile, hread⟩ := arises
      exact absurd hread (hpaths file hfile)
    | untyped => exact absurd arises htyped
    | uncounted => exact absurd arises hcounted

/-- The two bytes of the only letter of the input come in two chunks. -/
theorem command_reports_or_escapes_at_the_end_of_input :
    let args := ["-t", "u8", "a.msc"]
    let a : Arguments :=
      ⟨["a.msc"], false, false, false, false, some (.unsigned .bits8), none⟩
    let tree := FileTree.ofList [("a.msc", .file "ip".toUTF8.toList)]
    let chunks : List (List UInt8) := [[0xC3], [0xA9, 0x0A]]
    ∃ o, Arguments.parse args = .ok a ∧ a.introduces = false ∧
      command args tree.read (Stream.ofChunks chunks) 3 = some o ∧
      Concludes a tree.read (Stream.ofChunks chunks) o ∧
      (o.exit = .status 0 ∨ o.exit = .status 1) := by
  intro args a tree chunks
  have hargs : Arguments.parse args = .ok a := by decide
  have hsome : (command args tree.read (Stream.ofChunks chunks) 3).isSome = true := by
    decide +kernel
  obtain ⟨o, ho⟩ := Option.isSome_iff_exists.mp hsome
  have hvalid : (Utf8.decode chunks.flatten).fault = none := by decide +kernel
  have hpaths : ∀ file ∈ a.files, tree.read (Path.ofString file) ≠ .error .nullByte := by
    decide +kernel
  obtain ⟨hconcludes, hstatus, -⟩ :=
    command_reports_or_escapes args a tree.read chunks 3 o hargs rfl ho
  exact ⟨o, hargs, rfl, ho, hconcludes,
    hstatus (.inr hvalid) (by decide) (by decide) (by decide) hpaths⟩

/-- A program that asks for a number, and an input of one byte that begins no character. -/
theorem undecodable_input_escapes :
    let args := ["-s", "a.msc"]
    let tree := FileTree.ofList [("a.msc", .file "i".toUTF8.toList)]
    (Arguments.parse args).map Arguments.introduces = .ok false ∧
      ∃ o, command args tree.read (Stream.ofBytes [0xFF]) 2 = some o ∧
        ¬(o.exit = .status 0 ∨ o.exit = .status 1) ∧
        o.exit = .escaped (.undecodable ⟨.invalidStart, 0, [0xFF]⟩) := by decide +kernel

end Interpreter
end MatrixStack
