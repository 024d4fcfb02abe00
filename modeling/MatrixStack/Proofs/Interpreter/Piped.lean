/-
Programs from the input.

Reading a program from the input takes the input to its end (`readThrough_ofChunks`), so nothing is
left to answer the program with.  It runs as it would from a file with an empty input, except that a
request is refused for another reason (`turn_piped`), and so its end is that of the run without
numbers (`finishes_piped_iff`).
-/
import MatrixStack.Proofs.Interpreter.Ends
import MatrixStack.Proofs.Interpreter.ExitStatus
import MatrixStack.Proofs.Machine.Unanswered

namespace MatrixStack

/-! ## Reading to the end -/

namespace Stream

/-- Reading line after line up to an empty one takes the lines and leaves the rest. -/
inductive ReadThrough : Stream → List (List Char) → Stream → Prop where
  | done {s rest : Stream} (h : s.read = (.ok [], rest)) : ReadThrough s [] rest
  | line {s mid rest : Stream} {line : List Char} {lines : List (List Char)}
    (h : s.read = (.ok line, mid)) (hline : line ≠ []) (hrest : ReadThrough mid lines rest) :
    ReadThrough s (line :: lines) rest

theorem readThrough_of_nonempty {lines : List (List Char)} (h : ∀ line ∈ lines, line ≠ []) :
    ReadThrough ⟨lines, none⟩ lines ⟨[], none⟩ := by
  induction lines with
  | nil => exact .done rfl
  | cons line rest ih =>
    refine .line rfl (h line (List.mem_cons_self ..)) (ih fun line' hline => ?_)
    exact h line' (List.mem_cons_of_mem line hline)

theorem readThrough_ofChunks {chunks : List (List UInt8)} (h : (ofChunks chunks).ending = none) :
    (ofChunks chunks).ReadThrough (ofChunks chunks).lines ⟨[], none⟩ := by
  have hlines : ∀ line ∈ (ofChunks chunks).lines, line ≠ [] := by
    intro line hline
    obtain ⟨text, htext⟩ := exists_text_of_mem_ofChunks hline
    exact Text.ne_nil_of_mem_keepNewlines htext
  have hthrough := readThrough_of_nonempty hlines
  rw [← h] at hthrough ⊢
  exact hthrough

end Stream

namespace Interpreter

variable {s : Settings} {m : Machine} {term : Terminal} {l : Live} {r : Result}

/-! ## Runs without an input -/

/-- The numbers as the lines of an output. -/
def printedText (vs : List Number) : String :=
  String.join (vs.map fun v => Decimal.text v.value ++ "\n")

theorem transcript_printed (s : Settings) (t : NumberType) (vs : List Number) (es : List Event)
    (lines : List (List Char)) :
    transcript s t (vs.map .printed ++ es) lines = printedText vs ++ transcript s t es lines := by
  induction vs with
  | nil => exact String.empty_append.symm
  | cons v vs ih =>
    rw [List.map_cons, List.cons_append, transcript, ih, printedText, printedText, List.map_cons,
      String.join_cons, String.append_assoc, String.append_assoc, String.append_assoc]

/-- What a request without an input is refused for, in a program that came from the input. -/
def Ending.piped : Ending → Ending
  | .unanswered _ => .unanswered .pipedProgram
  | ending => ending

def Result.piped (r : Result) : Result := { r with ending := r.ending.piped }

def Turn.piped : Turn → Turn
  | .goes l => .goes l
  | .ends r => .ends r.piped

/-- The settings of a program from a file. -/
def Settings.unpiped (s : Settings) : Settings := { s with piped := false }

theorem turn_of_end_piped (h : l.machine.state = .inputWaiting) (hpiped : s.piped = true)
    (hstdin : l.terminal.stdin = ⟨[], none⟩) :
    turn s l =
      .ends ⟨.unanswered .pipedProgram, l.machine, l.terminal.said [] (promptText s)⟩ := by
  have hempty : (Text.trim (String.ofList [])).isEmpty = true := by decide
  rw [turn_of_waiting h, lineTurn, readLine_prompt_of_end hstdin]
  simp only [hpiped, Bool.and_true]
  rw [if_pos hempty]

/-- A program from the input takes the turns that one from a file takes on an empty input. -/
theorem turn_piped (hpiped : s.piped = true) (hstdin : l.terminal.stdin = ⟨[], none⟩) :
    turn s l = (turn s.unpiped l).piped := by
  cases hs : l.machine.state with
  | stopped =>
    rw [turn_of_stopped hs, turn_of_stopped hs]
    rfl
  | running =>
    cases hcap : capReached s l.steps with
    | true =>
      rw [turn_of_capped hs hcap, turn_of_capped (s := s.unpiped) hs hcap]
      rfl
    | false =>
      rw [turn_of_step hs hcap, turn_of_step (s := s.unpiped) hs hcap]
      rcases l.machine.step with ⟨fault | none | v, after⟩
      · rfl
      · rfl
      · cases hnumeral : v.printed? <;> simp only [hnumeral] <;> rfl
  | inputWaiting =>
    rw [turn_of_end_piped hs hpiped hstdin, turn_of_end (s := s.unpiped) hs rfl hstdin]
    rfl

theorem stdin_of_turn_goes {l' : Live} (hstdin : l.terminal.stdin = ⟨[], none⟩)
    (h : turn s l = .goes l') : l'.terminal.stdin = ⟨[], none⟩ := by
  have hrest := turn_isRest s l
  rw [h, hstdin] at hrest
  have hlines : l'.terminal.stdin.lines = [] := List.suffix_nil.mp hrest.lines
  have hending : l'.terminal.stdin.ending = none := hrest.ending
  rw [← hlines, ← hending]

theorem finish?_piped (hpiped : s.piped = true) (hstdin : l.terminal.stdin = ⟨[], none⟩)
    (turns : Nat) : finish? s l turns = (finish? s.unpiped l turns).map Result.piped := by
  induction turns generalizing l with
  | zero => rfl
  | succ turns ih =>
    rw [finish?, finish?, turn_piped hpiped hstdin]
    cases hturn : turn s.unpiped l with
    | ends r => rfl
    | goes l' => exact ih (stdin_of_turn_goes hstdin hturn)

/-- A run of a file that ends goes with a complete run. -/
theorem exists_completes_of_finishes (hpiped : s.piped = false)
    (hending : term.stdin.ending = none) (hlines : ∀ line ∈ term.stdin.lines, line ≠ [])
    (hprintable : ∀ n, ∀ v ∈ (m.run (numbersOf m.numberType term.stdin.lines) n).outputs,
      Decimal.printable v.value = true)
    (h : Finishes s ⟨0, m, term⟩ r) :
    ∃ n, m.Completes (numbersOf m.numberType term.stdin.lines) s.maxSteps n := by
  cases hcap : s.maxSteps with
  | some cap => exact ⟨cap.toNat, rfl⟩
  | none =>
    refine Classical.byContradiction fun hnever => ?_
    have hendless : Endless m.numberType ⟨0, m, term⟩ := {
      numberType := rfl
      ending := hending
      lines := hlines
      printable := hprintable
      goesOn := fun n => Bool.eq_false_iff.mpr fun hn => hnever ⟨n, hn⟩ }
    obtain ⟨turns, hturns⟩ := h
    cases hturns.symm.trans (hendless.finish?_eq_none hpiped hcap turns)

/-- The end of a program from the input that has made a complete run. -/
def pipedResult (s : Settings) (m : Machine) (n : Nat) (term : Terminal) : Result :=
  Result.piped ⟨(m.run [] n).ending, (m.run [] n).machine,
    closing s.unpiped (m.run [] n) n (converse s.unpiped m.numberType (m.shown [] n) term)⟩

theorem finishes_piped_iff (hpiped : s.piped = true) (hstdin : term.stdin = ⟨[], none⟩)
    (hprintable : ∀ n, ∀ v ∈ (m.run [] n).outputs, Decimal.printable v.value = true) :
    Finishes s ⟨0, m, term⟩ r ↔
      ∃ n, m.Completes [] s.maxSteps n ∧ r = pipedResult s m n term := by
  have hlines : ∀ line ∈ term.stdin.lines, line ≠ [] := by
    rw [hstdin]
    exact fun _ hline => absurd hline List.not_mem_nil
  have hnumbers : numbersOf m.numberType term.stdin.lines = [] := by
    rw [hstdin]
    rfl
  have hending : term.stdin.ending = none := by rw [hstdin]
  have hfinishes n (hn : m.Completes [] s.maxSteps n) :
      Finishes s ⟨0, m, term⟩ (pipedResult s m n term) := by
    have hrun := finishes_of_completes (s := s.unpiped) (m := m) rfl hending hlines
      (fun n _ => by rw [hnumbers]; exact hprintable n) (n := n) (by rw [hnumbers]; exact hn)
    rw [hnumbers] at hrun
    obtain ⟨turns, hturns⟩ := hrun
    exact ⟨turns, by rw [finish?_piped hpiped hstdin, hturns]; rfl⟩
  constructor
  · intro h
    have hunpiped : ∃ r', Finishes s.unpiped ⟨0, m, term⟩ r' := by
      obtain ⟨turns, hturns⟩ := h
      rw [finish?_piped hpiped hstdin, Option.map_eq_some_iff] at hturns
      obtain ⟨r', hr', -⟩ := hturns
      exact ⟨r', turns, hr'⟩
    obtain ⟨r', hr'⟩ := hunpiped
    obtain ⟨n, hn⟩ := exists_completes_of_finishes rfl hending hlines
      (by rw [hnumbers]; exact hprintable) hr'
    rw [hnumbers] at hn
    exact ⟨n, hn, h.unique (hfinishes n hn)⟩
  · rintro ⟨n, hn, rfl⟩
    exact hfinishes n hn

theorem stdout_pipedResult (s : Settings) (m : Machine) (n : Nat) (hstdin : term.stdin.lines = []) :
    (pipedResult s m n term).terminal.stdout =
      term.stdout ++ (printedText (m.run [] n).outputs ++
        if (m.run [] n).machine.state = .inputWaiting then promptText s else "") := by
  have htext : transcript s.unpiped m.numberType (m.run [] n).machine.opening [] =
      if (m.run [] n).machine.state = .inputWaiting then promptText s else "" := by
    by_cases hs : (m.run [] n).machine.state = .inputWaiting
    · rw [if_pos hs, Machine.opening_of_waiting hs, transcript, transcript, String.append_empty]
      rfl
    · rw [if_neg hs, Machine.opening_of_not_waiting hs]
      rfl
  show (closing s.unpiped (m.run [] n) n _).stdout = _
  rw [stdout_closing, converse, Machine.shown_nil, transcript_printed, hstdin, htext]
  rfl

/-! ## Commands -/

end Interpreter

theorem Program.ending_of_ofStream {t : NumberType} {name : String} {chunks : List (List UInt8)}
    {m : Machine} (h : ofStream (.ofType t) t name (Stream.ofChunks chunks) = .ok m) :
    (Stream.ofChunks chunks).ending = none := by
  cases hf : (Stream.ofChunks chunks).ending with
  | none => rfl
  | some f =>
    obtain ⟨e, he, -⟩ := ofText_of_ofStream_undecodable hf h
    cases he

namespace Interpreter

variable {args : List String} {a : Arguments} {read read' : FileReader} {t : NumberType}
variable {bytes : List UInt8} {job job' : Job} {o : Outcome}

theorem start_piped (hargs : Arguments.parse args = .ok a) (hruns : a.introduces = false)
    (hinput : a.fromInput = true) (htype : a.numberType = some t) (read : FileReader)
    (term : Terminal) : start args read term = pipedProgram a t term := by
  rw [start, hargs]
  simp only
  rw [begin, hruns, hinput, htype]
  rfl

/-- The job after so many turns, as long as the command is at work. -/
def Progress.after? (read : FileReader) : Progress → Nat → Option Job
  | .over _, _ => none
  | .working job, 0 => some job
  | .working job, n + 1 => after? read (job.next read) n

/-- A program from the input at work: there is nothing to read, and nothing has been put in. -/
structure Job.Unanswered (job : Job) : Prop where
  piped : job.piped = true
  stdin : job.live.terminal.stdin = ⟨[], none⟩
  inputs : job.live.machine.inputs = 0
  rest : job.rest = []

theorem inputs_of_turn_goes {l' : Live} (hpiped : s.piped = true)
    (hstdin : l.terminal.stdin = ⟨[], none⟩) (h : turn s l = .goes l') :
    l'.machine.inputs = l.machine.inputs := by
  cases hs : l.machine.state with
  | stopped =>
    rw [turn_of_stopped hs] at h
    cases h
  | inputWaiting =>
    rw [turn_of_end_piped hs hpiped hstdin] at h
    cases h
  | running =>
    cases hcap : capReached s l.steps with
    | true =>
      rw [turn_of_capped hs hcap] at h
      cases h
    | false =>
      have hinputs := Machine.inputs_step l.machine
      rw [turn_of_step hs hcap] at h
      rcases hstep : l.machine.step with ⟨fault | none | v, after⟩
      · simp only [hstep] at h
        cases h
      · rw [hstep] at hinputs
        simp only [hstep] at h
        cases h
        exact hinputs
      · rw [hstep] at hinputs
        simp only [hstep] at h
        cases hnumeral : v.printed? with
        | none =>
          simp only [hnumeral] at h
          cases h
        | some numeral =>
          simp only [hnumeral] at h
          cases h
          exact hinputs

theorem Job.Unanswered.next (h : job.Unanswered) (hnext : job.next read = .working job') :
    job'.Unanswered := by
  have hpiped : (settings job.arguments job.piped).piped = true := h.piped
  cases hturn : turn (settings job.arguments job.piped) job.live with
  | goes l' =>
    rw [next_of_goes hturn] at hnext
    cases hnext
    exact {
      piped := h.piped
      stdin := stdin_of_turn_goes h.stdin hturn
      inputs := (inputs_of_turn_goes hpiped h.stdin hturn).trans h.inputs
      rest := h.rest }
  | ends r =>
    rw [next_of_ends hturn, Job.afterRun, h.rest] at hnext
    cases hconclude : conclude job.arguments r with
    | some outcome =>
      simp only [hconclude] at hnext
      cases hnext
    | none =>
      simp only [hconclude] at hnext
      cases hnext

theorem Job.Unanswered.after? {turns : Nat} (h : job.Unanswered)
    (hafter : (Progress.working job).after? read turns = some job') : job'.Unanswered := by
  induction turns generalizing job with
  | zero =>
    cases hafter
    exact h
  | succ turns ih =>
    rw [Progress.after?] at hafter
    cases hnext : job.next read with
    | «over» outcome =>
      rw [hnext] at hafter
      cases turns <;> cases hafter
    | working next =>
      rw [hnext] at hafter
      exact ih (h.next hnext) hafter

/-- Where no file is left, none is opened. -/
theorem next_congr (h : job.rest = []) (read read' : FileReader) :
    job.next read = job.next read' := by
  unfold Job.next
  rw [h]
  rfl

theorem Job.Unanswered.finish?_congr (h : job.Unanswered) (read read' : FileReader)
    (turns : Nat) : job.finish? read turns = job.finish? read' turns := by
  induction turns generalizing job with
  | zero => rfl
  | succ turns ih =>
    rw [finish?, finish?, next_congr h.rest read read']
    cases hnext : job.next read' with
    | «over» outcome => rfl
    | working next => exact ih (h.next hnext)

/-- The terminal that a program from the input has to itself. -/
def exhausted : Terminal := .ofInput ⟨[], none⟩

def pipedJob (a : Arguments) (t : NumberType) (m : Machine) : Job :=
  ⟨a, t, true, ⟨0, m, exhausted⟩, []⟩

theorem pipedProgram_of_error {e : LoadError} {stdin : Stream}
    (h : Program.ofStream (.ofType t) t "<stdin>" stdin = .error e) :
    pipedProgram a t (.ofInput stdin) = .over (report a (.ofInput stdin) e.message) := by
  simp only [pipedProgram, Terminal.ofInput, h]

theorem pipedProgram_of_uncounted {stdin : Stream} (hcap : a.maxSteps = some none)
    (h : Program.ofStream (.ofType t) t "<stdin>" stdin = .ok m) :
    pipedProgram a t (.ofInput stdin) = .over ⟨.escaped .uncounted, exhausted⟩ := by
  simp only [pipedProgram, Terminal.ofInput, h]
  exact if_pos hcap

theorem pipedProgram_of_counted {stdin : Stream} (hcap : a.maxSteps ≠ some none)
    (h : Program.ofStream (.ofType t) t "<stdin>" stdin = .ok m) :
    pipedProgram a t (.ofInput stdin) = .working (pipedJob a t m) := by
  simp only [pipedProgram, Terminal.ofInput, h]
  exact if_neg hcap

theorem unanswered_pipedJob {conv : Converters} (h : Program.Loaded conv t m) :
    (pipedJob a t m).Unanswered where
  piped := rfl
  stdin := rfl
  inputs := h.inputs
  rest := rfl

theorem stdout_report (a : Arguments) (term : Terminal) (message : String) :
    (report a term message).terminal.stdout = term.stdout := by
  unfold report
  split <;> rfl

/-- What a command comes to whose program from the input has made a complete run. -/
def pipedOutcome (a : Arguments) (m : Machine) (n : Nat) : Outcome :=
  let term := (pipedResult (settings a true) m n exhausted).terminal
  if (m.run [] n).machine.state = .inputWaiting then
    report a term RequestError.pipedProgram.message
  else ⟨.status 0, term⟩

theorem afterRun_pipedResult {n : Nat} (hfault : (m.run [] n).fault = none) :
    (pipedJob a t m).afterRun read (pipedResult (settings a true) m n exhausted) =
      .over (pipedOutcome a m n) := by
  have hending : (m.run [] n).ending = (m.run [] n).machine.state.ending := by
    rw [Run.ending, hfault]
  unfold Job.afterRun pipedOutcome pipedResult Result.piped conclude
  simp only [hending]
  cases (m.run [] n).machine.state <;> rfl

/-- Running a loaded program from the input comes to what its complete run makes of it. -/
theorem comesTo_pipedJob_iff (h : Program.Loaded (.ofType t) t m) (hfixed : t ≠ .unbounded) :
    (Progress.working (pipedJob a t m)).ComesTo read o ↔
      ∃ n, m.Completes [] a.maxSteps.join n ∧ o = pipedOutcome a m n := by
  have hprintable n : ∀ v ∈ (m.run [] n).outputs, Decimal.printable v.value = true := by
    intro v hv
    have hnil : ∀ v ∈ ([] : List Number), v.Belongs t := fun _ hv => absurd hv List.not_mem_nil
    exact NumberType.printable_of_holds hfixed
      (Machine.outputs_run_belong h.wellFormed hnil n v hv).2
  have hafter n : (pipedJob a t m).afterRun read (pipedResult (settings a true) m n exhausted) =
      .over (pipedOutcome a m n) :=
    afterRun_pipedResult (Machine.run_nil_wellFormed h.wellFormed n).1
  have hfinishes {r : Result} : Finishes (settings a true) ⟨0, m, exhausted⟩ r ↔
      ∃ n, m.Completes [] a.maxSteps.join n ∧ r = pipedResult (settings a true) m n exhausted :=
    finishes_piped_iff rfl rfl hprintable
  rw [comesTo_working_iff]
  constructor
  · rintro ⟨r, hr, hover⟩
    obtain ⟨n, hn, rfl⟩ := hfinishes.mp hr
    rw [hafter, comesTo_over] at hover
    exact ⟨n, hn, hover⟩
  · rintro ⟨n, hn, rfl⟩
    refine ⟨_, hfinishes.mpr ⟨n, hn, rfl⟩, ?_⟩
    rw [hafter]
    exact comesTo_over.mpr rfl

theorem exit_pipedOutcome (a : Arguments) (m : Machine) (n : Nat) :
    (pipedOutcome a m n).exit =
      .status (if (m.run [] n).machine.state = .inputWaiting then 1 else 0) := by
  unfold pipedOutcome
  split <;> rfl

theorem stdout_pipedOutcome (a : Arguments) (m : Machine) (n : Nat) :
    (pipedOutcome a m n).terminal.stdout =
      printedText (m.run [] n).outputs ++
        if (m.run [] n).machine.state = .inputWaiting then promptText (settings a true) else "" := by
  have hresult := stdout_pipedResult (settings a true) m n
    (show exhausted.stdin.lines = [] from rfl)
  rw [show exhausted.stdout = "" from rfl, String.empty_append] at hresult
  unfold pipedOutcome
  by_cases hs : (m.run [] n).machine.state = .inputWaiting
  · simp only [if_pos hs] at hresult ⊢
    rw [stdout_report, hresult]
  · simp only [if_neg hs] at hresult ⊢
    exact hresult

theorem comes_piped_iff (hargs : Arguments.parse args = .ok a) (hruns : a.introduces = false)
    (hinput : a.fromInput = true) (htype : a.numberType = some t) {stdin : Stream} :
    Comes args read stdin o ↔ (pipedProgram a t (.ofInput stdin)).ComesTo read o := by
  rw [comes_iff, start_piped hargs hruns hinput htype]

/-- A program from the input is never answered.  Whatever files are named, none is opened.  As long
as the command is at work, its machine has taken no input and the text of the program has been read
to the end of the input.  A text that does not load gives status 1 and no output.  A loaded program
comes to an end just when its run without numbers does; the status is 1 if it asks for a number
within the steps that are allowed and 0 otherwise, and the output holds the numbers printed by then
on lines of their own and behind them, if a number was asked for, one prompt.  Only a cap without a
count ends the command before the program has begun. -/
theorem piped_program_is_never_answered (args : List String) (a : Arguments) (t : NumberType)
    (bytes : List UInt8) (hargs : Arguments.parse args = .ok a) (hruns : a.introduces = false)
    (hinput : a.fromInput = true) (htype : a.numberType = some t) (hfixed : t ≠ .unbounded) :
    let stdin := Stream.ofBytes bytes
    let loaded := Program.ofStream (.ofType t) t "<stdin>" stdin
    (∀ read read' turns, command args read stdin turns = command args read' stdin turns) ∧
    (∀ read turns job, (start args read (.ofInput stdin)).after? read turns = some job →
      job.live.machine.inputs = 0 ∧ stdin.ReadThrough stdin.lines job.live.terminal.stdin) ∧
    (∀ e, loaded = .error e → ∀ read, ∃ o, (∀ o', Comes args read stdin o' ↔ o' = o) ∧
      o.exit = .status 1 ∧ o.terminal.stdout = "") ∧
    (∀ m, loaded = .ok m → a.maxSteps = some none → ∀ read,
      ∃ o, (∀ o', Comes args read stdin o' ↔ o' = o) ∧
        o.exit = .escaped .uncounted ∧ o.terminal.stdout = "") ∧
    ∀ m, loaded = .ok m → a.maxSteps ≠ some none → ∀ read,
      ((∃ o, Comes args read stdin o) ↔ ∃ n, m.Completes [] a.maxSteps.join n) ∧
      ∀ o, Comes args read stdin o →
        (o.exit = .status 1 ↔ m.Asks a.maxSteps.join) ∧
        (o.exit = .status 0 ↔ ¬m.Asks a.maxSteps.join) ∧
        ∃ n, m.Completes [] a.maxSteps.join n ∧
          (m.Asks a.maxSteps.join → o.terminal.stdout =
            printedText (m.run [] n).outputs ++ if a.suppress then "" else "> ") ∧
          (¬m.Asks a.maxSteps.join → o.terminal.stdout = printedText (m.run [] n).outputs) := by
  intro stdin loaded
  have hstart (read : FileReader) := start_piped hargs hruns hinput htype read (.ofInput stdin)
  have hcomes (read : FileReader) (o : Outcome) : Comes args read stdin o ↔
      (pipedProgram a t (.ofInput stdin)).ComesTo read o :=
    comes_piped_iff hargs hruns hinput htype
  have hworking {m : Machine} (hm : loaded = .ok m) : (pipedJob a t m).Unanswered :=
    unanswered_pipedJob (Program.loaded_of_ofStream hm)
  refine ⟨fun read read' turns => ?_, fun read turns job hjob => ?_, fun e he read => ?_,
    fun m hm hcap read => ?_, fun m hm hcap read => ?_⟩
  · unfold command
    rw [hstart, hstart]
    cases hm : loaded with
    | error e => rw [pipedProgram_of_error hm]
    | ok m =>
      by_cases hcap : a.maxSteps = some none
      · rw [pipedProgram_of_uncounted hcap hm]
      · rw [pipedProgram_of_counted hcap hm]
        exact (hworking hm).finish?_congr read read' turns
  · rw [hstart] at hjob
    cases hm : loaded with
    | error e =>
      rw [pipedProgram_of_error hm] at hjob
      cases turns <;> cases hjob
    | ok m =>
      by_cases hcap : a.maxSteps = some none
      · rw [pipedProgram_of_uncounted hcap hm] at hjob
        cases turns <;> cases hjob
      · rw [pipedProgram_of_counted hcap hm] at hjob
        have hunanswered := (hworking hm).after? hjob
        rw [hunanswered.stdin]
        exact ⟨hunanswered.inputs, Stream.readThrough_ofChunks (Program.ending_of_ofStream hm)⟩
  · refine ⟨_, fun o => ?_, rfl, stdout_report a (.ofInput stdin) e.message⟩
    rw [hcomes, pipedProgram_of_error he, comesTo_over]
  · refine ⟨⟨.escaped .uncounted, exhausted⟩, fun o => ?_, rfl, rfl⟩
    rw [hcomes, pipedProgram_of_uncounted hcap hm, comesTo_over]
  · have hloaded := Program.loaded_of_ofStream hm
    have hiff o : Comes args read stdin o ↔
        ∃ n, m.Completes [] a.maxSteps.join n ∧ o = pipedOutcome a m n := by
      rw [hcomes, pipedProgram_of_counted hcap hm, comesTo_pipedJob_iff hloaded hfixed]
    refine ⟨⟨fun ⟨o, ho⟩ => ?_, fun ⟨n, hn⟩ => ⟨_, (hiff _).mpr ⟨n, hn, rfl⟩⟩⟩, fun o ho => ?_⟩
    · obtain ⟨n, hn, -⟩ := (hiff o).mp ho
      exact ⟨n, hn⟩
    · obtain ⟨n, hn, rfl⟩ := (hiff o).mp ho
      rw [exit_pipedOutcome, stdout_pipedOutcome, hloaded.asks_iff hn]
      by_cases hs : (m.run [] n).machine.state = .inputWaiting
      · rw [if_pos hs, if_pos hs]
        exact ⟨iff_of_true rfl hs, iff_of_false nofun fun h => h hs, n, hn, fun _ => rfl,
          fun h => absurd hs h⟩
      · rw [if_neg hs, if_neg hs, String.append_empty]
        exact ⟨iff_of_false nofun hs, iff_of_true rfl hs, n, hn, fun h => absurd h hs,
          fun _ => rfl⟩

theorem piped_program_is_never_answered_by_its_text :
    let byte := NumberType.unsigned .bits8
    let args := ["-S", "-t", "u8", "p.msc"]
    let read := (FileTree.ofList []).read
    let stdin := Stream.ofBytes "s 0 0 7\npi".toUTF8.toList
    ∃ a m o, Arguments.parse args = .ok a ∧ a.introduces = false ∧ a.fromInput = true ∧
      a.numberType = some byte ∧ byte ≠ .unbounded ∧ a.maxSteps ≠ some none ∧
      Program.ofStream (.ofType byte) byte "<stdin>" stdin = .ok m ∧
      Comes args read stdin o ∧ m.Asks none ∧ o.exit = .status 1 ∧
      o.terminal.stdout = "0\n> " := by
  intro byte args read stdin
  let a : Arguments := ⟨["p.msc"], false, true, false, false, some byte, none⟩
  have hargs : Arguments.parse args = .ok a := by decide
  have hload : (Program.ofStream (.ofType byte) byte "<stdin>" stdin).isOk = true := by
    decide +kernel
  obtain ⟨m, hm⟩ := Outcome.exists_of_isOk hload
  have hcommand : ∃ o, command args read stdin 4 = some o ∧ o.exit = .status 1 ∧
      o.terminal.stdout = "0\n> " := by decide +kernel
  obtain ⟨o, ho, hexit, hstdout⟩ := hcommand
  obtain ⟨-, -, -, -, hloaded⟩ := piped_program_is_never_answered args a byte
    "s 0 0 7\npi".toUTF8.toList hargs rfl rfl rfl (by decide)
  obtain ⟨hasks, -⟩ := (hloaded m hm (by decide) read).2 o ⟨4, ho⟩
  exact ⟨a, m, o, hargs, rfl, rfl, rfl, by decide, by decide, hm, ⟨4, ho⟩, hasks.mp hexit, hexit,
    hstdout⟩

end Interpreter
end MatrixStack
