/-
Runs at a terminal, told by runs on numbers.

The lines of a terminal are taken for the numbers that they give, and the terminal is left to what a
run on these numbers shows: each printed number stands on a line of its own, and each request opens
a dialogue, in which one line after the other is asked for until one of them gives a number
(`converse`).  A run at a terminal ends just when the run on the numbers does, with the same machine,
and with no other text (`run_at_terminal_is_run`).
-/
import MatrixStack.Proofs.Interpreter.Turns
import MatrixStack.Proofs.Program.Resumption

namespace MatrixStack

namespace Machine

/-- The request that the machine has not been answered. -/
def opening (m : Machine) : List Event := if m.state = .inputWaiting then [.requested] else []

/-- The events of a run, after the request that it finds. -/
def shown (m : Machine) (pending : List Number) (n : Nat) : List Event :=
  m.opening ++ m.events pending n

variable {m after : Machine} {pending : List Number}

theorem opening_of_waiting (h : m.state = .inputWaiting) : m.opening = [.requested] := by
  rw [opening, if_pos h]

theorem opening_of_not_waiting (h : m.state ≠ .inputWaiting) : m.opening = [] := by
  rw [opening, if_neg h]

theorem shown_of_rests {n : Nat} (h : m.Rests pending n) : m.shown pending n = m.opening := by
  rw [shown, events_of_rests h, List.append_nil]

theorem shown_succ_of_error {fault : Fault} (h : (m.answer pending).1.state = .running)
    (hstep : (m.answer pending).1.step = (.error fault, after)) (n : Nat) :
    m.shown pending (n + 1) = m.opening := by
  rw [shown, events_succ_of_error h hstep, List.append_nil]

theorem shown_succ_of_ok {printed : Option Number} (h : (m.answer pending).1.state = .running)
    (hstep : (m.answer pending).1.step = (.ok printed, after)) (n : Nat) :
    m.shown pending (n + 1) =
      m.opening ++ (printed.toList.map .printed ++ after.shown (m.answer pending).2 n) := by
  rw [shown, events_succ_of_ok h hstep, stepEvents, List.append_assoc]
  rfl

theorem filterMap_shown (m : Machine) (pending : List Number) (n : Nat) :
    (m.shown pending n).filterMap Event.number? = (m.run pending n).outputs := by
  have hopening : m.opening.filterMap Event.number? = [] := by
    unfold opening
    split <;> rfl
  rw [shown, List.filterMap_append, hopening, filterMap_events, List.nil_append]

theorem numberType_step (h : m.step = (.ok printed, after)) :
    after.numberType = m.numberType := by
  have hframe := (step_untouched m).numberType
  rw [h] at hframe
  exact hframe

theorem numberType_answer (m : Machine) (pending : List Number) :
    (m.answer pending).1.numberType = m.numberType := by
  by_cases h : m.state = .inputWaiting
  · cases pending with
    | nil => rw [answer_nil]
    | cons v rest => rw [answer_cons_of_waiting h, input_of_waiting h]
  · rw [answer_of_not_waiting h]

end Machine

namespace Interpreter

variable {s : Settings} {t : NumberType} {m : Machine} {term : Terminal} {r : Result}
variable {line : List Char} {lines rest : List (List Char)} {v : Number} {fault : LiteralFault}

/-! ## Lines and their numbers -/

/-- The numbers that the lines give, in order. -/
def numbersOf (t : NumberType) (lines : List (List Char)) : List Number :=
  lines.filterMap fun line => (answerOf t line).toOption

/-- The lines after the first one that gives a number. -/
def linesAfterRequest (t : NumberType) : List (List Char) → List (List Char)
  | [] => []
  | line :: rest =>
    match answerOf t line with
    | .ok _ => rest
    | .error _ => linesAfterRequest t rest

/-- The text of a request: each line is asked for, and echoed unless it gives a number. -/
def dialogue (s : Settings) (t : NumberType) : List (List Char) → String
  | [] => promptText s
  | line :: rest =>
    match answerOf t line with
    | .ok _ => promptText s
    | .error fault => promptText s ++ echoText line fault ++ dialogue s t rest

theorem numbersOf_cons_of_ok (h : answerOf t line = .ok v) :
    numbersOf t (line :: rest) = v :: numbersOf t rest := by
  rw [numbersOf, List.filterMap_cons, h]
  rfl

theorem numbersOf_cons_of_error (h : answerOf t line = .error fault) :
    numbersOf t (line :: rest) = numbersOf t rest := by
  rw [numbersOf, List.filterMap_cons, h]
  rfl

theorem linesAfterRequest_cons_of_ok (h : answerOf t line = .ok v) :
    linesAfterRequest t (line :: rest) = rest := by
  rw [linesAfterRequest, h]

theorem linesAfterRequest_cons_of_error (h : answerOf t line = .error fault) :
    linesAfterRequest t (line :: rest) = linesAfterRequest t rest := by
  rw [linesAfterRequest, h]

theorem dialogue_cons_of_ok (s : Settings) (h : answerOf t line = .ok v) :
    dialogue s t (line :: rest) = promptText s := by
  rw [dialogue, h]

theorem dialogue_cons_of_error (s : Settings) (h : answerOf t line = .error fault) :
    dialogue s t (line :: rest) = promptText s ++ echoText line fault ++ dialogue s t rest := by
  rw [dialogue, h]

theorem numbersOf_append (t : NumberType) (xs ys : List (List Char)) :
    numbersOf t (xs ++ ys) = numbersOf t xs ++ numbersOf t ys := List.filterMap_append

theorem belongs_of_mem_numbersOf (h : v ∈ numbersOf t lines) : v.Belongs t := by
  obtain ⟨line, -, hline⟩ := List.mem_filterMap.mp h
  cases hread : answerOf t line with
  | error fault =>
    rw [hread] at hline
    cases hline
  | ok w =>
    rw [hread] at hline
    cases hline
    rw [answerOf] at hread
    exact (Literal.read_eq_ok_iff.mp hread).2

theorem numbersOf_linesAfterRequest (t : NumberType) (lines : List (List Char)) :
    numbersOf t (linesAfterRequest t lines) = (numbersOf t lines).tail := by
  induction lines with
  | nil => rfl
  | cons line rest ih =>
    cases h : answerOf t line with
    | ok v =>
      rw [linesAfterRequest_cons_of_ok h, numbersOf_cons_of_ok h]
      rfl
    | error fault =>
      rw [linesAfterRequest_cons_of_error h, numbersOf_cons_of_error h]
      exact ih

theorem linesAfterRequest_eq_nil (h : numbersOf t lines = []) : linesAfterRequest t lines = [] := by
  induction lines with
  | nil => rfl
  | cons line rest ih =>
    cases hline : answerOf t line with
    | ok v =>
      rw [numbersOf_cons_of_ok hline] at h
      cases h
    | error fault =>
      rw [numbersOf_cons_of_error hline] at h
      rw [linesAfterRequest_cons_of_error hline]
      exact ih h

/-! ## The text of events -/

def linesAfter (t : NumberType) : List Event → List (List Char) → List (List Char)
  | [], lines => lines
  | .printed _ :: es, lines => linesAfter t es lines
  | .requested :: es, lines => linesAfter t es (linesAfterRequest t lines)

def transcript (s : Settings) (t : NumberType) : List Event → List (List Char) → String
  | [], _ => ""
  | .printed v :: es, lines => Decimal.text v.value ++ "\n" ++ transcript s t es lines
  | .requested :: es, lines => dialogue s t lines ++ transcript s t es (linesAfterRequest t lines)

/-- The terminal after the events: the lines that they take are read, and their text is written. -/
def converse (s : Settings) (t : NumberType) (es : List Event) (term : Terminal) : Terminal :=
  term.said (linesAfter t es term.stdin.lines) (transcript s t es term.stdin.lines)

theorem linesAfter_append (t : NumberType) (es fs : List Event) (lines : List (List Char)) :
    linesAfter t (es ++ fs) lines = linesAfter t fs (linesAfter t es lines) := by
  induction es generalizing lines with
  | nil => rfl
  | cons e es ih => cases e <;> exact ih _

theorem transcript_append (s : Settings) (t : NumberType) (es fs : List Event)
    (lines : List (List Char)) :
    transcript s t (es ++ fs) lines =
      transcript s t es lines ++ transcript s t fs (linesAfter t es lines) := by
  induction es generalizing lines with
  | nil => exact String.empty_append.symm
  | cons e es ih =>
    cases e with
    | printed v =>
      rw [List.cons_append, transcript, transcript, ih, linesAfter]
      exact (String.append_assoc ..).symm
    | requested =>
      rw [List.cons_append, transcript, transcript, ih, linesAfter]
      exact (String.append_assoc ..).symm

theorem converse_append (s : Settings) (t : NumberType) (es fs : List Event) (term : Terminal) :
    converse s t (es ++ fs) term = converse s t fs (converse s t es term) := by
  rw [converse, linesAfter_append, transcript_append, ← Terminal.said_said]
  rfl

theorem converse_nil (s : Settings) (t : NumberType) (term : Terminal) :
    converse s t [] term = term := by
  show term.said term.stdin.lines "" = term
  rw [Terminal.said, String.append_empty]

theorem converse_requested (s : Settings) (t : NumberType) (term : Terminal) :
    converse s t [.requested] term =
      term.said (linesAfterRequest t term.stdin.lines) (dialogue s t term.stdin.lines) := by
  rw [converse, transcript, transcript, String.append_empty]
  rfl

theorem converse_printed (s : Settings) (t : NumberType) (v : Number) (term : Terminal) :
    converse s t [.printed v] term = term.printLine (Decimal.text v.value) := by
  rw [converse, transcript, transcript, String.append_empty]
  rfl

/-! ## Lines that are read -/

/-- The last of the lines gives a number, if there is a line. -/
def EndsInNumber (t : NumberType) (lines : List (List Char)) : Prop :=
  ∀ line ∈ lines.getLast?, ∃ v, answerOf t line = .ok v

theorem EndsInNumber.append {xs ys : List (List Char)} (hx : EndsInNumber t xs)
    (hy : EndsInNumber t ys) : EndsInNumber t (xs ++ ys) := by
  intro line hline
  rw [List.getLast?_append] at hline
  cases hlast : ys.getLast? with
  | none =>
    rw [hlast] at hline
    exact hx line hline
  | some last =>
    rw [hlast] at hline
    exact hy line (hlast.trans hline)

/-- From the lines only the given ones are left, and their numbers, when a run comes to a state: all
lines are read if the machine waits, else those up to one that gives a number. -/
structure Reads (t : NumberType) (lines left : List (List Char)) (pending : List Number)
    (state : State) : Prop where
  numbers : numbersOf t left = pending
  all : state = .inputWaiting → left = []
  through : ∃ read, lines = read ++ left ∧ (state ≠ .inputWaiting → EndsInNumber t read)

theorem Reads.trans {mid left : List (List Char)} {pending pending' : List Number}
    {state state' : State} (h : Reads t lines mid pending state) (hs : state ≠ .inputWaiting)
    (h' : Reads t mid left pending' state') : Reads t lines left pending' state' := by
  obtain ⟨xs, hxs, hends⟩ := h.through
  obtain ⟨ys, hys, hends'⟩ := h'.through
  refine ⟨h'.numbers, h'.all, xs ++ ys, ?_, fun hs' => (hends hs).append (hends' hs')⟩
  rw [hxs, hys, List.append_assoc]

theorem Reads.nonempty {left : List (List Char)} {pending : List Number} {state : State}
    (h : Reads t lines left pending state) (hlines : ∀ line ∈ lines, line ≠ []) :
    ∀ line ∈ left, line ≠ [] := by
  obtain ⟨read, hread, -⟩ := h.through
  intro line hline
  exact hlines line (by rw [hread]; exact List.mem_append_right read hline)

/-- A request that is answered leaves the lines behind the one that answers it. -/
theorem exists_line_of_request (h : numbersOf t lines ≠ []) :
    ∃ skipped line v, answerOf t line = .ok v ∧
      lines = skipped ++ line :: linesAfterRequest t lines := by
  induction lines with
  | nil => exact absurd rfl h
  | cons line rest ih =>
    cases hline : answerOf t line with
    | ok v => exact ⟨[], line, v, hline, by rw [linesAfterRequest_cons_of_ok hline]; rfl⟩
    | error fault =>
      rw [numbersOf_cons_of_error hline] at h
      obtain ⟨skipped, last, v, hlast, hrest⟩ := ih h
      refine ⟨line :: skipped, last, v, hlast, ?_⟩
      rw [linesAfterRequest_cons_of_error hline]
      exact congrArg (line :: ·) hrest

/-- What the request that a machine finds takes from the lines. -/
theorem reads_answer {pending : List Number} (m : Machine) (h : numbersOf t lines = pending) :
    Reads t lines (linesAfter t m.opening lines) (m.answer pending).2 (m.answer pending).1.state := by
  by_cases hs : m.state = .inputWaiting
  · rw [Machine.opening_of_waiting hs]
    have hnumbers := numbersOf_linesAfterRequest t lines
    rw [h] at hnumbers
    cases pending with
    | nil =>
      have hleft : linesAfterRequest t lines = [] := linesAfterRequest_eq_nil h
      rw [Machine.answer_nil, hs]
      refine ⟨hnumbers, fun _ => hleft, lines, ?_, fun h => absurd rfl h⟩
      rw [linesAfter, linesAfter, hleft, List.append_nil]
    | cons v rest =>
      obtain ⟨skipped, line, w, hline, hlines⟩ :=
        exists_line_of_request (by rw [h]; exact List.cons_ne_nil _ _)
      rw [Machine.answer_cons_of_waiting hs, Machine.state_input_of_waiting hs]
      refine ⟨hnumbers, nofun, skipped ++ [line], ?_, fun _ => ?_⟩
      · rw [List.append_assoc]
        exact hlines
      · intro last hlast
        rw [List.getLast?_concat] at hlast
        cases hlast
        exact ⟨w, hline⟩
  · rw [Machine.opening_of_not_waiting hs, Machine.answer_of_not_waiting hs]
    exact ⟨h, fun hwaits => absurd hwaits hs, [], rfl, fun _ _ hnone => nomatch hnone⟩

theorem linesAfter_printed (t : NumberType) (printed : Option Number) (es : List Event)
    (lines : List (List Char)) :
    linesAfter t (printed.toList.map .printed ++ es) lines = linesAfter t es lines := by
  cases printed <;> rfl

theorem reads_run {pending : List Number} (m : Machine) (h : numbersOf t lines = pending) (n : Nat) :
    Reads t lines (linesAfter t (m.shown pending n) lines) (m.run pending n).rest
      (m.run pending n).machine.state := by
  have hreads := reads_answer m h
  induction m, pending, n using Machine.runInduction generalizing lines with
  | rests m pending n hrests =>
    rw [Machine.shown_of_rests hrests, Machine.run_of_rests hrests]
    exact hreads
  | faulted m pending n fault after hs hstep =>
    rw [Machine.shown_succ_of_error hs hstep, Machine.run_succ_of_error hs hstep,
      Machine.state_of_step_error hstep]
    exact hreads
  | stepped m pending n printed after hs hstep ih =>
    rw [Machine.shown_succ_of_ok hs hstep, Machine.run_succ_of_ok hs hstep, linesAfter_append,
      linesAfter_printed]
    have hrest := ih hreads.numbers (reads_answer after hreads.numbers)
    exact hreads.trans (by rw [hs]; decide) hrest

/-! ## Requests at a terminal -/

variable {steps : Nat}

/-- Lines that give no number are echoed until the input ends. -/
theorem finishes_of_unanswered (hpiped : s.piped = false) (ht : m.numberType = t)
    (hm : m.state = .inputWaiting) (hstdin : term.stdin = ⟨lines, none⟩)
    (hlines : ∀ line ∈ lines, line ≠ []) (h : numbersOf t lines = []) :
    Finishes s ⟨steps, m, term⟩
      ⟨.unanswered .closedStream, m, term.said [] (dialogue s t lines)⟩ := by
  subst ht
  induction lines generalizing term with
  | nil => exact finishes_of_ends (turn_of_end hm hpiped hstdin)
  | cons line rest ih =>
    have hturn := turn_of_line (l := ⟨steps, m, term⟩) hm hpiped (congrArg Stream.lines hstdin)
      (hlines line (List.mem_cons_self ..))
    cases hline : answerOf m.numberType line with
    | ok v =>
      rw [numbersOf_cons_of_ok hline] at h
      cases h
    | error fault =>
      rw [numbersOf_cons_of_error hline] at h
      simp only [hline] at hturn
      rw [dialogue_cons_of_error s hline, ← Terminal.said_said term rest]
      refine finishes_of_goes hturn (ih ?_ (fun line hmem => hlines line ?_) h)
      · exact congrArg (fun stdin => (⟨rest, stdin.ending⟩ : Stream)) hstdin
      · exact List.mem_cons_of_mem _ hmem

/-- Lines are echoed until one of them gives a number, which answers the request. -/
theorem finishes_of_answered {vs : List Number} (hpiped : s.piped = false)
    (ht : m.numberType = t) (hm : m.state = .inputWaiting) (hstdin : term.stdin = ⟨lines, none⟩)
    (hlines : ∀ line ∈ lines, line ≠ []) (h : numbersOf t lines = v :: vs)
    (hr : Finishes s
      ⟨steps, m.input v, term.said (linesAfterRequest t lines) (dialogue s t lines)⟩ r) :
    Finishes s ⟨steps, m, term⟩ r := by
  subst ht
  induction lines generalizing term with
  | nil => cases h
  | cons line rest ih =>
    have hturn := turn_of_line (l := ⟨steps, m, term⟩) hm hpiped (congrArg Stream.lines hstdin)
      (hlines line (List.mem_cons_self ..))
    cases hline : answerOf m.numberType line with
    | ok w =>
      rw [numbersOf_cons_of_ok hline] at h
      cases h
      rw [linesAfterRequest_cons_of_ok hline, dialogue_cons_of_ok s hline] at hr
      simp only [hline] at hturn
      exact finishes_of_goes hturn hr
    | error fault =>
      rw [numbersOf_cons_of_error hline] at h
      rw [linesAfterRequest_cons_of_error hline, dialogue_cons_of_error s hline,
        ← Terminal.said_said term rest] at hr
      simp only [hline] at hturn
      refine finishes_of_goes hturn (ih ?_ (fun line hmem => hlines line ?_) h hr)
      · exact congrArg (fun stdin => (⟨rest, stdin.ending⟩ : Stream)) hstdin
      · exact List.mem_cons_of_mem _ hmem

/-- A run whose machine waits in vain ends where it waits. -/
theorem finishes_of_answer_waiting {pending : List Number} (hpiped : s.piped = false)
    (ht : m.numberType = t) (hending : term.stdin.ending = none)
    (hlines : ∀ line ∈ term.stdin.lines, line ≠ []) (h : numbersOf t term.stdin.lines = pending)
    (hs : (m.answer pending).1.state = .inputWaiting) :
    Finishes s ⟨steps, m, term⟩
      ⟨.unanswered .closedStream, (m.answer pending).1, converse s t m.opening term⟩ := by
  have hstdin : term.stdin = ⟨term.stdin.lines, none⟩ := by rw [← hending]
  obtain rfl := Machine.eq_nil_of_answer_waiting hs
  rw [Machine.answer_nil] at hs ⊢
  rw [Machine.opening_of_waiting hs, converse_requested, linesAfterRequest_eq_nil h]
  exact finishes_of_unanswered hpiped ht hs hstdin hlines h

/-- Otherwise it goes on from the machine that has its answer, if it needed one. -/
theorem finishes_of_answer {pending : List Number} (hpiped : s.piped = false)
    (ht : m.numberType = t) (hending : term.stdin.ending = none)
    (hlines : ∀ line ∈ term.stdin.lines, line ≠ []) (h : numbersOf t term.stdin.lines = pending)
    (hs : (m.answer pending).1.state ≠ .inputWaiting)
    (hr : Finishes s ⟨steps, (m.answer pending).1, converse s t m.opening term⟩ r) :
    Finishes s ⟨steps, m, term⟩ r := by
  by_cases hm : m.state = .inputWaiting
  · have hstdin : term.stdin = ⟨term.stdin.lines, none⟩ := by rw [← hending]
    cases pending with
    | nil =>
      rw [Machine.answer_nil] at hs
      exact absurd hm hs
    | cons v vs =>
      rw [Machine.answer_cons_of_waiting hm, Machine.opening_of_waiting hm,
        converse_requested] at hr
      exact finishes_of_answered hpiped ht hm hstdin hlines h hr
  · rw [Machine.answer_of_not_waiting hm, Machine.opening_of_not_waiting hm, converse_nil] at hr
    exact hr

end Interpreter

/-! ## Whole runs -/

/-- How a run at a terminal ends that leaves a machine in the state. -/
def State.ending : State → Interpreter.Ending
  | .stopped => .stopped
  | .running => .capped
  | .inputWaiting => .unanswered .closedStream

/-- How a run at a terminal ends that goes with a run. -/
def Run.ending (run : Run) : Interpreter.Ending :=
  match run.fault with
  | some fault => .fault fault
  | none => run.machine.state.ending

namespace Interpreter

variable {s : Settings} {t : NumberType} {m : Machine} {term : Terminal} {r : Result}
variable {run : Run} {steps : Nat}

/-- A run that goes on when its steps are used up is reported. -/
def closing (s : Settings) (run : Run) (steps : Nat) (term : Terminal) : Terminal :=
  if run.ending = .capped then reportCap s steps term else term

theorem closing_of_ne (h : run.ending ≠ .capped) (steps : Nat) (term : Terminal) :
    closing s run steps term = term := by
  rw [closing, if_neg h]

theorem closing_of_eq (h : run.ending = .capped) (steps : Nat) (term : Terminal) :
    closing s run steps term = reportCap s steps term := by
  rw [closing, if_pos h]

/-- The run is complete when it comes to so many steps in all: these are what the cap allows, or there
is no cap and the run has ended by itself. -/
def Fits (maxSteps : Option Int) (steps : Nat) (run : Run) : Prop :=
  match maxSteps with
  | none => Machine.ended run = true
  | some cap => steps = cap.toNat

theorem capReached_of_fits (h : Fits s.maxSteps steps run) (hrun : Machine.ended run = false) :
    capReached s steps = true := by
  unfold Fits at h
  unfold capReached
  cases hcap : s.maxSteps with
  | none =>
    rw [hcap] at h
    cases h.symm.trans hrun
  | some cap =>
    rw [hcap] at h
    exact decide_eq_true (by omega)

theorem capReached_of_fits_of_lt {k : Nat} (h : Fits s.maxSteps k run) (hlt : steps < k) :
    capReached s steps = false := by
  unfold Fits at h
  unfold capReached
  cases hcap : s.maxSteps with
  | none => rfl
  | some cap =>
    rw [hcap] at h
    exact decide_eq_false (by omega)

/-- A step prints the number that it gives out. -/
theorem turn_of_step_ok {l : Live} {after : Machine} {printed : Option Number} (t : NumberType)
    (hs : l.machine.state = .running) (hcap : capReached s l.steps = false)
    (hstep : l.machine.step = (.ok printed, after))
    (hprintable : ∀ v ∈ printed, Decimal.printable v.value = true) :
    turn s l =
      .goes ⟨l.steps + 1, after, converse s t (printed.toList.map .printed) l.terminal⟩ := by
  rw [turn_of_step hs hcap]
  simp only [hstep]
  cases printed with
  | none =>
    show Turn.goes _ = Turn.goes ⟨l.steps + 1, after, converse s t [] l.terminal⟩
    rw [converse_nil]
  | some v =>
    have hnumeral : v.printed? = some (Decimal.text v.value) :=
      Decimal.print?_eq_some_iff.mpr ⟨hprintable v rfl, rfl⟩
    simp only [hnumeral]
    rw [← converse_printed s t v]
    rfl

/-- A printed number takes no line. -/
theorem lines_converse_printed (s : Settings) (t : NumberType) (printed : Option Number)
    (term : Terminal) :
    (converse s t (printed.toList.map .printed) term).stdin.lines = term.stdin.lines := by
  cases printed <;> rfl

/-- The end of the run at a terminal that goes with a run on numbers. -/
theorem finishes_run {pending : List Number} {n : Nat} (hpiped : s.piped = false)
    (ht : m.numberType = t) (hending : term.stdin.ending = none)
    (hlines : ∀ line ∈ term.stdin.lines, line ≠ []) (h : numbersOf t term.stdin.lines = pending)
    (hprintable : ∀ v ∈ (m.run pending n).outputs, Decimal.printable v.value = true)
    (hfits : Fits s.maxSteps (steps + n) (m.run pending n)) :
    Finishes s ⟨steps, m, term⟩ ⟨(m.run pending n).ending, (m.run pending n).machine,
      closing s (m.run pending n) (steps + n) (converse s t (m.shown pending n) term)⟩ := by
  induction m, pending, n using Machine.runInduction generalizing term steps with
  | rests m pending n hrests =>
    rw [Machine.run_of_rests hrests] at hfits ⊢
    rw [Machine.shown_of_rests hrests]
    have hrested {state : State} (hs : (m.answer pending).1.state = state) :
        Run.ending ⟨[], (m.answer pending).1, (m.answer pending).2, none⟩ = state.ending :=
      congrArg State.ending hs
    cases hs : (m.answer pending).1.state with
    | inputWaiting =>
      rw [closing_of_ne (by rw [hrested hs]; decide), hrested hs]
      exact finishes_of_answer_waiting hpiped ht hending hlines h hs
    | stopped =>
      rw [closing_of_ne (by rw [hrested hs]; decide), hrested hs]
      refine finishes_of_answer hpiped ht hending hlines h (by rw [hs]; decide) ?_
      exact finishes_of_ends (turn_of_stopped hs)
    | running =>
      obtain rfl : n = 0 := hrests.resolve_right fun hne => hne hs
      have hcap : capReached s steps = true := capReached_of_fits hfits (by
        rw [Machine.ended, hs]
        rfl)
      rw [closing_of_eq (hrested hs), hrested hs]
      refine finishes_of_answer hpiped ht hending hlines h (by rw [hs]; decide) ?_
      exact finishes_of_ends (turn_of_capped hs hcap)
  | faulted m pending n fault after hs hstep =>
    rw [Machine.run_succ_of_error hs hstep, Machine.shown_succ_of_error hs hstep]
    refine finishes_of_answer hpiped ht hending hlines h (by rw [hs]; decide) (finishes_of_ends ?_)
    have hcap := capReached_of_fits_of_lt hfits (Nat.lt_add_of_pos_right n.succ_pos)
    rw [turn_of_step hs hcap]
    simp only [hstep]
    rfl
  | stepped m pending n printed after hs hstep ih =>
    have hcap := capReached_of_fits_of_lt hfits (Nat.lt_add_of_pos_right n.succ_pos)
    have hsum : steps + (n + 1) = steps + 1 + n := by omega
    rw [Machine.run_succ_of_ok hs hstep, hsum] at hfits
    rw [Machine.run_succ_of_ok hs hstep] at hprintable
    have hturn := turn_of_step_ok (l := ⟨steps, _, converse s t m.opening term⟩) t hs hcap hstep
      fun v hv => hprintable v (List.mem_append_left _ (Option.mem_toList.mpr hv))
    refine finishes_of_answer hpiped ht hending hlines h (by rw [hs]; decide)
      (finishes_of_goes hturn ?_)
    rw [Machine.run_succ_of_ok hs hstep, Machine.shown_succ_of_ok hs hstep, converse_append,
      converse_append, hsum]
    have hafter : after.numberType = t := by
      rw [Machine.numberType_step hstep, Machine.numberType_answer, ht]
    have hreads : Reads t term.stdin.lines
        (converse s t (printed.toList.map .printed) (converse s t m.opening term)).stdin.lines
        (m.answer pending).2 (m.answer pending).1.state := by
      rw [lines_converse_printed]
      exact reads_answer m h
    exact ih hafter hending (hreads.nonempty hlines) hreads.numbers
      (fun v hv => hprintable v (List.mem_append_right _ hv)) hfits

/-! ## Runs without an end -/

/-- The run on the numbers that the lines give goes on for ever, and all that it prints can be
printed. -/
structure Endless (t : NumberType) (l : Live) : Prop where
  numberType : l.machine.numberType = t
  ending : l.terminal.stdin.ending = none
  lines : ∀ line ∈ l.terminal.stdin.lines, line ≠ []
  printable : ∀ n, ∀ v ∈ (l.machine.run (numbersOf t l.terminal.stdin.lines) n).outputs,
    Decimal.printable v.value = true
  goesOn : ∀ n, Machine.ended (l.machine.run (numbersOf t l.terminal.stdin.lines) n) = false

variable {l : Live}

theorem Endless.exists_turn_of_running (h : Endless t l) (hcap : s.maxSteps = none)
    (hs : l.machine.state = .running) : ∃ l', turn s l = .goes l' ∧ Endless t l' := by
  have hanswer := Machine.answer_of_not_waiting (by rw [hs]; decide)
    (numbersOf t l.terminal.stdin.lines)
  have hrunning : (l.machine.answer (numbersOf t l.terminal.stdin.lines)).1.state = .running := by
    rw [hanswer]
    exact hs
  rcases hstep : l.machine.step with ⟨fault | printed, after⟩
  · have hends := h.goesOn 1
    rw [Machine.run_succ_of_error hrunning (by rw [hanswer]; exact hstep)] at hends
    cases hends
  · have hrun n : l.machine.run (numbersOf t l.terminal.stdin.lines) (n + 1) =
        (after.run (numbersOf t l.terminal.stdin.lines) n).prepend printed.toList := by
      rw [Machine.run_succ_of_ok hrunning (by rw [hanswer]; exact hstep), hanswer]
    have hlines := lines_converse_printed s t printed l.terminal
    refine ⟨_, turn_of_step_ok t hs (by rw [capReached, hcap]) hstep fun v hv => ?_, ?_⟩
    · refine h.printable 1 v ?_
      rw [hrun]
      exact List.mem_append_left _ (Option.mem_toList.mpr hv)
    · exact {
        numberType := (Machine.numberType_step hstep).trans h.numberType
        ending := h.ending
        lines := by rw [hlines]; exact h.lines
        printable := fun n v hv => by
          rw [hlines] at hv
          refine h.printable (n + 1) v ?_
          rw [hrun]
          exact List.mem_append_right _ hv
        goesOn := fun n => by
          have hends := h.goesOn (n + 1)
          rw [hrun] at hends
          rw [hlines]
          exact hends }

theorem Endless.exists_turn_of_waiting (h : Endless t l) (hpiped : s.piped = false)
    (hs : l.machine.state = .inputWaiting) : ∃ l', turn s l = .goes l' ∧ Endless t l' := by
  obtain ⟨rfl, hending, hlines, hprintable, hgoes⟩ := h
  cases hstdin : l.terminal.stdin.lines with
  | nil =>
    have hends := hgoes 0
    rw [hstdin, Machine.run_zero, numbersOf, List.filterMap_nil, Machine.answer_nil,
      Machine.ended, hs] at hends
    cases hends
  | cons line rest =>
    rw [hstdin] at hlines hprintable hgoes
    have hrest : ∀ line ∈ rest, line ≠ [] := fun line hmem =>
      hlines line (List.mem_cons_of_mem _ hmem)
    have hturn := turn_of_line hs hpiped hstdin (hlines line (List.mem_cons_self ..))
    cases hline : answerOf l.machine.numberType line with
    | ok v =>
      rw [numbersOf_cons_of_ok hline] at hprintable hgoes
      simp only [hline] at hturn
      have htype : (l.machine.input v).numberType = l.machine.numberType := by
        rw [Machine.input_of_waiting hs]
      have hrun n : (l.machine.input v).run (numbersOf l.machine.numberType rest) n =
          l.machine.run (v :: numbersOf l.machine.numberType rest) n := by
        rw [← Machine.run_answer l.machine, Machine.answer_cons_of_waiting hs]
      refine ⟨_, hturn, htype, hending, hrest, fun n => ?_, fun n => ?_⟩
      · exact (hrun n).symm ▸ hprintable n
      · exact (hrun n).symm ▸ hgoes n
    | error fault =>
      rw [numbersOf_cons_of_error hline] at hprintable hgoes
      simp only [hline] at hturn
      exact ⟨_, hturn, rfl, hending, hrest, hprintable, hgoes⟩

/-- Such a run has no end at a terminal, either. -/
theorem Endless.finish?_eq_none (h : Endless t l) (hpiped : s.piped = false)
    (hcap : s.maxSteps = none) (turns : Nat) : finish? s l turns = none := by
  induction turns generalizing l with
  | zero => rfl
  | succ turns ih =>
    have hturn : ∃ l', turn s l = .goes l' ∧ Endless t l' := by
      cases hs : l.machine.state with
      | stopped =>
        have hends := h.goesOn 0
        rw [Machine.run_of_stopped hs, Machine.ended, hs] at hends
        cases hends
      | running => exact h.exists_turn_of_running hcap hs
      | inputWaiting => exact h.exists_turn_of_waiting hpiped hs
    obtain ⟨l', hgoes, hl'⟩ := hturn
    rw [finish?, hgoes]
    exact ih hl'

theorem fits_iff_completes {pending : List Number} {maxSteps : Option Int} {n : Nat} :
    Fits maxSteps n (m.run pending n) ↔ m.Completes pending maxSteps n := by
  cases maxSteps <;> exact Iff.rfl

/-- The end of a run at a terminal that goes with a complete run. -/
theorem finishes_of_completes {n : Nat} (hpiped : s.piped = false)
    (hending : term.stdin.ending = none) (hlines : ∀ line ∈ term.stdin.lines, line ≠ [])
    (hprintable : ∀ n, (∀ cap ∈ s.maxSteps, n ≤ cap.toNat) →
      ∀ v ∈ (m.run (numbersOf m.numberType term.stdin.lines) n).outputs,
        Decimal.printable v.value = true)
    (hn : m.Completes (numbersOf m.numberType term.stdin.lines) s.maxSteps n) :
    let run := m.run (numbersOf m.numberType term.stdin.lines) n
    let shown := m.shown (numbersOf m.numberType term.stdin.lines) n
    Finishes s ⟨0, m, term⟩
      ⟨run.ending, run.machine, closing s run n (converse s m.numberType shown term)⟩ := by
  have hwithin : ∀ cap ∈ s.maxSteps, n ≤ cap.toNat := by
    intro cap hcap
    rw [hcap] at hn
    exact Nat.le_of_eq hn
  have hfits : Fits s.maxSteps (0 + n) (m.run (numbersOf m.numberType term.stdin.lines) n) := by
    rw [Nat.zero_add]
    exact fits_iff_completes.mpr hn
  have hfinishes := finishes_run hpiped rfl hending hlines rfl (hprintable n hwithin) hfits
  rw [Nat.zero_add] at hfinishes
  exact hfinishes

theorem stdout_closing (s : Settings) (run : Run) (n : Nat) (term : Terminal) :
    (closing s run n term).stdout = term.stdout := by
  unfold closing
  split
  · exact stdout_reportCap s n term
  · rfl

theorem stdin_closing (s : Settings) (run : Run) (n : Nat) (term : Terminal) :
    (closing s run n term).stdin = term.stdin := by
  unfold closing
  split
  · exact stdin_reportCap s n term
  · rfl

theorem ending_eq_unanswered_iff (m : Machine) (pending : List Number) (n : Nat) :
    (m.run pending n).ending = .unanswered .closedStream ↔
      (m.run pending n).machine.state = .inputWaiting := by
  cases hfault : (m.run pending n).fault with
  | some fault =>
    have hstate := Machine.state_run_of_fault (by rw [hfault]; exact Option.some_ne_none fault)
    rw [Run.ending, hfault, hstate]
    exact ⟨nofun, nofun⟩
  | none =>
    rw [Run.ending, hfault]
    cases (m.run pending n).machine.state with
    | stopped | running => exact ⟨nofun, nofun⟩
    | inputWaiting => exact ⟨fun _ => rfl, fun _ => rfl⟩

/-- The lines that a run reads give the numbers that it uses. -/
theorem numbersOf_read {read left : List (List Char)} (m : Machine) (n : Nat)
    (hlines : lines = read ++ left)
    (hleft : numbersOf t left = (m.run (numbersOf t lines) n).rest) :
    numbersOf t read = (numbersOf t lines).take
      ((m.run (numbersOf t lines) n).machine.inputs - m.inputs) := by
  obtain ⟨used, hused, hcount⟩ := Machine.exists_used_run m (numbersOf t lines) n
  have hread : numbersOf t lines = numbersOf t read ++ (m.run (numbersOf t lines) n).rest := by
    rw [← hleft, ← numbersOf_append, ← hlines]
  have heq : numbersOf t read = used := List.append_cancel_right (hread.symm.trans hused)
  rw [hcount, Nat.add_sub_cancel_left, heq]
  conv_rhs => rw [hused]
  rw [List.take_left]

/-- A run at a terminal with a list of lines, and the run on the numbers that these give.

One ends just when the other does.  At the end there is the same machine, and the run at the terminal
ends in the way that goes with the end of the other; in particular, it meets a closed input just when
the machine waits.  Its output is the text of the events of the run, whose printed numbers are those
that the run gives out.  The lines that it has read are those up to the one that gives the last
number that the run has used, or all of them where the machine waits.  A line without a number
leaves the machine as it is. -/
theorem run_at_terminal_follows_run (s : Settings) (m : Machine) (term : Terminal)
    (hpiped : s.piped = false) (hending : term.stdin.ending = none)
    (hlines : ∀ line ∈ term.stdin.lines, line ≠ [])
    (hprintable : ∀ n, (∀ cap ∈ s.maxSteps, n ≤ cap.toNat) →
      ∀ v ∈ (m.run (numbersOf m.numberType term.stdin.lines) n).outputs,
        Decimal.printable v.value = true) :
    let t := m.numberType
    let numbers := numbersOf t term.stdin.lines
    ((∃ turns r, run? s m term turns = some r) ↔ ∃ n, m.Completes numbers s.maxSteps n) ∧
    (∀ turns r n, run? s m term turns = some r → m.Completes numbers s.maxSteps n →
      let run := m.run numbers n
      r.machine = run.machine ∧
      r.ending = run.ending ∧
      (r.ending = .unanswered .closedStream ↔ run.machine.state = .inputWaiting) ∧
      (m.shown numbers n).filterMap Event.number? = run.outputs ∧
      r.terminal.stdout = term.stdout ++ transcript s t (m.shown numbers n) term.stdin.lines ∧
      (run.machine.state = .inputWaiting → r.terminal.stdin.lines = []) ∧
      ∃ read, term.stdin.lines = read ++ r.terminal.stdin.lines ∧
        numbersOf t read = numbers.take (run.machine.inputs - m.inputs) ∧
        (run.machine.state ≠ .inputWaiting → EndsInNumber t read)) ∧
    (∀ t', Program.Reachable t' m → ∀ n, (m.run numbers n).fault = none) ∧
    ∀ (l : Live) line rest fault, l.machine.state = .inputWaiting →
      l.terminal.stdin.lines = line :: rest → line ≠ [] →
      answerOf l.machine.numberType line = .error fault →
      turn s l = .goes
        ⟨l.steps, l.machine, l.terminal.said rest (promptText s ++ echoText line fault)⟩ := by
  intro t numbers
  have hfinishes n (hn : m.Completes numbers s.maxSteps n) :=
    finishes_of_completes hpiped hending hlines hprintable hn
  refine ⟨⟨fun ⟨turns, r, hr⟩ => ?_, fun ⟨n, hn⟩ => ?_⟩, fun turns r n hr hn => ?_,
    fun t' hm n => ?_, fun l line rest fault hl hrest hline hfault => ?_⟩
  · cases hcap : s.maxSteps with
    | none =>
      rw [hcap] at hprintable
      refine Classical.byContradiction fun hnever => ?_
      have hendless : Endless t ⟨0, m, term⟩ := {
        numberType := rfl
        ending := hending
        lines := hlines
        printable := fun n => hprintable n nofun
        goesOn := fun n => Bool.eq_false_iff.mpr fun hn => hnever ⟨n, hn⟩ }
      cases hr.symm.trans (hendless.finish?_eq_none hpiped hcap turns)
    | some cap => exact ⟨cap.toNat, rfl⟩
  · obtain ⟨turns, hturns⟩ := hfinishes n hn
    exact ⟨turns, _, hturns⟩
  · obtain rfl := Finishes.unique ⟨turns, hr⟩ (hfinishes n hn)
    have hreads := reads_run m (rfl : numbersOf t term.stdin.lines = numbers) n
    obtain ⟨read, hread, hends⟩ := hreads.through
    refine ⟨rfl, rfl, ending_eq_unanswered_iff m numbers n, m.filterMap_shown numbers n, ?_, ?_,
      read, ?_, numbersOf_read m n hread hreads.numbers, hends⟩
    · rw [stdout_closing]
      rfl
    · rw [stdin_closing]
      exact hreads.all
    · rw [stdin_closing]
      exact hread
  · obtain rfl : t = t' := hm.wellFormed.numberType
    exact (Machine.run_wellFormed hm.wellFormed (fun v hv => belongs_of_mem_numbersOf hv) n).1
  · rw [turn_of_line hl hpiped hrest hline]
    simp only [hfault]

theorem run_at_terminal_follows_run_past_a_word :
    let byte := NumberType.unsigned .bits8
    let s : Settings := ⟨false, false, some 5⟩
    let lines := ["abc\n".toList, "7\n".toList]
    let term : Terminal := .ofInput ⟨lines, none⟩
    ∃ m, Program.load (.ofType byte) byte "ip" = .ok m ∧ s.piped = false ∧
      term.stdin.ending = none ∧ (∀ line ∈ lines, line ≠ []) ∧
      (∃ turns r, run? s m term turns = some r) ∧
      ∀ turns r, run? s m term turns = some r → r.ending = .stopped ∧
        r.terminal.stdout = "> 'abc'\ninvalid decimal literal: 'abc'\n> 7\n" := by
  intro byte s lines term
  have hload : (Program.load (.ofType byte) byte "ip").isOk = true := by decide
  obtain ⟨m, hm⟩ := Outcome.exists_of_isOk hload
  have hcheck : ∀ m ∈ (Program.load (.ofType byte) byte "ip").toOption,
      (∀ n < 6, ∀ v ∈ (m.run (numbersOf m.numberType lines) n).outputs,
        Decimal.printable v.value = true) ∧
      (m.run (numbersOf m.numberType lines) 5).ending = .stopped ∧
      transcript s m.numberType (m.shown (numbersOf m.numberType lines) 5) lines =
        "> 'abc'\ninvalid decimal literal: 'abc'\n> 7\n" := by decide +kernel
  rw [hm] at hcheck
  obtain ⟨hprintable, hending, htext⟩ := hcheck m rfl
  have hlines : ∀ line ∈ lines, line ≠ [] := by decide
  obtain ⟨hends, hruns, -⟩ := run_at_terminal_follows_run s m term rfl rfl hlines
    fun n hn => hprintable n (Nat.lt_succ_of_le (hn 5 rfl))
  refine ⟨m, hm, rfl, rfl, hlines, hends.mpr ⟨5, rfl⟩, fun turns r hr => ?_⟩
  obtain ⟨-, hend, -, -, hstdout, -⟩ := hruns turns r 5 hr rfl
  exact ⟨hend.trans hending, hstdout.trans ((congrArg _ htext).trans String.empty_append)⟩

end Interpreter
end MatrixStack
