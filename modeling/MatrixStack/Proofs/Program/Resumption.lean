/-
Runs that are cut and resumed.

A run uses up its numbers from the front, one for each input that it counts (`exists_used_run`), so
the counter tells which numbers are left for the rest of a run that has been cut.  A run that waits
in vain goes on where it waits as soon as there are more numbers, and has the steps left that it has
not counted (`run_append`).
-/
import MatrixStack.Proofs.Machine.History
import MatrixStack.Proofs.Program.Faultless

namespace MatrixStack

/-- The run, continued with other numbers and further steps unless a fault has ended it. -/
def Run.resume (r : Run) (pending : List Number) (n : Nat) : Run :=
  if r.fault = none then (r.machine.run pending n).prepend r.outputs else r

theorem Run.resume_of_fault_none {r : Run} (h : r.fault = none) (pending : List Number) (n : Nat) :
    r.resume pending n = (r.machine.run pending n).prepend r.outputs := if_pos h

theorem Run.resume_prepend {r : Run} (h : r.fault = none) (outputs pending : List Number)
    (n : Nat) : (r.prepend outputs).resume pending n = (r.resume pending n).prepend outputs := by
  rw [resume_of_fault_none h, resume_of_fault_none (r := r.prepend outputs) h, prepend_prepend]
  rfl

namespace Machine

variable {m after : Machine} {pending : List Number} {n : Nat}

/-! ## Counters along a run -/

theorem inputs_step (m : Machine) : m.step.2.inputs = m.inputs := by
  have hstepped := step_stepped m
  generalize m.step = result at hstepped ⊢
  cases hstepped with
  | idle | stopped | unreadable => rfl
  | @faulted i _ _ _ _ he | @moved i _ _ _ _ he =>
    have hinputs := (execute_tallied m.counted i).inputs
    rw [he] at hinputs
    exact hinputs

/-- Only a step that stops the machine does not count itself. -/
theorem steps_step {printed : Option Number} (hs : m.state = .running)
    (h : m.step = (.ok printed, after)) (hlive : after.state ≠ .stopped) :
    after.steps = m.steps + 1 := by
  have hstepped := step_stepped m
  rw [h] at hstepped
  cases hstepped with
  | idle hidle => exact absurd hs hidle
  | stopped => exact absurd rfl hlive
  | @moved i _ _ _ _ he =>
    have hsteps := (execute_tallied m.counted i).steps
    rw [he] at hsteps
    exact hsteps

theorem steps_answer (m : Machine) (pending : List Number) :
    (m.answer pending).1.steps = m.steps := by
  by_cases h : m.state = .inputWaiting
  · cases pending with
    | nil => rw [answer_nil]
    | cons v rest => rw [answer_cons_of_waiting h, input_of_waiting h]
  · rw [answer_of_not_waiting h]

theorem exists_used_answer (m : Machine) (pending : List Number) :
    ∃ used, pending = used ++ (m.answer pending).2 ∧
      (m.answer pending).1.inputs = m.inputs + used.length := by
  by_cases h : m.state = .inputWaiting
  · cases pending with
    | nil => exact ⟨[], by rw [answer_nil]; exact ⟨rfl, rfl⟩⟩
    | cons v rest =>
      rw [answer_cons_of_waiting h, input_of_waiting h]
      exact ⟨[v], rfl, rfl⟩
  · rw [answer_of_not_waiting h]
    exact ⟨[], rfl, rfl⟩

/-- The numbers that a run uses are the first ones, as many as it counts. -/
theorem exists_used_run (m : Machine) (pending : List Number) (n : Nat) :
    ∃ used, pending = used ++ (m.run pending n).rest ∧
      (m.run pending n).machine.inputs = m.inputs + used.length := by
  induction m, pending, n using runInduction with
  | rests m pending n hrests =>
    rw [run_of_rests hrests]
    exact exists_used_answer m pending
  | faulted m pending n fault after hs hstep =>
    have hinputs := inputs_step (m.answer pending).1
    rw [hstep] at hinputs
    rw [run_succ_of_error hs hstep]
    obtain ⟨used, hused, hcount⟩ := exists_used_answer m pending
    exact ⟨used, hused, hinputs.trans hcount⟩
  | stepped m pending n printed after hs hstep ih =>
    have hinputs := inputs_step (m.answer pending).1
    rw [hstep] at hinputs
    rw [run_succ_of_ok hs hstep]
    obtain ⟨used, hused, hcount⟩ := exists_used_answer m pending
    obtain ⟨more, hmore, hcount'⟩ := ih
    refine ⟨used ++ more, ?_, ?_⟩
    · rw [List.append_assoc]
      exact hused.trans (congrArg (used ++ ·) hmore)
    · rw [Run.machine_prepend, hcount', show after.inputs = _ from hinputs, hcount,
        List.length_append, Nat.add_assoc]

theorem rest_run (m : Machine) (pending : List Number) (n : Nat) :
    (m.run pending n).rest = pending.drop ((m.run pending n).machine.inputs - m.inputs) := by
  obtain ⟨used, hused, hcount⟩ := exists_used_run m pending n
  rw [hcount, Nat.add_sub_cancel_left]
  conv_rhs => rw [hused]
  rw [List.drop_left]

/-! ## Runs that are cut -/

theorem run_add_of_fault {a : Nat} (h : (m.run pending a).fault ≠ none) (b : Nat) :
    m.run pending (a + b) = m.run pending a := by
  induction m, pending, a using runInduction with
  | rests m pending a hrests =>
    rw [run_of_rests hrests] at h
    exact absurd rfl h
  | faulted m pending a fault after hs hstep =>
    rw [Nat.succ_add, run_succ_of_error hs hstep, run_succ_of_error hs hstep]
  | stepped m pending a printed after hs hstep ih =>
    rw [run_succ_of_ok hs hstep] at h
    rw [Nat.succ_add, run_succ_of_ok hs hstep, run_succ_of_ok hs hstep, ih h]

theorem run_add_eq_resume (m : Machine) (pending : List Number) (a b : Nat) :
    m.run pending (a + b) = (m.run pending a).resume (m.run pending a).rest b := by
  by_cases h : (m.run pending a).fault = none
  · rw [run_add h, Run.resume_of_fault_none h]
  · rw [run_add_of_fault h, Run.resume, if_neg h]

/-! ## Runs that wait -/

theorem answer_append (h : (m.answer pending).1.state ≠ .inputWaiting) (more : List Number) :
    m.answer (pending ++ more) = ((m.answer pending).1, (m.answer pending).2 ++ more) := by
  by_cases hs : m.state = .inputWaiting
  · cases pending with
    | nil =>
      rw [answer_nil] at h
      exact absurd hs h
    | cons v rest => rw [List.cons_append, answer_cons_of_waiting hs, answer_cons_of_waiting hs]
  · rw [answer_of_not_waiting hs, answer_of_not_waiting hs]

theorem eq_nil_of_answer_waiting (h : (m.answer pending).1.state = .inputWaiting) :
    pending = [] := by
  cases pending with
  | nil => rfl
  | cons v rest =>
    by_cases hs : m.state = .inputWaiting
    · rw [answer_cons_of_waiting hs, state_input_of_waiting hs] at h
      cases h
    · rw [answer_of_not_waiting hs] at h
      exact absurd h hs

theorem rest_run_of_waiting (h : (m.run pending n).machine.state = .inputWaiting) :
    (m.run pending n).rest = [] := by
  induction m, pending, n using runInduction with
  | rests m pending n hrests =>
    rw [run_of_rests hrests] at h ⊢
    obtain rfl := eq_nil_of_answer_waiting h
    rw [answer_nil]
  | faulted m pending n fault after hs hstep =>
    rw [run_succ_of_error hs hstep] at h
    have hstate := (state_of_step_error hstep).trans hs
    rw [show after.state = _ from h] at hstate
    cases hstate
  | stepped m pending n printed after hs hstep ih =>
    rw [run_succ_of_ok hs hstep] at h ⊢
    exact ih h

/-- A run that has ended by itself is the same with more steps. -/
theorem run_add_of_ended {a : Nat} (h : ended (m.run pending a) = true) (b : Nat) :
    m.run pending (a + b) = m.run pending a := by
  by_cases hfault : (m.run pending a).fault = none
  · have hidle : (m.run pending a).machine.state ≠ .running := by
      rw [ended, hfault] at h
      exact of_decide_eq_true h
    have hanswer : (m.run pending a).machine.answer (m.run pending a).rest =
        ((m.run pending a).machine, (m.run pending a).rest) := by
      by_cases hwaits : (m.run pending a).machine.state = .inputWaiting
      · rw [rest_run_of_waiting hwaits, answer_nil]
      · exact answer_of_not_waiting hwaits _
    have hstay : (m.run pending a).machine.run (m.run pending a).rest b =
        ⟨[], (m.run pending a).machine, (m.run pending a).rest, none⟩ := by
      rw [run_of_not_running (by rw [hanswer]; exact hidle), hanswer]
    rw [run_add hfault, hstay]
    generalize m.run pending a = r at hfault ⊢
    cases r
    cases hfault
    exact congrArg (Run.mk · _ _ none) (List.append_nil _)
  · exact run_add_of_fault hfault b

theorem count_step_answerCalls (m : Machine) (pending : List Number) :
    (m.answerCalls pending).count .step = 0 := by
  unfold answerCalls
  split
  · cases pending <;> rfl
  · rfl

/-- A run that waits in vain goes on with further numbers where it waits; all its steps are
counted. -/
theorem run_append (h : (m.run pending n).machine.state = .inputWaiting) (more : List Number) :
    let executed := (m.runCalls pending n).count .step
    (m.run pending n).machine.steps = m.steps + executed ∧
      m.run (pending ++ more) n = (m.run pending n).resume more (n - executed) := by
  induction m, pending, n using runInduction with
  | rests m pending n hrests =>
    rw [runCalls_of_rests hrests, count_step_answerCalls]
    rw [run_of_rests hrests] at h ⊢
    obtain rfl := eq_nil_of_answer_waiting h
    rw [answer_nil]
    exact ⟨rfl, rfl⟩
  | faulted m pending n fault after hs hstep =>
    have hstate := state_of_step_error hstep
    rw [run_succ_of_error hs hstep] at h
    rw [hs, show after.state = _ from h] at hstate
    cases hstate
  | stepped m pending n printed after hs hstep ih =>
    rw [run_succ_of_ok hs hstep] at h ⊢
    have hwaits : (after.run (m.answer pending).2 n).machine.state = .inputWaiting := h
    have hlive : after.state ≠ .stopped := by
      intro hstopped
      rw [run_of_stopped hstopped] at hwaits
      cases hstopped.symm.trans hwaits
    have hfault := fault_run_of_state (by rw [hwaits]; decide)
    have hanswer : m.answer (pending ++ more) =
        ((m.answer pending).1, (m.answer pending).2 ++ more) :=
      answer_append (by rw [hs]; decide) more
    obtain ⟨hsteps, hrun⟩ := ih hwaits
    rw [runCalls_succ_of_ok hs hstep, List.count_append, count_step_answerCalls,
      List.count_cons_self, Nat.zero_add]
    constructor
    · rw [Run.machine_prepend, hsteps, steps_step hs hstep hlive, steps_answer]
      omega
    · rw [run_succ_of_ok (by rw [hanswer]; exact hs) (by rw [hanswer]; exact hstep), hanswer,
        Run.resume_prepend hfault, Nat.add_sub_add_right, ← hrun]

end Machine

namespace Program

/-- A run of `a + b` steps is a run of `a` steps that is resumed for `b` steps with the numbers that
it has not counted as inputs.  A run that waits at its end is resumed by further numbers, with the
steps that it has not executed, as if these had been there from the start.  Runs of reachable
machines meet no fault. -/
theorem run_cut_and_resumed (m : Machine) (pending : List Number) :
    (∀ a b, m.run pending (a + b) =
      (m.run pending a).resume (pending.drop ((m.run pending a).machine.inputs - m.inputs)) b) ∧
    (∀ more n, (m.run pending n).machine.state = .inputWaiting →
      let executed := (m.runCalls pending n).count .step
      (m.run pending n).machine.steps = m.steps + executed ∧
        m.run (pending ++ more) n = (m.run pending n).resume more (n - executed)) ∧
    ∀ t, Reachable t m → (∀ v ∈ pending, v.Belongs t) → ∀ n, (m.run pending n).fault = none := by
  refine ⟨fun a b => ?_, fun more n hwaits => ?_, fun t hm hpending n => ?_⟩
  · rw [Machine.run_add_eq_resume, Machine.rest_run]
  · exact Machine.run_append hwaits more
  · exact (Machine.run_wellFormed hm.wellFormed hpending n).1

theorem run_cut_and_resumed_at_a_request :
    let byte := NumberType.unsigned .bits8
    let three : Number := ⟨byte, 3⟩
    let four : Number := ⟨byte, 4⟩
    ∃ m, load (.ofType byte) byte "ipip" = .ok m ∧ Reachable byte m ∧
      (m.run [three] 9).machine.state = .inputWaiting ∧
      m.run [three, four] 9 = (m.run [three] 9).resume [four] 6 ∧
      (m.run [three] 9).fault = none := by
  intro byte three four
  have hload : (load (.ofType byte) byte "ipip").isOk = true := by decide
  obtain ⟨m, hm⟩ := Outcome.exists_of_isOk hload
  have hreachable : Reachable byte m := ⟨m, [], .grown _ hm, nofun, rfl⟩
  have hcheck : ∀ m ∈ (load (.ofType byte) byte "ipip").toOption,
      (m.run [three] 9).machine.state = .inputWaiting ∧
        (m.runCalls [three] 9).count .step = 3 := by decide
  rw [hm] at hcheck
  obtain ⟨hwaits, hexecuted⟩ := hcheck m rfl
  obtain ⟨-, happend, hfault⟩ := run_cut_and_resumed m [three]
  have hrun := (happend [four] 9 hwaits).2
  rw [hexecuted] at hrun
  exact ⟨m, hm, hreachable, hwaits, hrun, hfault byte hreachable (by decide) 9⟩

end Program
end MatrixStack
