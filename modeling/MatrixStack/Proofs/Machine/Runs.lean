/-
Runs, cut and continued.

A run can be cut after any number of steps and continued from where it was cut (`run_add`), and a
run that has stopped is the same for every greater number of steps (`run_of_stopped_le`).  `events`
is what a run shows to the outside: the numbers that it prints and the numbers that it asks for, in
order; the printed ones are the outputs of the run (`filterMap_events`).
-/
import MatrixStack.Machine.Run
import MatrixStack.Proofs.Machine.Step

namespace MatrixStack

inductive Event where
  | printed (v : Number)
  | requested
  deriving DecidableEq

/-- The printed number, if the event is one. -/
def Event.number? : Event → Option Number
  | .printed v => some v
  | .requested => none

/-- The run after some numbers that have been printed before it. -/
def Run.prepend (outputs : List Number) (r : Run) : Run :=
  { r with outputs := outputs ++ r.outputs }

theorem Run.machine_prepend (r : Run) (outputs : List Number) :
    (r.prepend outputs).machine = r.machine := rfl

theorem Run.prepend_nil (r : Run) : r.prepend [] = r := rfl

theorem Run.prepend_prepend (r : Run) (xs ys : List Number) :
    (r.prepend ys).prepend xs = r.prepend (xs ++ ys) := by
  unfold Run.prepend
  rw [List.append_assoc]

namespace Machine

/-- What one step shows: the number that it printed, and whether the machine waits after it. -/
def stepEvents (printed : Option Number) (after : State) : List Event :=
  printed.toList.map .printed ++ if after = .inputWaiting then [.requested] else []

/-- The events of a run of at most the given number of steps. -/
def events (m : Machine) (pending : List Number) : Nat → List Event
  | 0 => []
  | n + 1 =>
    let (m, rest) := m.answer pending
    if m.state = .running then
      match m.step with
      | (.ok printed, after) => stepEvents printed after.state ++ events after rest n
      | (.error _, _) => []
    else []

variable {m after : Machine} {pending : List Number}

/-! ## One turn of a run -/

theorem answer_of_not_waiting (h : m.state ≠ .inputWaiting) (pending : List Number) :
    m.answer pending = (m, pending) := by
  unfold answer
  rw [if_neg h]

theorem answer_nil (m : Machine) : m.answer [] = (m, []) := by
  unfold answer
  split <;> rfl

theorem answer_cons_of_waiting (h : m.state = .inputWaiting) (v : Number) (rest : List Number) :
    m.answer (v :: rest) = (m.input v, rest) := by
  unfold answer
  rw [if_pos h]

theorem state_input_of_waiting (h : m.state = .inputWaiting) (v : Number) :
    (m.input v).state = .running := by
  rw [input_of_waiting h]

theorem answer_answer (m : Machine) (pending : List Number) :
    (m.answer pending).1.answer (m.answer pending).2 = m.answer pending := by
  by_cases h : m.state = .inputWaiting
  · cases pending with
    | nil => rw [answer_nil, answer_nil]
    | cons v rest =>
      have hrunning := state_input_of_waiting h v
      rw [answer_cons_of_waiting h, answer_of_not_waiting (by rw [hrunning]; decide)]
  · rw [answer_of_not_waiting h, answer_of_not_waiting h]

theorem run_zero (m : Machine) (pending : List Number) :
    m.run pending 0 = ⟨[], (m.answer pending).1, (m.answer pending).2, none⟩ := rfl

theorem run_of_not_running (h : (m.answer pending).1.state ≠ .running) (n : Nat) :
    m.run pending n = ⟨[], (m.answer pending).1, (m.answer pending).2, none⟩ := by
  cases n with
  | zero => rfl
  | succ n =>
    rw [run, runFrom]
    simp only
    rw [if_neg h]
    rfl

theorem run_succ_of_ok {printed : Option Number} (h : (m.answer pending).1.state = .running)
    (hstep : (m.answer pending).1.step = (.ok printed, after)) (n : Nat) :
    m.run pending (n + 1) = (after.run (m.answer pending).2 n).prepend printed.toList := by
  rw [run, runFrom]
  simp only
  rw [if_pos h, hstep]
  cases printed with
  | none => rfl
  | some v =>
    show runFrom [v] after (m.answer pending).2 n = _
    rw [runFrom_eq]
    rfl

theorem run_succ_of_error {fault : Fault} (h : (m.answer pending).1.state = .running)
    (hstep : (m.answer pending).1.step = (.error fault, after)) (n : Nat) :
    m.run pending (n + 1) = ⟨[], after, (m.answer pending).2, some fault⟩ := by
  rw [run, runFrom]
  simp only
  rw [if_pos h, hstep]
  rfl

theorem run_answer (m : Machine) (pending : List Number) (n : Nat) :
    (m.answer pending).1.run (m.answer pending).2 n = m.run pending n := by
  have hanswer := answer_answer m pending
  by_cases h : (m.answer pending).1.state = .running
  · cases n with
    | zero => rw [run_zero, run_zero, hanswer]
    | succ n =>
      have h' : ((m.answer pending).1.answer (m.answer pending).2).1.state = .running := by
        rw [hanswer]
        exact h
      rcases hstep : (m.answer pending).1.step with ⟨fault | printed, after⟩
      · rw [run_succ_of_error h hstep, run_succ_of_error h' (by rw [hanswer]; exact hstep), hanswer]
      · rw [run_succ_of_ok h hstep, run_succ_of_ok h' (by rw [hanswer]; exact hstep), hanswer]
  · rw [run_of_not_running h, run_of_not_running (by rw [hanswer]; exact h), hanswer]

theorem events_of_not_running (h : (m.answer pending).1.state ≠ .running) (n : Nat) :
    m.events pending n = [] := by
  cases n with
  | zero => rfl
  | succ n =>
    rw [events]
    simp only
    rw [if_neg h]

theorem events_succ_of_ok {printed : Option Number} (h : (m.answer pending).1.state = .running)
    (hstep : (m.answer pending).1.step = (.ok printed, after)) (n : Nat) :
    m.events pending (n + 1) =
      stepEvents printed after.state ++ after.events (m.answer pending).2 n := by
  rw [events]
  simp only
  rw [if_pos h, hstep]

theorem events_succ_of_error {fault : Fault} (h : (m.answer pending).1.state = .running)
    (hstep : (m.answer pending).1.step = (.error fault, after)) (n : Nat) :
    m.events pending (n + 1) = [] := by
  rw [events]
  simp only
  rw [if_pos h, hstep]

/-! ## Induction over runs -/

/-- No step is taken: none is allowed, or the machine does not run even with an answer. -/
def Rests (m : Machine) (pending : List Number) (n : Nat) : Prop :=
  n = 0 ∨ (m.answer pending).1.state ≠ .running

theorem run_of_rests {n : Nat} (h : m.Rests pending n) :
    m.run pending n = ⟨[], (m.answer pending).1, (m.answer pending).2, none⟩ := by
  rcases h with rfl | h
  · exact run_zero m pending
  · exact run_of_not_running h n

theorem events_of_rests {n : Nat} (h : m.Rests pending n) : m.events pending n = [] := by
  rcases h with rfl | h
  · rfl
  · exact events_of_not_running h n

/-- A run rests, or it begins with a step that ends it in a fault, or with a step after which it goes
on. -/
theorem runInduction {motive : Machine → List Number → Nat → Prop}
    (rests : ∀ m pending n, m.Rests pending n → motive m pending n)
    (faulted : ∀ m pending n fault after, (m.answer pending).1.state = .running →
      (m.answer pending).1.step = (.error fault, after) → motive m pending (n + 1))
    (stepped : ∀ m pending n printed after, (m.answer pending).1.state = .running →
      (m.answer pending).1.step = (.ok printed, after) → motive after (m.answer pending).2 n →
      motive m pending (n + 1))
    (m : Machine) (pending : List Number) (n : Nat) : motive m pending n := by
  induction n generalizing m pending with
  | zero => exact rests m pending 0 (.inl rfl)
  | succ n ih =>
    by_cases hs : (m.answer pending).1.state = .running
    · rcases hstep : (m.answer pending).1.step with ⟨fault | printed, after⟩
      · exact faulted m pending n fault after hs hstep
      · exact stepped m pending n printed after hs hstep (ih after _)
    · exact rests m pending (n + 1) (.inr hs)

/-! ## Cutting a run -/

theorem run_add {a : Nat} (h : (m.run pending a).fault = none) (b : Nat) :
    m.run pending (a + b) =
      ((m.run pending a).machine.run (m.run pending a).rest b).prepend
        (m.run pending a).outputs := by
  induction m, pending, a using runInduction with
  | rests m pending a hrests =>
    rw [run_of_rests hrests, run_answer, Run.prepend_nil]
    rcases hrests with rfl | hs
    · rw [Nat.zero_add]
    · rw [run_of_not_running hs, run_of_not_running hs]
  | faulted m pending a fault after hs hstep =>
    rw [run_succ_of_error hs hstep] at h
    cases h
  | stepped m pending a printed after hs hstep ih =>
    rw [run_succ_of_ok hs hstep] at h
    rw [Nat.succ_add, run_succ_of_ok hs hstep, run_succ_of_ok hs hstep, ih h]
    exact Run.prepend_prepend _ _ _

theorem run_of_stopped (h : m.state = .stopped) (pending : List Number) (n : Nat) :
    m.run pending n = ⟨[], m, pending, none⟩ := by
  have hanswer := answer_of_not_waiting (m := m) (by rw [h]; decide) pending
  rw [run_of_not_running (by rw [hanswer, h]; decide), hanswer]

/-- A fault leaves the machine running, so a run that ends in any other machine had none. -/
theorem state_run_of_fault {n : Nat} (h : (m.run pending n).fault ≠ none) :
    (m.run pending n).machine.state = .running := by
  induction m, pending, n using runInduction with
  | rests m pending n hrests =>
    rw [run_of_rests hrests] at h
    exact absurd rfl h
  | faulted m pending n fault after hs hstep =>
    rw [run_succ_of_error hs hstep]
    exact (state_of_step_error hstep).trans hs
  | stepped m pending n printed after hs hstep ih =>
    rw [run_succ_of_ok hs hstep] at h ⊢
    exact ih h

theorem fault_run_of_state {n : Nat} (h : (m.run pending n).machine.state ≠ .running) :
    (m.run pending n).fault = none :=
  Decidable.of_not_not fun hfault => h (state_run_of_fault hfault)

theorem run_of_stopped_le {n k : Nat} (h : (m.run pending n).machine.state = .stopped)
    (hle : n ≤ k) : (m.run pending k).machine = (m.run pending n).machine := by
  obtain ⟨d, rfl⟩ := Nat.exists_eq_add_of_le hle
  have hfault : (m.run pending n).fault = none := fault_run_of_state (by rw [h]; decide)
  rw [run_add hfault d, Run.machine_prepend, run_of_stopped h]

/-- The printed numbers among the events are the outputs of the run. -/
theorem filterMap_events (m : Machine) (pending : List Number) (n : Nat) :
    (m.events pending n).filterMap Event.number? = (m.run pending n).outputs := by
  induction m, pending, n using runInduction with
  | rests m pending n hrests =>
    rw [events_of_rests hrests, run_of_rests hrests]
    rfl
  | faulted m pending n fault after hs hstep =>
    rw [events_succ_of_error hs hstep, run_succ_of_error hs hstep]
    rfl
  | stepped m pending n printed after hs hstep ih =>
    have hprinted : (stepEvents printed after.state).filterMap Event.number? = printed.toList := by
      cases printed <;> cases after.state <;> rfl
    rw [events_succ_of_ok hs hstep, run_succ_of_ok hs hstep, List.filterMap_append, ih, hprinted]
    rfl

end Machine
end MatrixStack
