/-
Runs without numbers.

A machine that is given no numbers runs until it stops, asks for a number, or has used up its steps.
It shows the numbers that it prints and, where it waits at the end, one request (`shown_nil`), it
takes no input (`inputs_run_nil`), and it waits just when it has executed the instruction that asks
(`asks_iff`).
-/
import MatrixStack.Proofs.Interpreter.Dialogue
import MatrixStack.Proofs.Program.Counters

namespace MatrixStack
namespace Machine

variable {m : Machine} {n : Nat}

/-- The machine executes the instruction within so many steps. -/
def Executes (m : Machine) (i : Instruction) (n : Nat) : Prop :=
  ∃ e ∈ m.history (List.replicate n .step), e.instruction = i

/-- The machine executes the instruction that asks for a number, within the allowed steps. -/
def Asks (m : Machine) (maxSteps : Option Int) : Prop :=
  ∃ n, (∀ cap ∈ maxSteps, n ≤ cap.toNat) ∧ m.Executes (.exchange .input) n

/-! ## Steps of a run -/

theorem run_nil_zero (m : Machine) : m.run [] 0 = ⟨[], m, [], none⟩ := by
  rw [run_zero, answer_nil]

theorem run_nil_of_idle (h : m.state ≠ .running) (n : Nat) : m.run [] n = ⟨[], m, [], none⟩ := by
  rw [run_of_not_running (by rwa [answer_nil]), answer_nil]

theorem run_nil_one {printed : Option Number} {after : Machine} (hs : m.state = .running)
    (hstep : m.step = (.ok printed, after)) :
    m.run [] 1 = ⟨printed.toList, after, [], none⟩ := by
  rw [run_succ_of_ok (by rwa [answer_nil]) (by rwa [answer_nil]), answer_nil, run_nil_zero]
  show Run.mk (printed.toList ++ []) after [] none = _
  rw [List.append_nil]

theorem rest_run_nil (m : Machine) (n : Nat) : (m.run [] n).rest = [] := by
  rw [rest_run, List.drop_nil]

/-- A run without numbers goes on where it has come to. -/
theorem run_nil_add {a : Nat} (h : (m.run [] a).fault = none) (b : Nat) :
    m.run [] (a + b) = ((m.run [] a).machine.run [] b).prepend (m.run [] a).outputs := by
  rw [run_add h, rest_run_nil]

theorem run_nil_succ (h : (m.run [] 1).fault = none) (n : Nat) :
    m.run [] (n + 1) = ((m.run [] 1).machine.run [] n).prepend (m.run [] 1).outputs := by
  rw [Nat.add_comm, run_nil_add h]

/-- A run that does not go on after its first step is the run of this step. -/
theorem run_nil_succ_of_idle (h : (m.run [] 1).machine.state ≠ .running) (n : Nat) :
    m.run [] (n + 1) = m.run [] 1 := by
  have hfault := fault_run_of_state h
  have hrest : (m.run [] 1).rest = [] := rest_run_nil m 1
  rw [run_nil_succ hfault n, run_nil_of_idle h]
  generalize m.run [] 1 = r at hfault hrest ⊢
  cases r
  cases hfault
  cases hrest
  exact congrArg (Run.mk · _ [] none) (List.append_nil _)

/-- A run that does not go on at its end has the same machine for more steps. -/
theorem machine_run_nil_of_le {k : Nat} (h : (m.run [] n).machine.state ≠ .running) (hle : n ≤ k) :
    (m.run [] k).machine = (m.run [] n).machine := by
  obtain ⟨d, rfl⟩ := Nat.exists_eq_add_of_le hle
  rw [run_nil_add (fault_run_of_state h), Run.machine_prepend, run_nil_of_idle h]

theorem run_nil_wellFormed {t : NumberType} (hm : m.WellFormed t) (n : Nat) :
    (m.run [] n).fault = none ∧ (m.run [] n).machine.WellFormed t :=
  run_wellFormed hm (fun _ hv => absurd hv List.not_mem_nil) n

/-! ## What a run shows -/

theorem shown_nil (m : Machine) (n : Nat) :
    m.shown [] n = (m.run [] n).outputs.map .printed ++ (m.run [] n).machine.opening := by
  induction n generalizing m with
  | zero =>
    rw [shown_of_rests (.inl rfl), run_zero, answer_nil]
    rfl
  | succ n ih =>
    by_cases hs : (m.answer []).1.state = .running
    · have hm : m.state = .running := by rwa [answer_nil] at hs
      have hopening : m.opening = [] := opening_of_not_waiting (by rw [hm]; decide)
      rcases hstep : (m.answer []).1.step with ⟨fault | printed, after⟩
      · have hafter : after.state = .running := (state_of_step_error hstep).trans hs
        rw [shown_succ_of_error hs hstep, run_succ_of_error hs hstep, hopening,
          opening_of_not_waiting (by rw [hafter]; decide)]
        rfl
      · rw [shown_succ_of_ok hs hstep, run_succ_of_ok hs hstep, hopening]
        rw [answer_nil]
        rw [ih after, List.nil_append, ← List.append_assoc, ← List.map_append]
        rfl
    · rw [shown_of_rests (.inr hs), run_of_not_running hs, answer_nil]
      rfl

theorem inputs_run_nil (m : Machine) (n : Nat) : (m.run [] n).machine.inputs = m.inputs := by
  obtain ⟨used, hused, hcount⟩ := exists_used_run m [] n
  obtain rfl : used = [] := (List.append_eq_nil_iff.mp hused.symm).1
  exact hcount

/-! ## What a run executes -/

theorem history_steps_of_not_running (h : m.state ≠ .running) (n : Nat) :
    m.history (List.replicate n .step) = [] := by
  induction n with
  | zero => rfl
  | succ n ih =>
    rw [List.replicate_succ, history, nextExecution_of_none (next?_of_not_running h),
      step_of_not_running h, ih]
    rfl

/-- A run without numbers executes what so many steps execute. -/
theorem history_runCalls_nil (h : (m.run [] n).fault = none) :
    m.history (m.runCalls [] n) = m.history (List.replicate n .step) := by
  induction n generalizing m with
  | zero =>
    rw [runCalls_of_rests (.inl rfl), history_answerCalls]
    rfl
  | succ n ih =>
    by_cases hs : (m.answer []).1.state = .running
    · rcases hstep : (m.answer []).1.step with ⟨fault | printed, after⟩
      · rw [run_succ_of_error hs hstep] at h
        cases h
      · rw [run_succ_of_ok hs hstep, answer_nil] at h
        rw [runCalls_succ_of_ok hs hstep, history_answerCalls_step, hstep, answer_nil, ih h,
          List.replicate_succ, history]
        rw [answer_nil] at hstep
        rw [hstep]
    · rw [runCalls_of_rests (.inr hs), history_answerCalls]
      rw [answer_nil] at hs
      exact (history_steps_of_not_running hs (n + 1)).symm

theorem executes_iff_count {i : Instruction} (h : (m.run [] n).fault = none) :
    m.Executes i n ↔ 0 < Execution.count i (m.history (m.runCalls [] n)) := by
  rw [history_runCalls_nil h, Execution.count, List.count_pos_iff, List.mem_map]
  exact Iff.rfl

end Machine

namespace Program

variable {conv : Converters} {t : NumberType} {m : Machine} {n : Nat}

theorem Loaded.inputs (h : Loaded conv t m) : m.inputs = 0 := by
  obtain ⟨_, _, _, -, -, hlaid⟩ := h.laidOut
  rw [hlaid.fresh]
  rfl

theorem Loaded.executes_input_iff (h : Loaded conv t m) (hfault : (m.run [] n).fault = none) :
    m.Executes (.exchange .input) n ↔ (m.run [] n).machine.state = .inputWaiting := by
  obtain ⟨-, -, hinputs⟩ := h.accounts (m.runCalls [] n)
  rw [Machine.after_runCalls, Machine.inputs_run_nil, h.inputs] at hinputs
  rw [Machine.executes_iff_count hfault, ← hinputs, Nat.zero_add, Machine.openRequests]
  by_cases hs : (m.run [] n).machine.state = .inputWaiting
  · rw [if_pos hs]
    exact ⟨fun _ => hs, fun _ => Nat.one_pos⟩
  · rw [if_neg hs]
    exact ⟨fun h => absurd h (Nat.lt_irrefl 0), fun h => absurd h hs⟩

/-- A loaded program asks for a number just when its complete run waits for one. -/
theorem Loaded.asks_iff (h : Loaded (.ofType t) t m) {maxSteps : Option Int}
    (hn : m.Completes [] maxSteps n) :
    m.Asks maxSteps ↔ (m.run [] n).machine.state = .inputWaiting := by
  have hfault n : (m.run [] n).fault = none := (Machine.run_nil_wellFormed h.wellFormed n).1
  constructor
  · rintro ⟨k, hk, hexecutes⟩
    have hwaits := (h.executes_input_iff (hfault k)).mp hexecutes
    have hidle : (m.run [] k).machine.state ≠ .running := by
      rw [hwaits]
      decide
    rcases Nat.le_total k n with hle | hle
    · rw [Machine.machine_run_nil_of_le hidle hle]
      exact hwaits
    · -- The run has ended by itself, or `k` is the number of steps that the cap allows as well.
      cases maxSteps with
      | some cap =>
        obtain rfl : k = n := Nat.le_antisymm (Nat.le_trans (hk cap rfl) (Nat.le_of_eq hn.symm)) hle
        exact hwaits
      | none =>
        have hended : (m.run [] n).machine.state ≠ .running := by
          rw [Machine.Completes, Machine.ended, hfault n] at hn
          exact of_decide_eq_true hn
        rw [← Machine.machine_run_nil_of_le hended hle]
        exact hwaits
  · intro hwaits
    refine ⟨n, fun cap hcap => ?_, (h.executes_input_iff (hfault n)).mpr hwaits⟩
    rw [Option.mem_def.mp hcap] at hn
    exact Nat.le_of_eq hn

end Program
end MatrixStack
