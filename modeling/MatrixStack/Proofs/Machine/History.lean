/-
What a machine has executed, and what its counters tell of it.

`history` keeps every instruction that a sequence of calls executes, together with the machine that
executes it.  On a grid without texts each call changes the counters by just what it adds to the
history, and so does every sequence of calls (`accounts_after`); the numbers that are given out are
the registers of the machines that print (`given_eq`).  A run adds no more to the history than the
steps that it is allowed (`length_history_run_le`).
-/
import MatrixStack.Proofs.Machine.Requests

namespace MatrixStack

/-- An instruction that is executed, and the machine that is about to execute it. -/
structure Execution where
  machine : Machine
  instruction : Instruction

/-- The registers of the machines that print. -/
def Execution.printed (es : List Execution) : List Number :=
  (es.filter fun e => e.instruction = .exchange .print).map fun e => e.machine.register

/-- The number of times that an instruction is executed. -/
def Execution.count (i : Instruction) (es : List Execution) : Nat :=
  (es.map Execution.instruction).count i

namespace Execution

theorem printed_append (es fs : List Execution) :
    printed (es ++ fs) = printed es ++ printed fs := by
  unfold printed
  rw [List.filter_append, List.map_append]

theorem count_append (i : Instruction) (es fs : List Execution) :
    count i (es ++ fs) = count i es + count i fs := by
  unfold count
  rw [List.map_append, List.count_append]

theorem length_printed (es : List Execution) :
    (printed es).length = count (.exchange .print) es := by
  unfold printed count List.count
  rw [List.length_map, List.countP_map, List.countP_eq_length_filter]
  rfl

theorem count_add_count_le {i j : Instruction} (h : i ≠ j) (es : List Execution) :
    count i es + count j es ≤ es.length := by
  unfold count
  induction es with
  | nil => exact Nat.le_refl 0
  | cons e es ih =>
    rw [List.map_cons, List.count_cons, List.count_cons, List.length_cons]
    by_cases hi : e.instruction = i
    · have hj : e.instruction ≠ j := by
        rw [hi]
        exact h
      simp only [beq_iff_eq, hi, if_true, if_neg (hi ▸ hj)]
      omega
    · simp only [beq_iff_eq, if_neg hi]
      split <;> omega

end Execution

namespace Machine

variable {m m' m'' : Machine} {pending : List Number} {n : Nat} {es fs : List Execution}

/-- The instruction that the next step executes. -/
def next? (m : Machine) : Option Instruction :=
  match m.state, m.current? with
  | .running, some (.instruction i) => some i
  | _, _ => none

/-- The execution of the next step, if there is one. -/
def nextExecution (m : Machine) : List Execution :=
  match m.next? with
  | none => []
  | some i => [⟨m, i⟩]

/-- The executions of a sequence of calls, in order. -/
def history (m : Machine) : List Call → List Execution
  | [] => []
  | .step :: cs => m.nextExecution ++ history m.step.2 cs
  | .input v :: cs => history (m.input v) cs

/-- The number of requests that have no answer yet. -/
def openRequests (m : Machine) : Nat := if m.state = .inputWaiting then 1 else 0

/-- No cell of the grid holds an object that is no instruction. -/
def NoForeign (m : Machine) : Prop := ∀ p o, m.grid.get? p ≠ some (.foreign o)

theorem history_append (m : Machine) (cs ds : List Call) :
    m.history (cs ++ ds) = m.history cs ++ (m.after cs).history ds := by
  induction cs generalizing m with
  | nil => rfl
  | cons c cs ih =>
    cases c with
    | step =>
      rw [List.cons_append, history, history, ih, List.append_assoc]
      rfl
    | input v => exact ih (m.input v)

/-! ## One call -/

theorem nextExecution_of_none (h : m.next? = none) : m.nextExecution = [] := by
  rw [nextExecution, h]

theorem nextExecution_of_some {i : Instruction} (h : m.next? = some i) :
    m.nextExecution = [⟨m, i⟩] := by
  rw [nextExecution, h]

theorem length_nextExecution_le (m : Machine) : m.nextExecution.length ≤ 1 := by
  unfold nextExecution
  split
  · exact Nat.zero_le 1
  · exact Nat.le_refl 1

theorem next?_of_not_running (h : m.state ≠ .running) : m.next? = none := by
  unfold next?
  cases hs : m.state with
  | running => exact absurd hs h
  | stopped | inputWaiting => rfl

theorem next?_of_current?_none (h : m.current? = none) : m.next? = none := by
  unfold next?
  rw [h]
  cases m.state <;> rfl

theorem next?_of_foreign {o : Foreign} (h : m.current? = some (.foreign o)) : m.next? = none := by
  unfold next?
  rw [h]
  cases m.state <;> rfl

theorem next?_of_instruction {i : Instruction} (hs : m.state = .running)
    (h : m.current? = some (.instruction i)) : m.next? = some i := by
  unfold next?
  rw [hs, h]

theorem next?_eq_some_iff {i : Instruction} :
    m.next? = some i ↔ m.state = .running ∧ m.current? = some (.instruction i) := by
  refine ⟨fun h => ?_, fun h => next?_of_instruction h.1 h.2⟩
  unfold next? at h
  split at h
  case h_1 hs hc =>
    obtain rfl := Option.some.inj h
    exact ⟨hs, hc⟩
  case h_2 => cases h

theorem NoForeign.current? (h : m.NoForeign) (o : Foreign) : m.current? ≠ some (.foreign o) := by
  have hcell := h m.pointer o
  unfold Machine.current?
  split
  case h_1 | h_2 => exact nofun
  case h_3 cell _ hget =>
    rw [hget] at hcell
    exact hcell

/-- An instruction leaves the counters alone, except that a print counts its output, and it leaves
the state alone, except that a request waits.  Only a print gives out a number, the register. -/
structure Tallied (m : Machine) (i : Instruction) (result : Answer × Machine) : Prop where
  steps : result.2.steps = m.steps
  inputs : result.2.inputs = m.inputs
  outputs : result.2.outputs = m.outputs + if i = .exchange .print then 1 else 0
  state : result.2.state = if i = .exchange .input then .inputWaiting else m.state
  printed : Answer.printed? result.1 = if i = .exchange .print then some m.register else none

theorem execute_tallied (m : Machine) (i : Instruction) : m.Tallied i (m.execute i) := by
  cases i with
  | blank | deflector d => exact ⟨rfl, rfl, rfl, rfl, rfl⟩
  | operator o =>
    cases h : m.currentStack? with
    | none =>
      rw [execute_operator_of_none h]
      exact ⟨rfl, rfl, rfl, rfl, rfl⟩
    | some s =>
      rw [execute_operator h]
      cases (o.apply m.numberType m.register s).1 <;> exact ⟨rfl, rfl, rfl, rfl, rfl⟩
  | comparator c =>
    cases h : m.currentStack? with
    | none =>
      rw [execute_comparator_of_none h]
      exact ⟨rfl, rfl, rfl, rfl, rfl⟩
    | some s =>
      rw [execute_comparator h]
      cases (c.apply m.numberType m.register s m.direction).1 <;> exact ⟨rfl, rfl, rfl, rfl, rfl⟩
  | exchange e => cases e <;> exact ⟨rfl, rfl, rfl, rfl, rfl⟩

theorem printed?_step (m : Machine) :
    Answer.printed? m.step.1 =
      if m.next? = some (.exchange .print) then some m.register else none := by
  have hstepped := step_stepped m
  generalize m.step = result at hstepped ⊢
  cases hstepped with
  | idle hs => rw [next?_of_not_running hs]; rfl
  | stopped hs hc => rw [next?_of_current?_none hc]; rfl
  | unreadable hs hc => rw [next?_of_foreign hc]; rfl
  | @faulted i _ _ hs hc he | @moved i _ _ hs hc he =>
    have hprinted := (execute_tallied m.counted i).printed
    rw [he] at hprinted
    rw [next?_of_instruction hs hc]
    simp only [Option.some.injEq]
    exact hprinted

/-- The counters of the second machine are those of the first and what the executions add to them. -/
structure Accounts (m : Machine) (es : List Execution) (m' : Machine) : Prop where
  steps : m'.steps = m.steps + es.length
  outputs : m'.outputs = m.outputs + Execution.count (.exchange .print) es
  inputs : m'.inputs + m'.openRequests =
    m.inputs + m.openRequests + Execution.count (.exchange .input) es

theorem accounts_refl (m : Machine) : m.Accounts [] m := ⟨rfl, rfl, rfl⟩

theorem Accounts.trans (h : m.Accounts es m') (h' : m'.Accounts fs m'') :
    m.Accounts (es ++ fs) m'' where
  steps := by rw [h'.steps, h.steps, List.length_append, Nat.add_assoc]
  outputs := by rw [h'.outputs, h.outputs, Execution.count_append, Nat.add_assoc]
  inputs := by rw [h'.inputs, h.inputs, Execution.count_append, Nat.add_assoc]

theorem accounts_of_tallied {i : Instruction} {result : Answer × Machine}
    (hs : m.state = .running) (h : m.counted.Tallied i result) :
    m.Accounts [⟨m, i⟩] result.2 where
  steps := h.steps
  outputs := by
    rw [h.outputs]
    show m.outputs + _ = m.outputs + [i].count _
    rw [List.count_singleton]
    simp only [beq_iff_eq]
  inputs := by
    have hstate := h.state
    rw [show m.counted.state = m.state from rfl, hs] at hstate
    rw [h.inputs, openRequests, openRequests, hstate, hs]
    show m.inputs + _ = m.inputs + _ + [i].count _
    rw [List.count_singleton]
    by_cases hi : i = .exchange .input
    · simp [hi]
    · simp [hi]

theorem accounts_step (h : m.NoForeign) :
    m.Accounts m.nextExecution m.step.2 := by
  have hstepped := step_stepped m
  generalize m.step = result at hstepped ⊢
  cases hstepped with
  | idle hs =>
    rw [nextExecution_of_none (next?_of_not_running hs)]
    exact accounts_refl m
  | stopped hs hc =>
    rw [nextExecution_of_none (next?_of_current?_none hc)]
    refine ⟨rfl, rfl, ?_⟩
    rw [openRequests, openRequests, hs]
    rfl
  | unreadable _ hc => exact absurd hc (h.current? _)
  | @faulted i _ _ hs hc he | @moved i _ _ hs hc he =>
    have hexecuted := accounts_of_tallied hs (execute_tallied m.counted i)
    rw [he] at hexecuted
    rw [nextExecution_of_some (next?_of_instruction hs hc)]
    exact ⟨hexecuted.steps, hexecuted.outputs, hexecuted.inputs⟩

theorem accounts_input (m : Machine) (v : Number) : m.Accounts [] (m.input v) := by
  by_cases h : m.state = .inputWaiting
  · rw [input_of_waiting h]
    refine ⟨rfl, rfl, ?_⟩
    rw [openRequests, openRequests, h]
    rfl
  · rw [input_of_not_waiting h]
    exact accounts_refl m

/-! ## Sequences of calls -/

theorem NoForeign.step (h : m.NoForeign) : m.step.2.NoForeign := by
  unfold NoForeign
  rw [(step_untouched m).grid]
  exact h

theorem NoForeign.input (h : m.NoForeign) (v : Number) : (m.input v).NoForeign := by
  unfold NoForeign
  rw [grid_input]
  exact h

/-- The counters grow by what is executed. -/
theorem accounts_after (h : m.NoForeign) (cs : List Call) :
    m.Accounts (m.history cs) (m.after cs) := by
  induction cs generalizing m with
  | nil => exact accounts_refl m
  | cons c cs ih =>
    cases c with
    | step => exact (accounts_step h).trans (ih h.step)
    | input v => exact (accounts_input m v).trans (ih (h.input v))

/-- What is given out is the register of each machine that prints. -/
theorem given_eq (m : Machine) (cs : List Call) :
    m.given cs = Execution.printed (m.history cs) := by
  induction cs generalizing m with
  | nil => rfl
  | cons c cs ih =>
    cases c with
    | step =>
      rw [given_step_cons, history, Execution.printed_append, ih, printed?_step]
      congr 1
      cases hnext : m.next? with
      | none => rw [nextExecution_of_none hnext]; rfl
      | some i =>
        rw [nextExecution_of_some hnext]
        by_cases hi : i = .exchange .print
        · simp [Execution.printed, hi]
        · simp [Execution.printed, hi]
    | input v => exact ih (m.input v)

theorem after_of_stopped (h : m.state = .stopped) (cs : List Call) : m.after cs = m := by
  induction cs with
  | nil => rfl
  | cons c cs ih =>
    show (callBy step m c).2.after cs = m
    cases c with
    | step =>
      show m.step.2.after cs = m
      rw [step_of_not_running (by rw [h]; decide), ih]
    | input v =>
      show (m.input v).after cs = m
      rw [input_of_not_waiting (by rw [h]; decide), ih]

theorem history_of_stopped (h : m.state = .stopped) (cs : List Call) : m.history cs = [] := by
  have hnext : m.next? = none := next?_of_not_running (by rw [h]; decide)
  induction cs with
  | nil => rfl
  | cons c cs ih =>
    cases c with
    | step =>
      rw [history, nextExecution_of_none hnext, step_of_not_running (by rw [h]; decide), ih]
      rfl
    | input v =>
      rw [history, input_of_not_waiting (by rw [h]; decide), ih]

/-! ## Runs -/

theorem history_answerCalls (m : Machine) (pending : List Number) :
    m.history (m.answerCalls pending) = [] := by
  unfold answerCalls
  split
  · cases pending <;> rfl
  · rfl

theorem history_answerCalls_step (m : Machine) (pending : List Number) (cs : List Call) :
    m.history (m.answerCalls pending ++ .step :: cs) =
      (m.answer pending).1.nextExecution ++ (m.answer pending).1.step.2.history cs := by
  rw [history_append, history_answerCalls, after_answerCalls, history, List.nil_append]

theorem length_history_run_le (m : Machine) (pending : List Number) (n : Nat) :
    (m.history (m.runCalls pending n)).length ≤ n := by
  induction m, pending, n using runInduction with
  | rests m pending n hrests =>
    rw [runCalls_of_rests hrests, history_answerCalls]
    exact Nat.zero_le n
  | faulted m pending n fault after hs hstep =>
    rw [runCalls_succ_of_error hs hstep, history_answerCalls_step, List.length_append]
    exact Nat.le_trans (length_nextExecution_le _) (Nat.le_add_left 1 n)
  | stepped m pending n printed after hs hstep ih =>
    rw [runCalls_succ_of_ok hs hstep, history_answerCalls_step, List.length_append, hstep]
    rw [Nat.add_comm n 1]
    exact Nat.add_le_add (length_nextExecution_le _) ih

/-- A step that neither faults nor stops the machine executes an instruction. -/
theorem exists_next?_of_step {printed : Option Number} (hs : m.state = .running)
    (h : m.step = (.ok printed, m')) (hlive : m'.state ≠ .stopped) : ∃ i, m.next? = some i := by
  have hstepped := step_stepped m
  rw [h] at hstepped
  cases hstepped with
  | idle hidle => exact absurd hs hidle
  | stopped => exact absurd rfl hlive
  | moved _ hc _ => exact ⟨_, next?_of_instruction hs hc⟩

theorem length_history_run_of_running (hfault : (m.run pending n).fault = none)
    (hs : (m.run pending n).machine.state = .running) :
    (m.history (m.runCalls pending n)).length = n := by
  induction m, pending, n using runInduction with
  | rests m pending n hrests =>
    rw [runCalls_of_rests hrests, history_answerCalls]
    rcases hrests with rfl | hidle
    · rfl
    · rw [run_of_not_running hidle] at hs
      exact absurd hs hidle
  | faulted m pending n fault after hrunning hstep =>
    rw [run_succ_of_error hrunning hstep] at hfault
    cases hfault
  | stepped m pending n printed after hrunning hstep ih =>
    rw [run_succ_of_ok hrunning hstep] at hfault hs
    have hlive : after.state ≠ .stopped := by
      intro hstopped
      rw [run_of_stopped hstopped] at hs
      cases hstopped.symm.trans hs
    obtain ⟨i, hi⟩ := exists_next?_of_step hrunning hstep hlive
    rw [runCalls_succ_of_ok hrunning hstep, history_answerCalls_step, List.length_append, hstep,
      nextExecution_of_some hi, ih hfault hs]
    exact Nat.add_comm 1 n

end Machine
end MatrixStack
