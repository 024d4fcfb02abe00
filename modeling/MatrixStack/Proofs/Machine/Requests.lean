/-
Requests, and the calls that they come down to.

A machine can be asked for a step, for the acceptance of a number, or for a whole run, and a run is
nothing but numbers and steps in turn: `runCalls` are the calls that it makes, and the machine and
the outputs of the run are theirs (`after_runCalls`, `outputs_run`).  So whatever a machine is asked
for, what becomes of it is known from sequences of calls (`Serves.after`, `Serves.given`).
-/
import MatrixStack.Proofs.Machine.Runs
import MatrixStack.Proofs.Machine.WellFormed

namespace MatrixStack

/-- The number that an answer gives out. -/
def Answer.printed? : Answer → Option Number
  | .ok printed => printed
  | .error _ => none

namespace Machine

variable {m m' : Machine} {pending : List Number} {cs : List Call} {n : Nat}

/-- The numbers that a sequence of calls gives out. -/
def given (m : Machine) (cs : List Call) : List Number :=
  (m.answers cs).filterMap Answer.printed?

theorem after_append (m : Machine) (cs ds : List Call) :
    m.after (cs ++ ds) = (m.after cs).after ds := afterBy_append step m cs ds

theorem given_step_cons (m : Machine) (cs : List Call) :
    m.given (.step :: cs) = (Answer.printed? m.step.1).toList ++ m.step.2.given cs := by
  show (m.step.1 :: m.step.2.answers cs).filterMap Answer.printed? = _
  rw [List.filterMap_cons]
  cases Answer.printed? m.step.1 <;> rfl

theorem given_append (m : Machine) (cs ds : List Call) :
    m.given (cs ++ ds) = m.given cs ++ (m.after cs).given ds := by
  induction cs generalizing m with
  | nil => rfl
  | cons c cs ih =>
    cases c with
    | step =>
      rw [List.cons_append, given_step_cons, given_step_cons, ih, List.append_assoc]
      rfl
    | input v => exact ih (m.input v)

/-! ## The calls of a run -/

/-- The number that a run puts in before its next step, as a call. -/
def answerCalls (m : Machine) (pending : List Number) : List Call :=
  if m.state = .inputWaiting then pending.head?.toList.map .input else []

/-- The calls of a run of at most the given number of steps. -/
def runCalls (m : Machine) (pending : List Number) : Nat → List Call
  | 0 => m.answerCalls pending
  | n + 1 =>
    let (answered, rest) := m.answer pending
    m.answerCalls pending ++
      if answered.state = .running then
        match answered.step with
        | (.ok _, after) => .step :: runCalls after rest n
        | (.error _, _) => [.step]
      else []

theorem after_answerCalls (m : Machine) (pending : List Number) :
    m.after (m.answerCalls pending) = (m.answer pending).1 := by
  by_cases h : m.state = .inputWaiting
  · rw [answerCalls, if_pos h]
    cases pending with
    | nil => rw [answer_nil]; rfl
    | cons v rest => rw [answer_cons_of_waiting h]; rfl
  · rw [answerCalls, if_neg h, answer_of_not_waiting h]
    rfl

theorem given_answerCalls (m : Machine) (pending : List Number) :
    m.given (m.answerCalls pending) = [] := by
  unfold answerCalls
  split
  · cases pending <;> rfl
  · rfl

theorem runCalls_of_rests (h : m.Rests pending n) :
    m.runCalls pending n = m.answerCalls pending := by
  rcases h with rfl | h
  · rfl
  · cases n with
    | zero => rfl
    | succ n =>
      rw [runCalls]
      simp only
      rw [if_neg h, List.append_nil]

theorem runCalls_succ_of_ok {printed : Option Number} (h : (m.answer pending).1.state = .running)
    (hstep : (m.answer pending).1.step = (.ok printed, m')) (n : Nat) :
    m.runCalls pending (n + 1) =
      m.answerCalls pending ++ .step :: m'.runCalls (m.answer pending).2 n := by
  rw [runCalls]
  simp only
  rw [if_pos h, hstep]

theorem runCalls_succ_of_error {fault : Fault} (h : (m.answer pending).1.state = .running)
    (hstep : (m.answer pending).1.step = (.error fault, m')) (n : Nat) :
    m.runCalls pending (n + 1) = m.answerCalls pending ++ [.step] := by
  rw [runCalls]
  simp only
  rw [if_pos h, hstep]

/-- After the answer comes a step. -/
theorem after_answerCalls_step (m : Machine) (pending : List Number) (cs : List Call) :
    m.after (m.answerCalls pending ++ .step :: cs) = (m.answer pending).1.step.2.after cs := by
  rw [after_append, after_answerCalls]
  rfl

theorem given_answerCalls_step (m : Machine) (pending : List Number) (cs : List Call) :
    m.given (m.answerCalls pending ++ .step :: cs) =
      (Answer.printed? (m.answer pending).1.step.1).toList ++
        (m.answer pending).1.step.2.given cs := by
  rw [given_append, given_answerCalls, after_answerCalls, given_step_cons]
  rfl

theorem after_runCalls (m : Machine) (pending : List Number) (n : Nat) :
    m.after (m.runCalls pending n) = (m.run pending n).machine := by
  induction m, pending, n using runInduction with
  | rests m pending n hrests =>
    rw [runCalls_of_rests hrests, run_of_rests hrests, after_answerCalls]
  | faulted m pending n fault after hs hstep =>
    rw [runCalls_succ_of_error hs hstep, run_succ_of_error hs hstep, after_answerCalls_step, hstep]
    rfl
  | stepped m pending n printed after hs hstep ih =>
    rw [runCalls_succ_of_ok hs hstep, run_succ_of_ok hs hstep, after_answerCalls_step, hstep, ih]
    rfl

theorem outputs_run (m : Machine) (pending : List Number) (n : Nat) :
    (m.run pending n).outputs = m.given (m.runCalls pending n) := by
  induction m, pending, n using runInduction with
  | rests m pending n hrests =>
    rw [runCalls_of_rests hrests, run_of_rests hrests, given_answerCalls]
  | faulted m pending n fault after hs hstep =>
    rw [runCalls_succ_of_error hs hstep, run_succ_of_error hs hstep, given_answerCalls_step, hstep]
    rfl
  | stepped m pending n printed after hs hstep ih =>
    rw [runCalls_succ_of_ok hs hstep, run_succ_of_ok hs hstep, given_answerCalls_step, hstep, ← ih]
    rfl

/-! ## Runs of well-formed machines -/

section

variable {t : NumberType}

theorem answer_wellFormed (hm : m.WellFormed t) (hpending : ∀ v ∈ pending, v.Belongs t) :
    (m.answer pending).1.WellFormed t ∧ ∀ v ∈ (m.answer pending).2, v.Belongs t := by
  by_cases h : m.state = .inputWaiting
  · cases pending with
    | nil =>
      rw [answer_nil]
      exact ⟨hm, hpending⟩
    | cons v rest =>
      rw [answer_cons_of_waiting h]
      exact ⟨input_wellFormed hm (hpending v (List.mem_cons_self ..)), fun w hw =>
        hpending w (List.mem_cons_of_mem v hw)⟩
  · rw [answer_of_not_waiting h]
    exact ⟨hm, hpending⟩

theorem run_wellFormed (hm : m.WellFormed t) (hpending : ∀ v ∈ pending, v.Belongs t) (n : Nat) :
    (m.run pending n).fault = none ∧ (m.run pending n).machine.WellFormed t := by
  induction m, pending, n using runInduction with
  | rests m pending n hrests =>
    rw [run_of_rests hrests]
    exact ⟨rfl, (answer_wellFormed hm hpending).1⟩
  | faulted m pending n fault after hs hstep =>
    obtain ⟨⟨printed, hok⟩, -⟩ := step_wellFormed (answer_wellFormed hm hpending).1
    rw [hstep] at hok
    cases hok
  | stepped m pending n printed after hs hstep ih =>
    obtain ⟨hanswered, hrest⟩ := answer_wellFormed hm hpending
    have hafter := (step_wellFormed hanswered).2
    rw [hstep] at hafter
    rw [run_succ_of_ok hs hstep]
    exact ih hafter hrest

theorem WellFormed.belongs_of_step {v : Number} (hm : m.WellFormed t)
    (h : m.step.1 = .ok (some v)) : v.Belongs t := by
  rw [eq_register_of_step h]
  exact hm.register

/-- The numbers that a well-formed machine gives out belong to its type. -/
theorem given_belongs (hm : m.WellFormed t) (hcs : ∀ c ∈ cs, c.Belongs t) :
    ∀ v ∈ m.given cs, v.Belongs t := by
  induction cs generalizing m with
  | nil => exact fun v hv => absurd hv List.not_mem_nil
  | cons c cs ih =>
    have hrest : ∀ c ∈ cs, c.Belongs t := fun c' hc' => hcs c' (List.mem_cons_of_mem c hc')
    cases c with
    | input v => exact ih (input_wellFormed hm (hcs _ (List.mem_cons_self ..))) hrest
    | step =>
      obtain ⟨⟨printed, hprinted⟩, hafter⟩ := step_wellFormed hm
      rw [given_step_cons, hprinted]
      intro v hv
      rcases List.mem_append.mp hv with hnew | hold
      · obtain rfl := Option.mem_toList.mp hnew
        exact hm.belongs_of_step hprinted
      · exact ih hafter hrest v hold

theorem outputs_run_belong (hm : m.WellFormed t) (hpending : ∀ v ∈ pending, v.Belongs t)
    (n : Nat) : ∀ v ∈ (m.run pending n).outputs, v.Belongs t := by
  induction m, pending, n using runInduction with
  | rests m pending n hrests =>
    rw [run_of_rests hrests]
    exact fun v hv => absurd hv List.not_mem_nil
  | faulted m pending n fault after hs hstep =>
    rw [run_succ_of_error hs hstep]
    exact fun v hv => absurd hv List.not_mem_nil
  | stepped m pending n printed after hs hstep ih =>
    obtain ⟨hanswered, hrest⟩ := answer_wellFormed hm hpending
    have hafter := (step_wellFormed hanswered).2
    rw [hstep] at hafter
    rw [run_succ_of_ok hs hstep]
    intro v hv
    rcases List.mem_append.mp hv with hnew | hold
    · obtain rfl := Option.mem_toList.mp hnew
      exact hanswered.belongs_of_step (congrArg Prod.fst hstep)
    · exact ih hafter hrest v hold

end

/-! ## Requests -/

/-- The run is complete with so many steps: the cap allows just these, or there is no cap and the
run has ended by itself. -/
def Completes (m : Machine) (pending : List Number) (maxSteps : Option Int) (n : Nat) : Prop :=
  match maxSteps with
  | none => ended (m.run pending n) = true
  | some cap => n = cap.toNat

end Machine

/-- What a machine can be asked for from outside. -/
inductive Request where
  | step
  | input (v : Number)
  | run (pending : List Number) (maxSteps : Option Int)
  deriving DecidableEq

namespace Machine

/-- The machine serves requests one after the other: the calls that it receives, the numbers that it
gives out, and the machine afterwards. -/
inductive Serves : Machine → List Request → List Call → List Number → Machine → Prop where
  | done (m : Machine) : Serves m [] [] [] m
  | step {m m' : Machine} {qs : List Request} {cs : List Call} {vs : List Number}
    (h : Serves m.step.2 qs cs vs m') :
    Serves m (.step :: qs) (.step :: cs) ((Answer.printed? m.step.1).toList ++ vs) m'
  | input {m m' : Machine} {qs : List Request} {cs : List Call} {vs : List Number} (v : Number)
    (h : Serves (m.input v) qs cs vs m') : Serves m (.input v :: qs) (.input v :: cs) vs m'
  | run {m m' : Machine} {qs : List Request} {cs : List Call} {vs : List Number}
    {pending : List Number} {maxSteps : Option Int} {n : Nat}
    (hn : m.Completes pending maxSteps n) (h : Serves (m.run pending n).machine qs cs vs m') :
    Serves m (.run pending maxSteps :: qs) (m.runCalls pending n ++ cs)
      ((m.run pending n).outputs ++ vs) m'

variable {m m' : Machine} {qs : List Request} {cs : List Call} {vs : List Number}

theorem Serves.after (h : m.Serves qs cs vs m') : m' = m.after cs := by
  induction h with
  | done => rfl
  | step _ ih | input _ _ ih => exact ih
  | run hn _ ih => rw [after_append, after_runCalls, ← ih]

theorem Serves.given (h : m.Serves qs cs vs m') : vs = m.given cs := by
  induction h with
  | done => rfl
  | step _ ih => rw [given_step_cons, ← ih]
  | input _ _ ih => exact ih
  | run hn _ ih => rw [given_append, after_runCalls, ← outputs_run, ← ih]

end Machine
end MatrixStack
