/-
Runs in pieces.

A machine can be run without numbers for some steps, be given a number where it waits, and be run
again.  Wherever this leads, one run from the start gets there as well: with the numbers that have
been accepted, and with as many steps as the machine counts, one more if it has stopped, since the
step that stops a machine is not counted (`Reached.run_nil`, `Reached.input`).
-/
import MatrixStack.Proofs.Machine.Unanswered

namespace MatrixStack
namespace Machine

variable {m m₀ : Machine} {vs : List Number}

/-! ## Steps that are counted -/

/-- The steps that have been asked of the machine: those that it counts, and the one that has
stopped it. -/
def stepsAsked (m : Machine) : Nat := m.steps + if m.state = .stopped then 1 else 0

theorem stepsAsked_of_live (h : m.state ≠ .stopped) : m.stepsAsked = m.steps := by
  rw [stepsAsked, if_neg h, Nat.add_zero]

theorem stepsAsked_step {printed : Option Number} {after : Machine} (hs : m.state = .running)
    (hstep : m.step = (.ok printed, after)) : after.stepsAsked = m.stepsAsked + 1 := by
  have hasked : m.stepsAsked = m.steps := stepsAsked_of_live (by rw [hs]; decide)
  rw [hasked]
  by_cases hafter : after.state = .stopped
  · have hempty : m.current? = none := by
      refine Classical.byContradiction fun hc => state_step_ne_stopped hs hc ?_
      rw [hstep]
      exact hafter
    rw [step_of_current?_none hs hempty] at hstep
    cases hstep
    exact congrArg (m.steps + ·) (if_pos rfl)
  · rw [stepsAsked_of_live hafter, steps_step hs hstep hafter]

/-- The machine is where one run with these numbers gets to in the steps that it has been asked
for, with none of the numbers left. -/
structure Reached (m₀ : Machine) (vs : List Number) (m : Machine) : Prop where
  machine : (m₀.run vs m.stepsAsked).machine = m
  rest : (m₀.run vs m.stepsAsked).rest = []
  fault : (m₀.run vs m.stepsAsked).fault = none

theorem reached_refl (hs : m.state = .running) (hsteps : m.steps = 0) : m.Reached [] m := by
  have hzero : m.stepsAsked = 0 := by rw [stepsAsked_of_live (by rw [hs]; decide), hsteps]
  constructor <;> rw [hzero, run_nil_zero]

theorem Reached.step {printed : Option Number} {after : Machine} (h : m₀.Reached vs m)
    (hs : m.state = .running) (hstep : m.step = (.ok printed, after)) : m₀.Reached vs after := by
  have hrun : m₀.run vs after.stepsAsked =
      (m.run [] 1).prepend (m₀.run vs m.stepsAsked).outputs := by
    rw [stepsAsked_step hs hstep, run_add h.fault, h.machine, h.rest]
  rw [run_nil_one hs hstep] at hrun
  constructor <;> rw [hrun] <;> rfl

/-- A run without numbers leads on along the one run. -/
theorem Reached.run_nil (h : m₀.Reached vs m) (n : Nat) (hfault : (m.run [] n).fault = none) :
    m₀.Reached vs (m.run [] n).machine := by
  induction n generalizing m with
  | zero =>
    rw [run_nil_zero]
    exact h
  | succ n ih =>
    by_cases hs : m.state = .running
    · have hanswer : (m.answer []).1.state = .running := by rwa [answer_nil]
      rcases hstep : m.step with ⟨fault | printed, after⟩
      · rw [run_succ_of_error hanswer (by rwa [answer_nil])] at hfault
        cases hfault
      · rw [run_succ_of_ok hanswer (by rwa [answer_nil]), answer_nil] at hfault ⊢
        exact ih (h.step hs hstep) hfault
    · rw [run_nil_of_idle hs]
      exact h

/-- A number for a machine that waits is one more number for the one run. -/
theorem Reached.input (h : m₀.Reached vs m) (hsteps : m₀.steps = 0)
    (hs : m.state = .inputWaiting) (v : Number) : m₀.Reached (vs ++ [v]) (m.input v) := by
  have hlive : m.state ≠ .stopped := by rw [hs]; decide
  have hrunning := state_input_of_waiting hs v
  have hasked : (m.input v).stepsAsked = m.stepsAsked := by
    rw [stepsAsked_of_live hlive, stepsAsked_of_live (by rw [hrunning]; decide),
      input_of_waiting hs]
  have hwaits : (m₀.run vs m.stepsAsked).machine.state = .inputWaiting := by rw [h.machine, hs]
  obtain ⟨hexecuted, hrun⟩ := run_append hwaits [v]
  -- Every step that the run has been allowed has been executed, so that only the number is put in.
  rw [h.machine, hsteps, Nat.zero_add, ← stepsAsked_of_live hlive] at hexecuted
  rw [← hexecuted, Nat.sub_self, Run.resume_of_fault_none h.fault, h.machine, run_zero,
    answer_cons_of_waiting hs] at hrun
  constructor <;> rw [hasked, hrun] <;> rfl

end Machine
end MatrixStack
