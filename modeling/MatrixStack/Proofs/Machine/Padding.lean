/-
A machine on a larger grid.

The second of two machines has the grid of the first in its upper left corner and blanks around it.
As long as the cursor is in the smaller grid the two machines do the same (`Together`).  Where it
leaves that grid the first machine stops at its next step, and the second walks on over the blanks
until it has crossed the margin (`Ahead`).  It shows nothing on that way, so both machines show the
same in all, and one of them stops exactly where the other does.
-/
import MatrixStack.Proofs.Machine.Margin
import MatrixStack.Proofs.Machine.Planes
import MatrixStack.Proofs.Machine.Runs

namespace MatrixStack
namespace Machine

open Pointer (Beside)

/-- The grid of the first machine with blanks around it, and its stacks with empty ones around
them. -/
structure Spread (e e' : Extent) (s l : Machine) : Prop where
  extent : s.grid.extent = e
  extent' : l.grid.extent = e'
  instructions : ∀ q, e.contains q = true → ∃ i, s.grid.get? q = some (.instruction i)
  cells : ∀ q, e.contains q = true → l.grid.get? q = s.grid.get? q
  blanks : ∀ q, e.contains q = false → e'.contains q = true →
    l.grid.get? q = some (.instruction .blank)
  stackAt : ∀ b, e.blocks.contains b = true → l.stackAt? b = s.stackAt? b
  further : ∀ b, e.blocks.contains b = false → ∀ t, l.stackAt? b = some t → t.items = []

/-- Both machines are where the first one is, which has not stopped. -/
structure Together (e e' : Extent) (s l : Machine) : Prop where
  spread : Spread e e' s l
  agrees : s.Agrees l
  live : s.state ≠ .stopped
  place : e.contains s.pointer = true ∨ Beside e s.direction s.pointer

/-- The first machine has stopped beside its grid, and the second has gone on for some blanks. -/
structure Ahead (e e' : Extent) (k : Nat) (s l : Machine) : Prop where
  spread : Spread e e' s l
  stopped : s.state = .stopped
  place : Beside e s.direction s.pointer
  le : k ≤ e.margin e' s.direction
  pointer : l.pointer = s.pointer.along s.direction k
  direction : l.direction = s.direction
  register : l.register = s.register
  steps : l.steps = s.steps + k
  outputs : l.outputs = s.outputs
  inputs : l.inputs = s.inputs
  phase : l.state = .running ∨ l.state = .stopped ∧ k = e.margin e' s.direction

def Padded (e e' : Extent) (s l : Machine) : Prop :=
  Together e e' s l ∨ ∃ k, Ahead e e' k s l

variable {e e' : Extent} {s l s' l' : Machine} {k : Nat}

/-! ## Planes -/

theorem Spread.of_planes (h : Spread e e' s l) (hg : s'.grid = s.grid)
    (hp : s'.stackPlane = s.stackPlane) (hg' : l'.grid = l.grid)
    (hp' : l'.stackPlane = l.stackPlane) : Spread e e' s' l' where
  extent := by rw [hg, h.extent]
  extent' := by rw [hg', h.extent']
  instructions q hq := by
    rw [hg]
    exact h.instructions q hq
  cells q hq := by rw [hg, hg', h.cells q hq]
  blanks q hq hq' := by rw [hg', h.blanks q hq hq']
  stackAt b hb := by
    rw [stackAt?, stackAt?, hp, hp']
    exact h.stackAt b hb
  further b hb t ht := by
    rw [stackAt?, hp'] at ht
    exact h.further b hb t ht

theorem Spread.of_untouched {block : Pointer} (h : Spread e e' s l)
    (hblock : e.blocks.contains block = true) (hs : s.Untouched block s')
    (hl : l.Untouched block l') (hstack : l'.stackAt? block = s'.stackAt? block) :
    Spread e e' s' l' where
  extent := by rw [hs.grid, h.extent]
  extent' := by rw [hl.grid, h.extent']
  instructions q hq := by
    rw [hs.grid]
    exact h.instructions q hq
  cells q hq := by rw [hs.grid, hl.grid, h.cells q hq]
  blanks q hq hq' := by rw [hl.grid, h.blanks q hq hq']
  stackAt b hb := by
    by_cases heq : b = block
    · rw [heq, hstack]
    · rw [hs.stackAt b heq, hl.stackAt b heq, h.stackAt b hb]
  further b hb t ht := by
    have hne : b ≠ block := by
      rintro rfl
      exact Bool.false_ne_true (hb.symm.trans hblock)
    rw [hl.stackAt b hne] at ht
    exact h.further b hb t ht

/-! ## Ahead -/

/-- On a blank of the margin the machine that is ahead gets one further. -/
theorem Ahead.step_of_lt (hin : e.Within e') (h : Ahead e e' k s l) (hs : l.state = .running)
    (hk : k < e.margin e' s.direction) :
    l.step = (.ok none, l.counted.advance) ∧ Ahead e e' (k + 1) s l.counted.advance := by
  have hcell : l.current? = some (.instruction .blank) := by
    apply current?_of_get?
    rw [h.pointer]
    apply h.spread.blanks
    · exact Pointer.not_contains_along hin h.place h.le
    · rw [Pointer.contains_along hin h.place h.le, decide_eq_true hk]
  refine ⟨step_of_execute_ok hs hcell rfl, ?_⟩
  have hpointer : l.pointer.advance l.direction = s.pointer.along s.direction (k + 1) := by
    rw [h.pointer, h.direction, Pointer.advance_along hin h.place hk]
  have hsteps : l.steps + 1 = s.steps + (k + 1) := by
    rw [h.steps, Nat.add_assoc]
  exact ⟨h.spread.of_planes rfl rfl rfl rfl, h.stopped, h.place, hk, hpointer, h.direction,
    h.register, hsteps, h.outputs, h.inputs, .inl hs⟩

/-- Beyond the margin it stops too. -/
theorem Ahead.step_of_eq (hin : e.Within e') (h : Ahead e e' k s l) (hs : l.state = .running)
    (hk : k = e.margin e' s.direction) :
    l.step = (.ok none, { l with state := .stopped }) ∧
      Ahead e e' k s { l with state := .stopped } := by
  have hout : l.grid.extent.contains l.pointer = false := by
    rw [h.spread.extent', h.pointer, Pointer.contains_along hin h.place h.le]
    exact decide_eq_false (by omega)
  refine ⟨step_of_outside hs hout, ?_⟩
  exact ⟨h.spread.of_planes rfl rfl rfl rfl, h.stopped, h.place, h.le, h.pointer, h.direction,
    h.register, h.steps, h.outputs, h.inputs, .inr ⟨rfl, hk⟩⟩

theorem Ahead.step (hin : e.Within e') (h : Ahead e e' k s l) :
    l.step.1 = .ok none ∧ ∃ k', Ahead e e' k' s l.step.2 := by
  rcases h.phase with hs | ⟨hs, hk⟩
  · rcases Nat.lt_or_ge k (e.margin e' s.direction) with hk | hk
    · obtain ⟨hstep, hahead⟩ := h.step_of_lt hin hs hk
      rw [hstep]
      exact ⟨rfl, k + 1, hahead⟩
    · obtain ⟨hstep, hahead⟩ := h.step_of_eq hin hs (Nat.le_antisymm h.le hk)
      rw [hstep]
      exact ⟨rfl, k, hahead⟩
  · rw [step_of_not_running (by rw [hs]; decide)]
    exact ⟨rfl, k, h⟩

/-! ## Together -/

/-- In the smaller grid both machines execute the same instruction on the same stack. -/
theorem Together.step_of_inside (h : Together e e' s l) (hs : s.state = .running)
    (hp : e.contains s.pointer = true) :
    s.step.1 = l.step.1 ∧ Together e e' s.step.2 l.step.2 := by
  have hpointer := h.agrees.pointer
  have hblock := Extent.contains_blocks hp
  obtain ⟨i, hi⟩ := h.spread.instructions s.pointer hp
  have hcell : l.current? = s.current? := by
    rw [current?, current?, hpointer, h.spread.cells s.pointer hp]
  have hstack : Option.Rel Eq s.currentStack? l.currentStack? := by
    apply rel_eq_of_eq
    rw [currentStack?, currentStack?, hpointer, h.spread.stackAt _ hblock]
  obtain ⟨hanswer, hagrees, hafter⟩ :=
    step_alike Stack.likeness_eq h.agrees hcell hstack fun _ _ => trivial
  have hframe := step_untouched l
  rw [hpointer] at hframe
  have hlive := state_step_ne_stopped hs (Option.ne_none_iff_exists'.mpr ⟨_, current?_of_get? hi⟩)
  refine ⟨hanswer, ?_, hagrees, hlive, ?_⟩
  · exact h.spread.of_untouched hblock (step_untouched s) hframe (eq_of_rel_eq hafter)
  · rcases pointer_step s with hstay | hmove
    · left
      rw [hstay]
      exact hp
    · cases hin : e.contains s.step.2.pointer with
      | true => exact .inl rfl
      | false => exact .inr ⟨hin, s.pointer, hp, hmove⟩

/-- Beside the smaller grid only the first machine stops; the second is not yet ahead. -/
theorem Together.ahead (h : Together e e' s l) (hs : s.state = .running)
    (hp : Beside e s.direction s.pointer) : Ahead e e' 0 { s with state := .stopped } l := by
  have hspread : Spread e e' { s with state := .stopped } l :=
    h.spread.of_planes rfl rfl rfl rfl
  obtain ⟨g, p, rfl⟩ := h.agrees.exists_planes
  exact ⟨hspread, rfl, hp, Nat.zero_le _, (Pointer.along_zero _ _).symm, rfl, rfl, rfl, rfl, rfl,
    .inl hs⟩

/-! ## Padded machines -/

theorem Padded.step (hin : e.Within e') (h : Padded e e' s l) :
    s.step.1 = l.step.1 ∧ Padded e e' s.step.2 l.step.2 := by
  rcases h with h | ⟨k, h⟩
  · by_cases hs : s.state = .running
    · rcases h.place with hp | hp
      · obtain ⟨hanswer, htogether⟩ := h.step_of_inside hs hp
        exact ⟨hanswer, .inl htogether⟩
      · have hout : s.grid.extent.contains s.pointer = false := by
          rw [h.spread.extent]
          exact hp.1
        obtain ⟨hanswer, hahead⟩ := (h.ahead hs hp).step hin
        rw [step_of_outside hs hout]
        exact ⟨hanswer.symm, .inr hahead⟩
    · have hl : l.state ≠ .running := by
        obtain ⟨g, p, rfl⟩ := h.agrees.exists_planes
        exact hs
      rw [step_of_not_running hs, step_of_not_running hl]
      exact ⟨rfl, .inl h⟩
  · obtain ⟨hanswer, hahead⟩ := h.step hin
    rw [step_of_not_running (m := s) (by rw [h.stopped]; decide)]
    exact ⟨hanswer.symm, .inr hahead⟩

theorem Together.state (h : Together e e' s l) : l.state = s.state := by
  obtain ⟨g, p, rfl⟩ := h.agrees.exists_planes
  rfl

theorem Padded.waiting_iff (h : Padded e e' s l) :
    s.state = .inputWaiting ↔ l.state = .inputWaiting := by
  rcases h with h | ⟨k, h⟩
  · rw [h.state]
  · rw [h.stopped]
    rcases h.phase with hs | ⟨hs, -⟩
    · rw [hs]
      decide
    · rw [hs]

theorem Padded.running (h : Padded e e' s l) (hs : s.state = .running) : l.state = .running := by
  rcases h with h | ⟨k, h⟩
  · rw [h.state, hs]
  · rw [h.stopped] at hs
    cases hs

/-- Only a machine that is ahead runs while the other one does not. -/
theorem Padded.stopped (h : Padded e e' s l) (hs : s.state ≠ .running) (hl : l.state = .running) :
    s.state = .stopped := by
  rcases h with h | ⟨k, h⟩
  · rw [h.state] at hl
    exact absurd hl hs
  · exact h.stopped

theorem Padded.input (h : Padded e e' s l) (v : Number) : Padded e e' (s.input v) (l.input v) := by
  by_cases hs : s.state = .inputWaiting
  · have hl := h.waiting_iff.mp hs
    rcases h with h | ⟨k, h⟩
    · have hagrees := h.agrees.input v
      rw [input_of_waiting hs, input_of_waiting hl] at hagrees ⊢
      exact .inl ⟨h.spread.of_planes rfl rfl rfl rfl, hagrees, State.noConfusion, h.place⟩
    · rw [h.stopped] at hs
      cases hs
  · have hl := fun hl => hs (h.waiting_iff.mpr hl)
    rw [input_of_not_waiting hs, input_of_not_waiting hl]
    exact h

theorem Padded.answer (h : Padded e e' s l) (pending : List Number) :
    (s.answer pending).2 = (l.answer pending).2 ∧
      Padded e e' (s.answer pending).1 (l.answer pending).1 := by
  by_cases hs : s.state = .inputWaiting
  · have hl := h.waiting_iff.mp hs
    cases pending with
    | nil =>
      rw [answer_nil, answer_nil]
      exact ⟨rfl, h⟩
    | cons v rest =>
      rw [answer_cons_of_waiting hs, answer_cons_of_waiting hl]
      exact ⟨rfl, h.input v⟩
  · have hl := fun hl => hs (h.waiting_iff.mpr hl)
    rw [answer_of_not_waiting hs, answer_of_not_waiting hl]
    exact ⟨rfl, h⟩

theorem Padded.stepEvents (h : Padded e e' s l) (printed : Option Number) :
    stepEvents printed s.state = stepEvents printed l.state := by
  unfold Machine.stepEvents
  simp only [h.waiting_iff]

/-! ## Runs -/

/-- Runs of padded machines show the same, fault alike, and end in padded machines. -/
theorem Padded.run (hin : e.Within e') (h : Padded e e' s l) (pending : List Number) (n : Nat) :
    s.events pending n = l.events pending n ∧
      (s.run pending n).fault = (l.run pending n).fault ∧
      Padded e e' (s.run pending n).machine (l.run pending n).machine := by
  induction n generalizing s l pending with
  | zero => exact ⟨rfl, rfl, (h.answer pending).2⟩
  | succ n ih =>
    obtain ⟨hrest, hanswered⟩ := h.answer pending
    obtain ⟨hanswer, hafter⟩ := hanswered.step hin
    by_cases hs : (s.answer pending).1.state = .running
    · have hl := hanswered.running hs
      rcases hsstep : (s.answer pending).1.step with ⟨answer, s'⟩
      rcases hlstep : (l.answer pending).1.step with ⟨answer', l'⟩
      rw [hsstep, hlstep] at hanswer hafter
      obtain rfl : answer = answer' := hanswer
      cases answer with
      | error fault =>
        rw [events_succ_of_error hs hsstep, events_succ_of_error hl hlstep,
          run_succ_of_error hs hsstep, run_succ_of_error hl hlstep]
        exact ⟨rfl, rfl, hafter⟩
      | ok printed =>
        obtain ⟨hevents, hfault, hmachine⟩ := ih hafter (s.answer pending).2
        rw [events_succ_of_ok hs hsstep, events_succ_of_ok hl hlstep, run_succ_of_ok hs hsstep,
          run_succ_of_ok hl hlstep, ← hrest, hevents, hafter.stepEvents printed]
        exact ⟨rfl, hfault, hmachine⟩
    · by_cases hl : (l.answer pending).1.state = .running
      · -- The first machine has stopped and is compared, step by step, with one that has not.
        have hstopped := hanswered.stopped hs hl
        have hstay := step_of_not_running hs
        rcases hlstep : (l.answer pending).1.step with ⟨answer, l'⟩
        rw [hstay, hlstep] at hanswer hafter
        obtain rfl : .ok none = answer := hanswer
        obtain ⟨hevents, hfault, hmachine⟩ := ih hafter (l.answer pending).2
        rw [run_of_stopped hstopped] at hfault hmachine
        have hquiet : Machine.stepEvents none l'.state = [] := by
          rw [← hafter.stepEvents none]
          show (if (s.answer pending).1.state = .inputWaiting then _ else _) = _
          rw [hstopped]
          rfl
        have hnone : (s.answer pending).1.events (l.answer pending).2 n = [] := by
          apply events_of_not_running
          rw [answer_of_not_waiting (by rw [hstopped]; decide), hstopped]
          decide
        rw [events_of_not_running hs, run_of_not_running hs, events_succ_of_ok hl hlstep,
          run_succ_of_ok hl hlstep, hquiet, ← hevents, hnone]
        exact ⟨rfl, hfault, hmachine⟩
      · rw [events_of_not_running hs, events_of_not_running hl, run_of_not_running hs,
          run_of_not_running hl]
        exact ⟨rfl, rfl, hanswered⟩

/-! ## Stopping -/

/-- The machine that is ahead stops once it has crossed the margin. -/
theorem Ahead.exists_stopped (hin : e.Within e') (h : Ahead e e' k s l) (pending : List Number) :
    ∃ n, (l.run pending n).machine.state = .stopped := by
  induction hd : e.margin e' s.direction - k generalizing k l with
  | zero =>
    have hk : k = e.margin e' s.direction := Nat.le_antisymm h.le (Nat.le_of_sub_eq_zero hd)
    rcases h.phase with hs | ⟨hs, -⟩
    · have hanswer := answer_of_not_waiting (m := l) (by rw [hs]; decide) pending
      have hrunning : (l.answer pending).1.state = .running := by
        rw [hanswer]
        exact hs
      have hstep := (h.step_of_eq hin hs hk).1
      refine ⟨1, ?_⟩
      rw [run_succ_of_ok hrunning (by rw [hanswer]; exact hstep), Run.machine_prepend,
        run_of_stopped rfl]
    · exact ⟨0, by rw [run_of_stopped hs]; exact hs⟩
  | succ d ih =>
    have hk : k < e.margin e' s.direction := by omega
    rcases h.phase with hs | ⟨-, hk'⟩
    · have hanswer := answer_of_not_waiting (m := l) (by rw [hs]; decide) pending
      have hrunning : (l.answer pending).1.state = .running := by
        rw [hanswer]
        exact hs
      obtain ⟨hstep, hahead⟩ := h.step_of_lt hin hs hk
      obtain ⟨n, hn⟩ := ih hahead (by omega)
      refine ⟨n + 1, ?_⟩
      rw [run_succ_of_ok hrunning (by rw [hanswer]; exact hstep), hanswer]
      exact hn
    · omega

theorem Padded.stops_iff (hin : e.Within e') (h : Padded e e' s l) (pending : List Number) :
    (∃ n, (s.run pending n).machine.state = .stopped) ↔
      ∃ n, (l.run pending n).machine.state = .stopped := by
  constructor
  · rintro ⟨n, hn⟩
    obtain ⟨-, hfault, hmachine⟩ := h.run hin pending n
    rcases hmachine with hm | ⟨k, hm⟩
    · exact ⟨n, by rw [hm.state, hn]⟩
    · obtain ⟨d, hd⟩ := hm.exists_stopped hin (l.run pending n).rest
      refine ⟨n + d, ?_⟩
      rw [run_add (hfault ▸ fault_run_of_state (by rw [hn]; decide)) d]
      exact hd
  · rintro ⟨n, hn⟩
    obtain ⟨-, -, hmachine⟩ := h.run hin pending n
    rcases hmachine with hm | ⟨k, hm⟩
    · exact ⟨n, by rw [← hm.state, hn]⟩
    · exact ⟨n, hm.stopped⟩

/-- Wherever the two runs have been cut, if both machines have stopped the second one has crossed
the margin. -/
theorem Padded.ahead_of_stopped (hin : e.Within e') (h : Padded e e' s l) {pending : List Number}
    {n n' : Nat} (hs : (s.run pending n).machine.state = .stopped)
    (hl : (l.run pending n').machine.state = .stopped) :
    ∃ k, k = e.margin e' (s.run pending n).machine.direction ∧
      Ahead e e' k (s.run pending n).machine (l.run pending n').machine := by
  have hs' := run_of_stopped_le hs (Nat.le_max_left n n')
  have hl' := run_of_stopped_le hl (Nat.le_max_right n n')
  obtain ⟨-, -, hmachine⟩ := h.run hin pending (max n n')
  rw [hs', hl'] at hmachine
  rcases hmachine with hm | ⟨k, hm⟩
  · exact absurd hs hm.live
  · rcases hm.phase with hrunning | ⟨-, hk⟩
    · rw [hl] at hrunning
      cases hrunning
    · exact ⟨k, hk, hm⟩

end Machine
end MatrixStack
