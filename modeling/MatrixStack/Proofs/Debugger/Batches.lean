/-
Actions of the debugger that step the machine.

Such an action takes so many steps: one, ten or a hundred, as many as it needs for the program to
stop or wait, or as many as it needs to print (`Action.Takes`).  In the debugger it is a loop that
ends early, with the first step after which the machine does not run, and refreshes the panels on
the way.  It leaves what a run of its number of steps leaves (`Shows.exists_takes_of_does`), and it
comes to an end just when there is such a number (`Shows.does_of_takes`).
-/
import MatrixStack.Proofs.Debugger.Panels
import MatrixStack.Proofs.Session.Ticks

namespace MatrixStack

/-- The property holds at this number, and at none below. -/
def First (P : Nat → Prop) (n : Nat) : Prop := P n ∧ ∀ k < n, ¬P k

namespace First

variable {P Q : Nat → Prop} {n : Nat}

theorem zero (h : P 0) : First P 0 := ⟨h, fun k hk => absurd hk (Nat.not_lt_zero k)⟩

theorem succ (h : First (fun k => P (k + 1)) n) (hzero : ¬P 0) : First P (n + 1) := by
  refine ⟨h.1, fun k hk => ?_⟩
  cases k with
  | zero => exact hzero
  | succ k => exact h.2 k (Nat.lt_of_succ_lt_succ hk)

theorem congr (h : ∀ k, P k ↔ Q k) : First P n ↔ First Q n :=
  and_congr (h n) (forall₂_congr fun k _ => not_congr (h k))

theorem unique {k : Nat} (hn : First P n) (hk : First P k) : n = k := by
  rcases Nat.lt_trichotomy n k with hlt | heq | hgt
  · exact absurd hn.1 (hk.2 n hlt)
  · exact heq
  · exact absurd hk.1 (hn.2 k hgt)

end First

namespace Debugger

variable {t : NumberType} {m m' : Machine} {d d' : Debugger} {a : Action}

/-! ## What actions do -/

/-- An action that steps the machine takes so many steps. -/
def Action.Takes (m : Machine) : Action → Nat → Prop
  | .step, n => n = 1
  | .step10, n => n = 10
  | .step100, n => n = 100
  | .run, n => First (fun k => (m.run [] k).machine.state ≠ .running) n
  | .runToPrint, n =>
    First (fun k => (m.run [] k).machine.state ≠ .running ∨ (m.run [] k).outputs ≠ []) n
  | .submit _, _ => False

theorem Action.takes_run_iff {n : Nat} : Action.run.Takes m n ↔
    First (fun k => (m.run [] k).machine.state ≠ .running) n := Iff.rfl

theorem Action.takes_runToPrint_iff {n : Nat} : Action.runToPrint.Takes m n ↔
    First (fun k => (m.run [] k).machine.state ≠ .running ∨ (m.run [] k).outputs ≠ []) n := Iff.rfl

/-- A number of steps is determined by the action and the machine. -/
theorem Action.Takes.unique {n k : Nat} (hn : a.Takes m n) (hk : a.Takes m k) : n = k := by
  cases a with
  | step | step10 | step100 => exact Eq.trans hn (Eq.symm hk)
  | run => exact (Action.takes_run_iff.mp hn).unique (Action.takes_run_iff.mp hk)
  | runToPrint =>
    exact (Action.takes_runToPrint_iff.mp hn).unique (Action.takes_runToPrint_iff.mp hk)
  | submit text => exact hn.elim

/-- The action comes to an end. -/
def Does (d : Debugger) (a : Action) (d' : Debugger) : Prop := ∃ turns, d.act turns a = .ok d'

/-! ## Batches of steps -/

/-- The debugger within an action that has run its machine. -/
def running (d : Debugger) (r : Run) : Debugger := { d with session := d.session.afterRun r }

theorem holds_running (h : d.session.Holds t m) (r : Run) :
    (d.running r).session.Holds t r.machine := h.afterRun r

theorem running_running (d : Debugger) (r r' : Run) :
    (d.running r).running r' = d.running (r'.prepend r.outputs) := by
  unfold running
  rw [← Session.afterRun_afterRun]

theorem running_idle (h : d.session.Holds t m) : d.running ⟨[], m, [], none⟩ = d := by
  rw [running, h.afterRun_idle]

section

variable (hfixed : t ≠ .unbounded)
include hfixed

theorem tick_of_holds (h : d.session.Holds t m) (hm : m.WellFormed t) :
    d.tick = (.ok ((m.run [] 1).machine.state = .running), d.running (m.run [] 1)) := by
  rw [tick, h.tick_eq hm hfixed]
  rfl

/-- A batch of steps is a run of so many steps, although it ends with the first step after which the
machine does not run. -/
theorem steps_of_holds (h : d.session.Holds t m) (hm : m.WellFormed t) (n : Nat) :
    d.steps n = .ok (d.running (m.run [] n)).refresh := by
  induction n generalizing m d with
  | zero =>
    rw [Machine.run_nil_zero, running_idle h]
    rfl
  | succ n ih =>
    obtain ⟨hfault, hafter⟩ := Machine.run_nil_wellFormed hm 1
    rw [steps, tick_of_holds hfixed h hm]
    by_cases hs : (m.run [] 1).machine.state = .running
    · rw [decide_eq_true hs, Machine.run_nil_succ hfault n]
      dsimp only
      rw [ih (holds_running h _) hafter, running_running]
    · rw [decide_eq_false hs, Machine.run_nil_succ_of_idle hs n]

end

/-! ## Runs in the background -/

/-- Steps until the program cannot go on, or there has been enough. -/
def stepsUntil (enough : Session → Bool) (d : Debugger) : Nat → Except Crash Debugger
  | 0 => .error .endless
  | n + 1 =>
    match d.tick with
    | (.error e, d) => d.fail e
    | (.ok false, d) => .ok d.refresh
    | (.ok true, d) => if enough d.session then .ok d.refresh else stepsUntil enough d n

theorem runToPrintWithin_eq (d : Debugger) (printed turns : Nat) :
    d.runToPrintWithin printed turns =
      d.stepsUntil (fun s => printed < s.output.length) turns := by
  induction turns generalizing d with
  | zero => rfl
  | succ turns ih =>
    rw [runToPrintWithin, stepsUntil]
    rcases d.tick with ⟨e | b, after⟩
    · rfl
    · cases b with
      | false => rfl
      | true => simp only [ih, decide_eq_true_eq]

/-- The run stops after so many steps: the machine does not run, or there has been enough. -/
def Stops (m : Machine) (s : Session) (enough : Session → Bool) (n : Nat) : Prop :=
  (m.run [] n).machine.state ≠ .running ∨ enough (s.afterRun (m.run [] n)) = true

section

variable {enough : Session → Bool}

theorem not_stops_zero (h : d.session.Holds t m) (hs : m.state = .running)
    (henough : enough d.session = false) : ¬Stops m d.session enough 0 := by
  unfold Stops
  rw [Machine.run_nil_zero, h.afterRun_idle, henough]
  rintro (hidle | hfalse)
  · exact hidle hs
  · cases hfalse

theorem stops_succ_iff (s : Session) (hfault : (m.run [] 1).fault = none) (n : Nat) :
    Stops m s enough (n + 1) ↔
      Stops (m.run [] 1).machine (s.afterRun (m.run [] 1)) enough n := by
  unfold Stops
  rw [Machine.run_nil_succ hfault n, Run.machine_prepend, ← Session.afterRun_afterRun]

variable (hfixed : t ≠ .unbounded)
include hfixed

/-- The refreshes within a run never fail, and so it is a run that never has enough. -/
theorem runWithin_of_holds (h : d.session.Holds t m) (hm : m.WellFormed t) (taken turns : Nat) :
    d.runWithin taken turns = d.stepsUntil (fun _ => false) turns := by
  induction turns generalizing m d taken with
  | zero => rfl
  | succ turns ih =>
    have hafter := (Machine.run_nil_wellFormed hm 1).2
    have hruns := holds_running h (m.run [] 1)
    rw [runWithin, stepsUntil, tick_of_holds hfixed h hm]
    cases decide ((m.run [] 1).machine.state = .running) with
    | false => rfl
    | true =>
      dsimp only
      rw [showable_of_wellFormed hfixed hafter hruns.machine, Bool.not_true, Bool.and_false,
        if_neg Bool.false_ne_true, if_neg Bool.false_ne_true]
      exact ih hruns hafter (taken + 1)

/-- A run in the background ends after the first number of steps after which it stops, if it is
given the time; if it is not, it does not stop within its turns. -/
theorem stepsUntil_of_holds (h : d.session.Holds t m) (hm : m.WellFormed t)
    (henough : enough d.session = false) (turns : Nat) :
    (∃ n, First (Stops m d.session enough) n ∧
      d.stepsUntil enough turns = .ok (d.running (m.run [] n)).refresh) ∨
    (d.stepsUntil enough turns = .error .endless ∧
      ∀ n, 0 < n → n ≤ turns → ¬Stops m d.session enough n) := by
  induction turns generalizing m d with
  | zero => exact .inr ⟨rfl, fun n hpos hle => absurd hle (Nat.not_le_of_lt hpos)⟩
  | succ turns ih =>
    obtain ⟨hfault, hafter⟩ := Machine.run_nil_wellFormed hm 1
    have hruns := holds_running h (m.run [] 1)
    rw [stepsUntil, tick_of_holds hfixed h hm]
    by_cases hs : (m.run [] 1).machine.state = .running
    · have hrunning : m.state = .running := by
        refine Classical.byContradiction fun hidle => hidle ?_
        rw [Machine.run_nil_of_idle hidle] at hs
        exact hs
      have hzero := not_stops_zero h hrunning henough
      rw [decide_eq_true hs]
      dsimp only
      cases hnow : enough (d.running (m.run [] 1)).session with
      | true =>
        rw [if_pos rfl]
        exact .inl ⟨1, (First.zero (.inr hnow)).succ hzero, rfl⟩
      | false =>
        rw [if_neg Bool.false_ne_true]
        rcases ih hruns hafter hnow with ⟨n, hfirst, heq⟩ | ⟨heq, hnever⟩
        · have hlater := (First.congr fun k => (stops_succ_iff d.session hfault k).symm).mp hfirst
          refine .inl ⟨n + 1, hlater.succ hzero, ?_⟩
          rw [heq, running_running, Machine.run_nil_succ hfault n]
        · refine .inr ⟨heq, fun n hpos hle => ?_⟩
          obtain ⟨n, rfl⟩ := Nat.exists_eq_succ_of_ne_zero (Nat.ne_of_gt hpos)
          rw [stops_succ_iff d.session hfault n]
          rcases Nat.eq_zero_or_pos n with rfl | hn
          · exact not_stops_zero hruns hs hnow
          · exact hnever n hn (Nat.le_of_succ_le_succ hle)
    · rw [decide_eq_false hs]
      left
      by_cases hrunning : m.state = .running
      · exact ⟨1, (First.zero (.inl hs)).succ (not_stops_zero h hrunning henough), rfl⟩
      · refine ⟨0, .zero (.inl ?_), ?_⟩
        · rw [Machine.run_nil_zero]
          exact hrunning
        · rw [Machine.run_nil_of_idle hrunning, Machine.run_nil_zero]

end

/-! ## Actions -/

/-- The debugger runs this machine, and has shown every line. -/
structure Shows (t : NumberType) (m : Machine) (d : Debugger) : Prop where
  holds : d.session.Holds t m
  log : d.log = d.session.output

theorem refresh_of_append {lines : List String} (h : d.session.output = d.log ++ lines) :
    d.refresh = { d with log := d.session.output } := by
  unfold refresh
  rw [h, List.drop_left]

/-- The debugger after a run of its machine, with every line shown. -/
def afterRun (d : Debugger) (r : Run) : Debugger :=
  { d.running r with log := (d.session.afterRun r).output }

theorem Shows.afterRun (h : Shows t m d) (r : Run) : Shows t r.machine (d.afterRun r) :=
  ⟨h.holds.afterRun r, rfl⟩

theorem Shows.refresh_running (h : Shows t m d) (r : Run) :
    (d.running r).refresh = d.afterRun r := by
  have happend : (d.running r).session.output =
      (d.running r).log ++ Session.linesOf r.outputs := by
    rw [Debugger.running, h.log]
    rfl
  exact refresh_of_append happend

theorem enough_afterRun (s : Session) (r : Run) :
    decide (s.output.length < (s.afterRun r).output.length) = true ↔ r.outputs ≠ [] := by
  rw [decide_eq_true_eq, Session.afterRun, List.length_append, Session.linesOf, List.length_map,
    ← List.length_pos_iff]
  omega

section

variable (hfixed : t ≠ .unbounded)
include hfixed

/-- An action that steps the machine takes its number of steps, if it is given the time. -/
theorem Shows.carryOut_eq (h : Shows t m d) (hm : m.WellFormed t) (ha : ∀ text, a ≠ .submit text)
    (turns : Nat) :
    (∃ n, a.Takes m n ∧ d.carryOut turns a = .ok (d.afterRun (m.run [] n))) ∨
    (d.carryOut turns a = .error .endless ∧ ∀ n, a.Takes m n → turns ≤ n) := by
  have hsteps (n : Nat) : d.steps n = .ok (d.afterRun (m.run [] n)) := by
    rw [steps_of_holds hfixed h.holds hm, h.refresh_running]
  have hbackground {enough : Session → Bool} (henough : enough d.session = false)
      (htakes : ∀ n, a.Takes m n ↔ First (Stops m d.session enough) n)
      (hcarry : d.carryOut turns a = d.stepsUntil enough turns) :
      (∃ n, a.Takes m n ∧ d.carryOut turns a = .ok (d.afterRun (m.run [] n))) ∨
      (d.carryOut turns a = .error .endless ∧ ∀ n, a.Takes m n → turns ≤ n) := by
    rw [hcarry]
    rcases stepsUntil_of_holds hfixed h.holds hm henough turns with
      ⟨n, hfirst, heq⟩ | ⟨heq, hnever⟩
    · exact .inl ⟨n, (htakes n).mpr hfirst, by rw [heq, h.refresh_running]⟩
    · refine .inr ⟨heq, fun n hn => Nat.le_of_not_lt fun hlt => ?_⟩
      have hstops := ((htakes n).mp hn).1
      rcases Nat.eq_zero_or_pos n with rfl | hpos
      · have hidle : m.state ≠ .running := fun hs => not_stops_zero h.holds hs henough hstops
        exact hnever 1 Nat.one_pos hlt (.inl (by rwa [Machine.run_nil_of_idle hidle]))
      · exact hnever n hpos (Nat.le_of_lt hlt) hstops
  cases a with
  | step | step10 | step100 => exact .inl ⟨_, rfl, hsteps _⟩
  | run =>
    have hstops k : (m.run [] k).machine.state ≠ .running ↔
        Stops m d.session (fun _ => false) k := (or_iff_left Bool.false_ne_true).symm
    exact hbackground rfl (fun n => Action.takes_run_iff.trans (First.congr hstops))
      (runWithin_of_holds hfixed h.holds hm 0 turns)
  | runToPrint =>
    have hstops k : ((m.run [] k).machine.state ≠ .running ∨ (m.run [] k).outputs ≠ []) ↔
        Stops m d.session (fun s => d.session.output.length < s.output.length) k :=
      or_congr_right (enough_afterRun d.session (m.run [] k)).symm
    exact hbackground (decide_eq_false (Nat.lt_irrefl _))
      (fun n => Action.takes_runToPrint_iff.trans (First.congr hstops))
      (runToPrintWithin_eq d d.session.output.length turns)
  | submit text => exact absurd rfl (ha text)

theorem act_of_carryOut {turns : Nat} (hm : m'.WellFormed t)
    (hmachine : d'.session.machine = some m') (h : d.carryOut turns a = .ok d') :
    d.act turns a = .ok d' := by
  rw [act, h]
  exact if_pos (showable_of_wellFormed hfixed hm hmachine)

/-- The action comes to an end after its number of steps. -/
theorem Shows.does_of_takes (h : Shows t m d) (hm : m.WellFormed t) {n : Nat}
    (hn : a.Takes m n) : d.Does a (d.afterRun (m.run [] n)) := by
  have ha : ∀ text, a ≠ .submit text := by
    rintro text rfl
    exact hn
  rcases h.carryOut_eq hfixed hm ha (n + 1) with ⟨n', hn', heq⟩ | ⟨-, hlate⟩
  · obtain rfl := hn.unique hn'
    exact ⟨n + 1, act_of_carryOut hfixed (Machine.run_nil_wellFormed hm n).2 rfl heq⟩
  · exact absurd (hlate n hn) (Nat.not_succ_le_self n)

theorem Shows.exists_takes_of_does (h : Shows t m d) (hm : m.WellFormed t)
    (ha : ∀ text, a ≠ .submit text) (hd : d.Does a d') :
    ∃ n, a.Takes m n ∧ d' = d.afterRun (m.run [] n) := by
  obtain ⟨turns, hturns⟩ := hd
  rcases h.carryOut_eq hfixed hm ha turns with ⟨n, hn, heq⟩ | ⟨heq, -⟩
  · have hact := act_of_carryOut hfixed (Machine.run_nil_wellFormed hm n).2 rfl heq
    rw [hturns] at hact
    exact ⟨n, hn, Except.ok.inj hact⟩
  · rw [act, heq] at hturns
    cases hturns

end

end Debugger
end MatrixStack
