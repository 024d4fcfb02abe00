/-
Steps of a session, and runs of its machine.

Stepping a session so many times is running its machine without numbers for so many steps: the
machine is that of the run, the numbers that the run prints are appended to the output, and the
phase is that of the machine (`ticks_eq`).  This holds also where the machine waits or has stopped,
since a step then changes nothing.
-/
import MatrixStack.Proofs.Machine.Piecewise
import MatrixStack.Proofs.Session.Records

namespace MatrixStack
namespace Session

/-- The session has a program whose machine this is, and its phase is up to date. -/
structure Holds (t : NumberType) (m : Machine) (s : Session) : Prop where
  numberType : s.numberType = t
  machine : s.machine = some m
  phase : s.phase = Phase.ofState m.state

/-- The session after a run of its machine. -/
def afterRun (s : Session) (r : Run) : Session :=
  { s.withMachine r.machine with output := s.output ++ linesOf r.outputs }

variable {t : NumberType} {m : Machine} {s : Session}

theorem Holds.withMachine (h : Holds t m s) (m' : Machine) : Holds t m' (s.withMachine m') :=
  ⟨h.numberType, rfl, rfl⟩

theorem Holds.afterRun (h : Holds t m s) (r : Run) : Holds t r.machine (s.afterRun r) :=
  ⟨h.numberType, rfl, rfl⟩

theorem Holds.withMachine_self (h : Holds t m s) : s.withMachine m = s := by
  rw [Session.withMachine, ← h.machine, ← h.phase]

theorem afterRun_afterRun (s : Session) (r r' : Run) :
    (s.afterRun r).afterRun r' = s.afterRun (r'.prepend r.outputs) := by
  unfold afterRun Run.prepend
  rw [linesOf_append, ← List.append_assoc]
  rfl

theorem Holds.afterRun_idle (h : Holds t m s) :
    s.afterRun ⟨[], m, [], none⟩ = s := by
  unfold Session.afterRun
  rw [h.withMachine_self, show linesOf [] = [] from rfl, List.append_nil]

/-- One step of the session is one step of a run, and answers whether the machine then runs. -/
theorem Holds.tick_eq (h : Holds t m s) (hm : m.WellFormed t) (hfixed : t ≠ .unbounded) :
    s.tick = (.ok ((m.run [] 1).machine.state = .running), s.afterRun (m.run [] 1)) := by
  obtain ⟨⟨printed, hprinted⟩, -⟩ := Machine.step_wellFormed hm
  have hstep : m.step = (.ok printed, m.step.2) := Prod.ext hprinted rfl
  have hprintable : ∀ v ∈ printed, Decimal.printable v.value = true := by
    rintro v rfl
    exact NumberType.printable_of_holds hfixed (hm.belongs_of_step hprinted).2
  rw [tick_of_step h.machine hstep hprintable]
  by_cases hs : m.state = .running
  · rw [Machine.run_nil_one hs hstep]
    rfl
  · rw [Machine.step_of_not_running hs] at hstep ⊢
    cases hstep
    rw [Machine.run_nil_of_idle hs]
    rfl

/-- So many steps of the session are a run of so many steps. -/
theorem Holds.ticks_eq (h : Holds t m s) (hm : m.WellFormed t) (hfixed : t ≠ .unbounded)
    (n : Nat) : ∃ bs, s.ticks n = (.ok bs, s.afterRun (m.run [] n)) := by
  induction n generalizing m s with
  | zero => exact ⟨[], by rw [Machine.run_nil_zero, h.afterRun_idle]; rfl⟩
  | succ n ih =>
    obtain ⟨hfault, hafter⟩ := Machine.run_nil_wellFormed hm 1
    obtain ⟨bs, hbs⟩ := ih (h.afterRun (m.run [] 1)) hafter
    refine ⟨decide ((m.run [] 1).machine.state = .running) :: bs, ?_⟩
    rw [ticks, h.tick_eq hm hfixed]
    dsimp only
    rw [hbs, Machine.run_nil_succ hfault n, afterRun_afterRun]

end Session
end MatrixStack
