/-
The counters of a loaded machine.

A loaded machine starts with its counters at zero, on a grid of instructions only
(`Loaded.noForeign`).  Whatever it is asked for afterwards, its counters are those of its history: as
many steps as instructions executed, as many outputs as numbers given out, and as many inputs as
requests made, but for the one that is still open.
-/
import MatrixStack.Proofs.Machine.History
import MatrixStack.Proofs.Program.Loaded

namespace MatrixStack
namespace Program

variable {conv : Converters} {type : NumberType} {m m' : Machine}

theorem Loaded.noForeign (h : Loaded conv type m) : m.NoForeign := by
  obtain ⟨_, layout, _, -, -, hlaid⟩ := h.laidOut
  intro p o hp
  obtain ⟨i, hi⟩ := exists_cellAt layout.rows p
  rw [hlaid.grid.get?, hi] at hp
  split at hp
  · cases hp
  · cases hp

theorem Loaded.state (h : Loaded conv type m) : m.state = .running := by
  obtain ⟨_, _, _, -, -, hlaid⟩ := h.laidOut
  rw [hlaid.fresh]
  rfl

theorem Loaded.steps (h : Loaded conv type m) : m.steps = 0 := by
  obtain ⟨_, _, _, -, -, hlaid⟩ := h.laidOut
  rw [hlaid.fresh]
  rfl

/-- The counters of a machine that has been loaded count its history. -/
theorem Loaded.accounts (h : Loaded conv type m) (cs : List Call) :
    (m.after cs).steps = (m.history cs).length ∧
    (m.after cs).outputs = (m.given cs).length ∧
    (m.after cs).inputs + (m.after cs).openRequests =
      Execution.count (.exchange .input) (m.history cs) := by
  obtain ⟨hsteps, houtputs, hinputs⟩ := Machine.accounts_after h.noForeign cs
  obtain ⟨_, _, _, -, -, hlaid⟩ := h.laidOut
  have hfresh : m.steps = 0 ∧ m.outputs = 0 ∧ m.inputs + m.openRequests = 0 := by
    rw [hlaid.fresh]
    exact ⟨rfl, rfl, rfl⟩
  rw [Machine.given_eq, Execution.length_printed]
  omega

/-- Whatever a loaded machine has been asked for, its steps are the instructions that it has
executed, its outputs the numbers that it has given out, each the register of the machine that
printed it, and its inputs the requests that it has made, less the one that still waits.  Steps and
inputs out of turn change nothing, a stopped machine never changes again, and a run executes at most
the allowed number of instructions, and just that number if it leaves the machine running. -/
theorem counters_count_history (conv : Converters) (type : NumberType) (m : Machine)
    (hm : Loaded conv type m) (qs : List Request) (cs : List Call) (vs : List Number)
    (m' : Machine) (h : m.Serves qs cs vs m') :
    let executed := m.history cs
    m'.steps = executed.length ∧
    m'.outputs = vs.length ∧ vs = Execution.printed executed ∧
    Execution.count (.exchange .input) executed =
      m'.inputs + (if m'.state = .inputWaiting then 1 else 0) ∧
    m'.inputs + m'.outputs ≤ m'.steps ∧
    (m'.state ≠ .running → m'.step = (.ok none, m')) ∧
    (m'.state ≠ .inputWaiting → ∀ v, m'.input v = m') ∧
    (m'.state = .stopped → ∀ qs cs vs m'', m'.Serves qs cs vs m'' → m'' = m' ∧ vs = []) ∧
    ∀ pending n,
      let r := m'.run pending n
      let more := m'.history (m'.runCalls pending n)
      r.machine.steps = m'.steps + more.length ∧ more.length ≤ n ∧
        (r.fault = none → r.machine.state = .running → more.length = n) := by
  obtain rfl := h.after
  obtain rfl := h.given
  obtain ⟨hsteps, houtputs, hinputs⟩ := hm.accounts cs
  have hgiven := Machine.given_eq m cs
  refine ⟨hsteps, houtputs, hgiven, hinputs.symm, ?_, Machine.step_of_not_running,
    Machine.input_of_not_waiting, ?_, ?_⟩
  · have hboth : Execution.count (.exchange .print) (m.history cs) +
        Execution.count (.exchange .input) (m.history cs) ≤ (m.history cs).length :=
      Execution.count_add_count_le (by decide) _
    rw [hgiven, Execution.length_printed] at houtputs
    omega
  · intro hs qs ds vs m'' hserves
    rw [hserves.after, hserves.given, Machine.given_eq, Machine.history_of_stopped hs]
    exact ⟨Machine.after_of_stopped hs ds, rfl⟩
  · intro pending n
    have hcells : (m.after cs).NoForeign := by
      unfold Machine.NoForeign
      rw [Machine.grid_after]
      exact hm.noForeign
    have haccounts := Machine.accounts_after hcells ((m.after cs).runCalls pending n)
    rw [Machine.after_runCalls] at haccounts
    exact ⟨haccounts.steps, Machine.length_history_run_le _ pending n,
      Machine.length_history_run_of_running⟩

theorem counters_count_history_of_mixed_requests :
    let byte := NumberType.unsigned .bits8
    let five : Number := ⟨byte, 5⟩
    let qs : List Request := [.step, .run [] (some 3), .input five, .run [] none, .step]
    ∃ m cs vs m', load (.ofType byte) byte ">ip" = .ok m ∧ m.Serves qs cs vs m' ∧
      m'.steps = (m.history cs).length ∧ vs = Execution.printed (m.history cs) ∧
      m'.inputs + m'.outputs ≤ m'.steps := by
  intro byte five qs
  have hload : (load (.ofType byte) byte ">ip").isOk = true := by decide
  obtain ⟨m, hm⟩ := Outcome.exists_of_isOk hload
  have hended : ∀ m ∈ (load (.ofType byte) byte ">ip").toOption,
      Machine.ended (((m.step.2.run [] 3).machine.input five).run [] 2) = true := by decide
  rw [hm] at hended
  have hcapped : m.step.2.Completes [] (some 3) 3 := rfl
  have hfree : ((m.step.2.run [] 3).machine.input five).Completes [] none 2 := hended m rfl
  have hserves := Machine.Serves.step <| .run hcapped <| .input five <| .run hfree <|
    .step (.done _)
  have hcounters := counters_count_history _ byte m (.grown _ hm) qs _ _ _ hserves
  exact ⟨m, _, _, _, hm, hserves, hcounters.1, hcounters.2.2.1, hcounters.2.2.2.2.1⟩

end Program
end MatrixStack
