/-
The stacks of a program, block by block.

Whatever a loaded machine is asked for, a stack changes only through the instructions that are
executed on its block.  The stack of a block without such executions is the one that was loaded, and
a growable stack has as many values as it was loaded with, one more for every push and duplication
executed on the block, and one less for every other use that has found a value.
-/
import MatrixStack.Proofs.Machine.Ledger
import MatrixStack.Proofs.Program.Loaded

namespace MatrixStack
namespace Program

variable {conv : Converters} {type : NumberType} {m : Machine} {b : Pointer}

/-- Every block of a grid that has grown with its text has a growable stack. -/
theorem exists_growable_of_load {source : String} (h : load conv type source = .ok m)
    (hb : m.stackPlane.extent.contains b = true) :
    ∃ values, m.stackAt? b = some (.growable values) := by
  obtain ⟨layout, -, hlaid, -⟩ := laidOut_of_load h
  rw [hlaid.extent] at hb
  rw [hlaid.stackAt, if_pos hb, Stack.empty, Stack.pushAll_growable]
  exact ⟨_, rfl⟩

/-- Whatever a machine has been asked for, it answers the next call without a change to its grid, to
the size of its planes, or to any stack but the one of the block that the cursor is in, and changes
that one only for an instruction that uses it.  A stack on whose block no such instruction has been
executed is as it was at first.  On a grid that has grown with its text every stack has the size
that it was loaded with and that the executions on its block account for. -/
theorem stacks_are_private (m : Machine) (qs : List Request) (cs : List Call) (vs : List Number)
    (m' : Machine) (h : m.Serves qs cs vs m') :
    let executed := m.history cs
    (∀ c : Call, let after := (Machine.callBy Machine.step m' c).2
      after.grid = m'.grid ∧ after.stackPlane.extent = m'.stackPlane.extent ∧
      ∀ b, after.stackAt? b ≠ m'.stackAt? b →
        b = m'.pointer.block ∧ c = .step ∧ ∃ i, m'.next? = some i ∧ i.usesStack = true) ∧
    (∀ b, (∀ e ∈ executed, e.block = b → e.instruction.usesStack = false) →
      m'.stackAt? b = m.stackAt? b) ∧
    ∀ conv type source, load conv type source = .ok m →
      ∀ b, m.stackPlane.extent.contains b = true →
        ∃ s s', m.stackAt? b = some s ∧ m'.stackAt? b = some s' ∧
          s'.size + Execution.taken b executed = s.size + Execution.put b executed := by
  obtain rfl := h.after
  refine ⟨fun c => ?_, fun b => Machine.stackAt?_after_of_unused,
    fun conv type source hload b hb => ?_⟩
  · cases c with
    | step =>
      have hframe := Machine.step_untouched (m.after cs)
      refine ⟨hframe.grid, hframe.extent, fun b hchanged => ?_⟩
      obtain ⟨hblock, huse⟩ := Machine.use_of_changed hchanged
      exact ⟨hblock, rfl, huse⟩
    | input v =>
      refine ⟨Machine.grid_input _ v, congrArg Plane.extent (Machine.stackPlane_input _ v), ?_⟩
      intro b hchanged
      exact absurd (Machine.stackAt?_input _ v b) hchanged
  · obtain ⟨values, hs⟩ := exists_growable_of_load hload hb
    obtain ⟨values', hs', hbooks⟩ := Machine.books_after hs cs
    refine ⟨_, _, hs, hs', ?_⟩
    rw [Stack.size_growable, Stack.size_growable]
    exact hbooks

/-- Two of the three pops on the first block find nothing, and the duplication between them leaves
one value; the last of them moves the cursor to the second block. -/
theorem stacks_are_private_across_a_border :
    let byte := NumberType.unsigned .bits8
    ∃ m cs vs m', load (.ofType byte) byte "s 1 0 7 9\n.d.c+" = .ok m ∧
      m.Serves [.run [] (some 5)] cs vs m' ∧
      Execution.put .origin (m.history cs) = 1 ∧ Execution.taken .origin (m.history cs) = 1 ∧
      (∃ s s', m.stackAt? .origin = some s ∧ m'.stackAt? .origin = some s' ∧
        s'.size + 1 = s.size + 1) ∧
      ∃ s s', m.stackAt? ⟨1, 0⟩ = some s ∧ m'.stackAt? ⟨1, 0⟩ = some s' ∧
        s'.size + 1 = s.size + 0 := by
  intro byte
  have hload : (load (.ofType byte) byte "s 1 0 7 9\n.d.c+").isOk = true := by decide
  obtain ⟨m, hm⟩ := Outcome.exists_of_isOk hload
  have hcheck : ∀ m ∈ (load (.ofType byte) byte "s 1 0 7 9\n.d.c+").toOption,
      let executed := m.history (m.runCalls [] 5 ++ [])
      (Execution.put .origin executed = 1 ∧ Execution.taken .origin executed = 1) ∧
      (Execution.put ⟨1, 0⟩ executed = 0 ∧ Execution.taken ⟨1, 0⟩ executed = 1) ∧
      m.stackPlane.extent = ⟨2, 1⟩ := by decide
  rw [hm] at hcheck
  obtain ⟨⟨hput, htaken⟩, ⟨hput', htaken'⟩, hextent⟩ := hcheck m rfl
  have hcap : m.Completes [] (some 5) 5 := rfl
  have hserves := Machine.Serves.run hcap (.done _)
  obtain ⟨-, -, hsizes⟩ := stacks_are_private m _ _ _ _ hserves
  have hfirst := hsizes _ byte _ hm .origin (by rw [hextent]; decide)
  have hsecond := hsizes _ byte _ hm ⟨1, 0⟩ (by rw [hextent]; decide)
  rw [hput, htaken] at hfirst
  rw [hput', htaken'] at hsecond
  exact ⟨m, _, _, _, hm, hserves, hput, htaken, hfirst, hsecond⟩

end Program
end MatrixStack
