/-
Loaded programs and the cursor without a modulus.

A loaded machine starts with its cursor on the origin, where wrapping changes nothing.  From there
on it follows the ideal machine, on every grid that is smaller than the modulus.
-/
import MatrixStack.Proofs.Machine.Cursor
import MatrixStack.Proofs.Program.Loaded

namespace MatrixStack
namespace Program

variable {conv : Converters} {type : NumberType} {m : Machine}

theorem Loaded.pointer (h : Loaded conv type m) : m.pointer = .origin := by
  obtain ⟨_, _, _, -, -, hlaid⟩ := h.laidOut
  rw [hlaid.fresh]
  rfl

theorem Loaded.follows (h : Loaded conv type m) (hw : m.grid.extent.width < Pointer.modulus)
    (hh : m.grid.extent.height < Pointer.modulus) : Machine.Follows m m := by
  have hwrap : m.pointer.wrap = m.pointer := by
    rw [h.pointer]
    decide
  exact ⟨(Machine.wrapped_of_wrap_eq hwrap).symm, hw, hh, by rw [hwrap]⟩

/-- A loaded machine is the ideal one with its cursor wrapped after every sequence of calls and is
answered alike; once its cursor is outside of the grid it stops at the next step it can make, and
the cursor stays where it is for good. -/
theorem wrapping_cursor_is_ideal (conv : Converters) (type : NumberType) (m : Machine)
    (hm : Loaded conv type m) (hw : m.grid.extent.width < Pointer.modulus)
    (hh : m.grid.extent.height < Pointer.modulus) (cs : List Call) :
    m.answers cs = m.answersBy Machine.idealStep cs ∧
    m.after cs = (m.afterBy Machine.idealStep cs).wrapped ∧
    (m.after cs).grid.extent.contains (m.after cs).pointer =
      (m.after cs).grid.extent.contains (m.afterBy Machine.idealStep cs).pointer ∧
    ((m.after cs).grid.extent.contains (m.after cs).pointer = false →
      ((m.after cs).state = .running →
        (m.after cs).step = (.ok none, { m.after cs with state := .stopped })) ∧
      ∀ ds, (m.after (cs ++ ds)).pointer = (m.after cs).pointer) := by
  obtain ⟨hanswers, hfollows⟩ := Machine.answers_of_follows (hm.follows hw hh) cs
  refine ⟨hanswers.symm, hfollows.wrapped, ?_, ?_⟩
  · rw [hfollows.wrapped]
    exact hfollows.contains
  · intro houtside
    refine ⟨fun hs => Machine.step_of_outside hs houtside, fun ds => ?_⟩
    rw [Machine.after, Machine.afterBy_append]
    exact Machine.pointer_after_of_outside houtside ds

theorem wrapping_cursor_is_ideal_left_of_the_grid :
    let byte := NumberType.unsigned .bits8
    let calls := [Call.step, .step, .step]
    ∃ m, load (.ofType byte) byte "<" = .ok m ∧
      m.grid.extent.width < Pointer.modulus ∧ m.grid.extent.height < Pointer.modulus ∧
      (m.afterBy Machine.idealStep calls).pointer = ⟨-1, 0⟩ ∧
      (m.after calls).pointer = ⟨18446744073709551615, 0⟩ := by
  intro byte calls
  have hload : (load (.ofType byte) byte "<").isOk = true := by decide
  obtain ⟨m, hm⟩ := Outcome.exists_of_isOk hload
  have hcheck : ∀ m ∈ (load (.ofType byte) byte "<").toOption,
      m.grid.extent.width < Pointer.modulus ∧ m.grid.extent.height < Pointer.modulus ∧
        (m.afterBy Machine.idealStep calls).pointer = ⟨-1, 0⟩ := by decide
  rw [hm] at hcheck
  obtain ⟨hw, hh, hideal⟩ := hcheck m rfl
  have hrun := wrapping_cursor_is_ideal _ byte m (.grown _ hm) hw hh calls
  refine ⟨m, hm, hw, hh, hideal, ?_⟩
  rw [hrun.2.1]
  show (m.afterBy Machine.idealStep calls).pointer.wrap = _
  rw [hideal]
  decide

end Program
end MatrixStack
