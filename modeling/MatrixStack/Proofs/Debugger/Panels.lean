/-
The state panel, and panels that can always be shown.

The only thing that cannot be shown is a number whose numeral is too long.  Without one the state
panel has seven lines, each with a label and a field of the machine (`stateText?_eq`), so that the
fields can be read off again (`fields_of_stateText?`).  A well-formed machine with numbers of fixed
width has no number of this kind, neither in its register nor on a stack, so that its panels never
fail (`showable_of_wellFormed`).
-/
import MatrixStack.Debugger.Basic
import MatrixStack.Proofs.Debugger.StackPanel
import MatrixStack.Proofs.Session.Records

namespace MatrixStack

/-! ## Names -/

theorem State.name_injective {s s' : State} (h : s.name = s'.name) : s = s' := by
  revert h
  cases s <;> cases s' <;> decide

theorem Direction.name_injective {d d' : Direction} (h : d.name = d'.name) : d = d' := by
  revert h
  cases d <;> cases d' <;> decide

theorem NumberType.name_injective {t t' : NumberType} (h : t.name = t'.name) : t = t' := by
  have htable : ∀ t ∈ all, ∀ t' ∈ all, t.name = t'.name → t = t' := by decide
  exact htable t t.mem_all t' t'.mem_all h

/-! ## Machines that can be printed -/

theorem Machine.WellFormed.printable {t : NumberType} {m : Machine} (hm : m.WellFormed t)
    (hfixed : t ≠ .unbounded) : m.Printable where
  register := NumberType.printable_of_holds hfixed hm.register.2
  items b s hs v hv := by
    have hb : m.stackPlane.extent.contains b = true := Program.contains_of_join_get? hs
    obtain ⟨s', hs', hall⟩ := hm.stackAt b hb
    obtain rfl : s = s' := Option.some.inj (hs.symm.trans hs')
    exact NumberType.printable_of_holds hfixed (hall.items v hv).2

namespace Panel

variable {m m' : Machine}

/-! ## The state panel -/

def stateLines (m : Machine) : List String := [
  "State:     " ++ m.state.name,
  "Register:  " ++ Decimal.text m.register.value,
  "Pointer:   " ++ pointerText m,
  "Direction: " ++ m.direction.name,
  "Steps:     " ++ m.steps.repr,
  "Type:      " ++ m.numberType.name,
  "Grid:      " ++ m.grid.extent.text ++ "  Stacks: " ++ m.stackPlane.extent.text]

theorem stateText?_eq (hm : m.Printable) :
    stateText? m = some ("\n".intercalate (stateLines m)) := by
  simp only [stateText?, Number.printed?_of_printable hm.register, Option.map_some, stateLines,
    String.intercalate_cons_cons, String.intercalate_singleton, String.append_assoc]

theorem oneLine_stateLines (m : Machine) : ∀ line ∈ stateLines m, Text.OneLine line := by
  have hstate : Text.OneLine m.state.name := by cases m.state <;> decide
  have hdirection : Text.OneLine m.direction.name := by cases m.direction <;> decide
  have htype : Text.OneLine m.numberType.name := by
    have htable : ∀ u ∈ NumberType.all, Text.OneLine u.name := by decide
    exact htable _ m.numberType.mem_all
  have hpointer : Text.OneLine (pointerText m) := by
    refine m.pointer.oneLine_text.append ?_
    split <;> decide
  have hlabelled {label : String} (hlabel : Text.OneLine label) {text : String}
      (htext : Text.OneLine text) : Text.OneLine (label ++ text) := hlabel.append htext
  simp only [stateLines, List.forall_mem_cons, List.not_mem_nil, false_implies, implies_true,
    and_true]
  refine ⟨hlabelled (by decide) hstate, hlabelled (by decide) (Decimal.oneLine_text _),
    hlabelled (by decide) hpointer, hlabelled (by decide) hdirection,
    hlabelled (by decide) (Decimal.oneLine_text m.steps), hlabelled (by decide) htype, ?_⟩
  exact ((hlabelled (by decide) m.grid.extent.oneLine_text).append (by decide)).append
    m.stackPlane.extent.oneLine_text

theorem stateLines_eq_of_stateText? (hm : m.Printable) (hm' : m'.Printable)
    (h : stateText? m' = stateText? m) : stateLines m' = stateLines m := by
  rw [stateText?_eq hm, stateText?_eq hm', Option.some.injEq] at h
  have hlines := congrArg Text.linesIn h
  rw [Text.linesIn_intercalate (oneLine_stateLines m') (List.cons_ne_nil _ _),
    Text.linesIn_intercalate (oneLine_stateLines m) (List.cons_ne_nil _ _),
    List.map_inj_right fun _ _ => String.toList_inj.mp] at hlines
  exact hlines

/-- The fields can be read off the panel. -/
theorem fields_of_stateText? (hm : m.Printable) (hm' : m'.Printable)
    (h : stateText? m' = stateText? m) :
    m'.state = m.state ∧ m'.register.value = m.register.value ∧ m'.pointer = m.pointer ∧
      m'.direction = m.direction ∧ m'.steps = m.steps ∧ m'.numberType = m.numberType ∧
      m'.grid.extent = m.grid.extent := by
  have hlines := stateLines_eq_of_stateText? hm hm' h
  simp only [stateLines, List.cons.injEq, String.append_right_inj, String.append_assoc] at hlines
  obtain ⟨hstate, hregister, hpointer, hdirection, hsteps, htype, hextents, -⟩ := hlines
  refine ⟨State.name_injective hstate, Decimal.text_injective hregister, ?_,
    Direction.name_injective hdirection, Decimal.repr_injective hsteps,
    NumberType.name_injective htype, ?_⟩
  · rw [pointerText, pointerText, ← String.toList_inj, String.toList_append,
      String.toList_append] at hpointer
    exact (Pointer.text_append_inj hpointer).1
  · have hblank : "  Stacks: ".toList = ' ' :: " Stacks: ".toList := rfl
    rw [← String.toList_inj] at hextents
    simp only [String.toList_append, hblank, List.cons_append] at hextents
    exact Extent.text_append_inj hextents

end Panel

/-! ## Panels of a debugger -/

theorem Debugger.showable_of_wellFormed {t : NumberType} {m : Machine} {d : Debugger}
    (hfixed : t ≠ .unbounded) (hm : m.WellFormed t) (h : d.session.machine = some m) :
    d.showable = true := by
  have hprint := hm.printable hfixed
  rw [Debugger.showable, h]
  dsimp only
  rw [Panel.stateText?_eq hprint, Panel.stacksText?, Panel.stackLines?_eq hprint]
  rfl

end MatrixStack
