/-
Machines that differ in their planes.

What a call does depends on the planes of a machine through one cell and one stack only: the cell
under the cursor and the stack of its block.  Machines that agree in everything but their planes
answer a step alike and agree afterwards if the two cells are equal and the two stacks are alike
(`step_alike`).  If that is so everywhere, they answer every sequence of calls alike
(`answers_alike`).
-/
import MatrixStack.Proofs.Machine.Step
import MatrixStack.Proofs.Stack.Likeness

namespace MatrixStack
namespace Machine

variable {m m' : Machine} {i : Instruction} {R : Stack Number → Stack Number → Prop}
  {Within : Stack Number → Prop}

/-- The machine on other planes. -/
def onPlanes (m : Machine) (grid : Plane Cell) (stackPlane : StackPlane) : Machine :=
  { m with grid := grid, stackPlane := stackPlane }

/-- The machines are equal but for their planes. -/
def Agrees (m m' : Machine) : Prop := m' = m.onPlanes m'.grid m'.stackPlane

theorem Agrees.exists_planes (h : m.Agrees m') : ∃ g p, m' = m.onPlanes g p := ⟨_, _, h⟩

theorem Agrees.pointer (h : m.Agrees m') : m'.pointer = m.pointer := by
  obtain ⟨g, p, rfl⟩ := h.exists_planes
  rfl

theorem agrees_onPlanes (m : Machine) (g : Plane Cell) (p : StackPlane) :
    m.Agrees (m.onPlanes g p) := rfl

/-! ## One step -/

theorem rel_cases {a b : Option (Stack Number)} (h : Option.Rel R a b) :
    (a = none ∧ b = none) ∨ ∃ s t, a = some s ∧ b = some t ∧ R s t := by
  cases h with
  | none => exact .inl ⟨rfl, rfl⟩
  | some hst => exact .inr ⟨_, _, rfl, rfl, hst⟩

theorem rel_eq_of_eq {a b : Option (Stack Number)} (h : b = a) : Option.Rel Eq a b := by
  rw [h]
  cases a with
  | none => exact .none
  | some s => exact .some rfl

theorem eq_of_rel_eq {a b : Option (Stack Number)} (h : Option.Rel Eq a b) : b = a := by
  rcases rel_cases h with ⟨ha, hb⟩ | ⟨s, t, ha, hb, rfl⟩
  · rw [ha, hb]
  · rw [ha, hb]

/-- Two machines answer alike, agree afterwards, and have like stacks in the block. -/
structure SameEffect (R : Stack Number → Stack Number → Prop) (block : Pointer)
    (x y : Answer × Machine) : Prop where
  answer : x.1 = y.1
  agrees : x.2.Agrees y.2
  stack : Option.Rel R (x.2.stackAt? block) (y.2.stackAt? block)

section

variable {g : Plane Cell} {p : StackPlane} {s t s' t' : Stack Number}

theorem rel_setCurrentStack (hs : m.currentStack? = some s)
    (ht : (m.onPlanes g p).currentStack? = some t) (hst : R s' t') :
    Option.Rel R ((m.setCurrentStack s').stackAt? m.pointer.block)
      (((m.onPlanes g p).setCurrentStack t').stackAt? m.pointer.block) := by
  have hself : ((m.onPlanes g p).setCurrentStack t').stackAt? m.pointer.block = some t' :=
    stackAt?_setCurrentStack_self ht t'
  rw [stackAt?_setCurrentStack_self hs, hself]
  exact .some hst

theorem execute_operator_alike (hR : Stack.Likeness R Within) (hs : m.currentStack? = some s)
    (ht : (m.onPlanes g p).currentStack? = some t) (hst : R s t) (o : Operator)
    (hwithin : ∀ s', (m.execute (.operator o)).2.stackAt? m.pointer.block = some s' → Within s') :
    SameEffect R m.pointer.block (m.execute (.operator o))
      ((m.onPlanes g p).execute (.operator o)) := by
  have hafter : Within (o.apply m.numberType m.register s).2 := by
    apply hwithin
    rw [execute_operator hs]
    cases (o.apply m.numberType m.register s).1 with
    | error cause => exact stackAt?_setCurrentStack_self hs _
    | ok v => exact stackAt?_setCurrentStack_self hs _
  obtain ⟨hanswer, hrest⟩ := Operator.apply_alike hR o hst hafter
  have hstack := rel_setCurrentStack hs ht hrest
  have hanswer' : (o.apply m.numberType m.register s).1 =
      (o.apply (m.onPlanes g p).numberType (m.onPlanes g p).register t).1 := hanswer
  rw [execute_operator hs, execute_operator ht, ← hanswer']
  cases (o.apply m.numberType m.register s).1 with
  | error cause => exact ⟨rfl, rfl, hstack⟩
  | ok v => exact ⟨rfl, rfl, hstack⟩

theorem execute_comparator_alike (hR : Stack.Likeness R Within) (hs : m.currentStack? = some s)
    (ht : (m.onPlanes g p).currentStack? = some t) (hst : R s t) (c : Comparator) :
    SameEffect R m.pointer.block (m.execute (.comparator c))
      ((m.onPlanes g p).execute (.comparator c)) := by
  obtain ⟨hanswer, hrest⟩ := Comparator.apply_alike hR c hst m.direction
  have hstack := rel_setCurrentStack hs ht hrest
  have hanswer' : (c.apply m.numberType m.register s m.direction).1 =
      (c.apply (m.onPlanes g p).numberType (m.onPlanes g p).register t
        (m.onPlanes g p).direction).1 := hanswer
  rw [execute_comparator hs, execute_comparator ht, ← hanswer']
  cases (c.apply m.numberType m.register s m.direction).1 with
  | error cause => exact ⟨rfl, rfl, hstack⟩
  | ok d => exact ⟨rfl, rfl, hstack⟩

end

theorem execute_alike (hR : Stack.Likeness R Within) (h : m.Agrees m')
    (hstack : Option.Rel R m.currentStack? m'.currentStack?)
    (hwithin : ∀ s, (m.execute i).2.stackAt? m.pointer.block = some s → Within s) :
    SameEffect R m.pointer.block (m.execute i) (m'.execute i) := by
  obtain ⟨g, p, rfl⟩ := h.exists_planes
  cases i with
  | blank | deflector d => exact ⟨rfl, rfl, hstack⟩
  | operator o =>
    rcases rel_cases hstack with ⟨hs, ht⟩ | ⟨s, t, hs, ht, hst⟩
    · rw [execute_operator_of_none hs, execute_operator_of_none ht]
      exact ⟨rfl, rfl, hstack⟩
    · exact execute_operator_alike hR hs ht hst o hwithin
  | comparator c =>
    rcases rel_cases hstack with ⟨hs, ht⟩ | ⟨s, t, hs, ht, hst⟩
    · rw [execute_comparator_of_none hs, execute_comparator_of_none ht]
      exact ⟨rfl, rfl, hstack⟩
    · exact execute_comparator_alike hR hs ht hst c
  | exchange e => cases e <;> exact ⟨rfl, rfl, hstack⟩

theorem Agrees.advance (h : m.Agrees m') : m.advance.Agrees m'.advance := by
  obtain ⟨g, p, rfl⟩ := h.exists_planes
  exact agrees_onPlanes m.advance g p

theorem step_alike (hR : Stack.Likeness R Within) (h : m.Agrees m')
    (hcell : m'.current? = m.current?)
    (hstack : Option.Rel R m.currentStack? m'.currentStack?)
    (hwithin : ∀ s, m.step.2.stackAt? m.pointer.block = some s → Within s) :
    SameEffect R m.pointer.block m.step m'.step := by
  obtain ⟨g, p, rfl⟩ := h.exists_planes
  have hcounted : m.counted.Agrees (m.onPlanes g p).counted := rfl
  have hexecute := fun i => execute_alike (i := i) hR hcounted hstack
  have hstepped := step_stepped m
  generalize m.step = result at hstepped hwithin ⊢
  cases hstepped with
  | idle hs =>
    rw [step_of_not_running (m := m.onPlanes g p) hs]
    exact ⟨rfl, rfl, hstack⟩
  | stopped hs hc =>
    rw [step_of_current?_none (m := m.onPlanes g p) hs (hcell.trans hc)]
    exact ⟨rfl, rfl, hstack⟩
  | unreadable hs hc =>
    rw [step_of_foreign (m := m.onPlanes g p) hs (hcell.trans hc)]
    exact ⟨rfl, rfl, hstack⟩
  | @faulted i fault after hs hc he =>
    have hafter := hexecute i
    rw [step_of_instruction (m := m.onPlanes g p) hs (hcell.trans hc)]
    rcases he' : (m.onPlanes g p).counted.execute i with ⟨answer, after'⟩
    rw [he, he'] at hafter
    obtain ⟨hanswer, hagrees, hstacks⟩ := hafter hwithin
    obtain rfl : .error fault = answer := hanswer
    exact ⟨rfl, hagrees, hstacks⟩
  | @moved i printed after hs hc he =>
    have hafter := hexecute i
    rw [step_of_instruction (m := m.onPlanes g p) hs (hcell.trans hc)]
    rcases he' : (m.onPlanes g p).counted.execute i with ⟨answer, after'⟩
    rw [he, he'] at hafter
    obtain ⟨hanswer, hagrees, hstacks⟩ := hafter hwithin
    obtain rfl : .ok printed = answer := hanswer
    exact ⟨rfl, hagrees.advance, hstacks⟩

theorem Agrees.input (h : m.Agrees m') (v : Number) : (m.input v).Agrees (m'.input v) := by
  obtain ⟨g, p, rfl⟩ := h.exists_planes
  by_cases hs : m.state = .inputWaiting
  · have hs' : (m.onPlanes g p).state = .inputWaiting := hs
    rw [input_of_waiting hs, input_of_waiting hs']
    rfl
  · rw [input_of_not_waiting hs, input_of_not_waiting (m := m.onPlanes g p) hs]
    rfl

/-! ## Sequences of calls -/

/-- The machines agree, show the same cells, and have like stacks in every block. -/
structure Alike (R : Stack Number → Stack Number → Prop) (m m' : Machine) : Prop where
  agrees : m.Agrees m'
  cells : ∀ q, m'.grid.get? q = m.grid.get? q
  stackAt : ∀ b, Option.Rel R (m.stackAt? b) (m'.stackAt? b)

theorem Alike.current? (h : Alike R m m') : m'.current? = m.current? := by
  rw [Machine.current?, Machine.current?, h.agrees.pointer, h.cells]

theorem Alike.step (hR : Stack.Likeness R Within) (h : Alike R m m')
    (hwithin : ∀ b s, m.step.2.stackAt? b = some s → Within s) :
    m.step.1 = m'.step.1 ∧ Alike R m.step.2 m'.step.2 := by
  have hpointer : m'.pointer = m.pointer := h.agrees.pointer
  have hcurrent : Option.Rel R m.currentStack? m'.currentStack? := by
    show Option.Rel R _ (m'.stackAt? m'.pointer.block)
    rw [hpointer]
    exact h.stackAt m.pointer.block
  have heffect := step_alike hR h.agrees h.current? hcurrent (hwithin m.pointer.block)
  have hframe := step_untouched m
  have hframe' := step_untouched m'
  rw [hpointer] at hframe'
  refine ⟨heffect.answer, heffect.agrees, fun q => ?_, fun b => ?_⟩
  · rw [hframe.grid, hframe'.grid, h.cells]
  · by_cases hb : b = m.pointer.block
    · rw [hb]
      exact heffect.stack
    · rw [hframe.stackAt b hb, hframe'.stackAt b hb]
      exact h.stackAt b

theorem Alike.input (h : Alike R m m') (v : Number) : Alike R (m.input v) (m'.input v) where
  agrees := h.agrees.input v
  cells q := by
    rw [grid_input, grid_input, h.cells]
  stackAt b := by
    rw [stackAt?_input, stackAt?_input]
    exact h.stackAt b

/-- Machines that are alike stay so and give the same answers, as long as the stacks of the left one
stay within the bound of the likeness. -/
theorem answers_alike (hR : Stack.Likeness R Within) (h : Alike R m m') {cs : List Call}
    (hwithin : ∀ ds, ds <+: cs → ∀ b s, (m.after ds).stackAt? b = some s → Within s) :
    m.answers cs = m'.answers cs ∧ Alike R (m.after cs) (m'.after cs) := by
  let Bounded : Machine → Prop := fun n => ∀ b s, n.stackAt? b = some s → Within s
  refine answersBy_alike ?_ h (show ∀ ds, ds <+: cs → Bounded (m.after ds) from hwithin)
  intro n n' c hn hbound
  cases c with
  | step => exact hn.step hR hbound
  | input v => exact ⟨rfl, hn.input v⟩

end Machine
end MatrixStack
