/-
Machines that cannot fault.

A machine is well formed for a number type if its stacks cover its grid, every cell of the grid
holds an instruction, every block has a stack, and the register and all values on stacks belong to
the type.  Every call that brings in numbers of the type only is answered without a fault and
leaves the machine well formed (`callBy_wellFormed`), so no sequence of calls meets a fault.
-/
import MatrixStack.Proofs.Machine.Step
import MatrixStack.Proofs.Stack.Likeness

namespace MatrixStack

/-! ## Numbers of a type -/

/-- The number has the type and its value lies in the range of the type. -/
def Number.Belongs (n : Number) (t : NumberType) : Prop := n.type = t ∧ t.Holds n.value

instance (n : Number) (t : NumberType) : Decidable (n.Belongs t) :=
  inferInstanceAs (Decidable (n.type = t ∧ t.Holds n.value))

namespace Number

variable {t : NumberType}

theorem belongs_of (t : NumberType) (v : Int) : (of t v).Belongs t := ⟨rfl, t.holds_wrap v⟩

theorem belongs_zero (t : NumberType) : (zero t).Belongs t := by
  refine ⟨rfl, ?_⟩
  cases t with
  | unbounded => trivial
  | signed w | unsigned w => cases w <;> decide

theorem belongs_one (t : NumberType) : (one t).Belongs t := by
  refine ⟨rfl, ?_⟩
  cases t with
  | unbounded => trivial
  | signed w | unsigned w => cases w <;> decide

end Number

/-! ## Values on stacks -/

/-- Every value that the stack holds, in a ring in any slot, has the property. -/
def Stack.All {α : Type} (P : α → Prop) : Stack α → Prop
  | .growable values => ∀ v ∈ values, P v
  | .ring r => ∀ v, some v ∈ r.slots → P v

namespace Stack

variable {α : Type} {P : α → Prop} {s : Stack α}

instance [DecidablePred P] : (s : Stack α) → Decidable (s.All P)
  | .growable values => inferInstanceAs (Decidable (∀ v ∈ values, P v))
  | .ring r => decidable_of_iff (∀ slot ∈ r.slots, ∀ v ∈ slot, P v)
    ⟨fun h v hv => h (some v) hv v rfl, fun h _ hslot v hv => h v (hv ▸ hslot)⟩

theorem All.pop_fst (h : s.All P) : ∀ v, s.pop.1 = some v → P v := by
  intro v hv
  cases s with
  | growable values =>
    cases values with
    | nil => cases hv
    | cons a rest =>
      cases hv
      exact h v (List.mem_cons_self ..)
  | ring r => exact h v (Array.mem_of_getElem? (Option.join_eq_some_iff.mp hv))

theorem All.getD_pop (h : s.All P) {a : α} (ha : P a) : P (s.pop.1.getD a) := by
  cases hpop : s.pop.1 with
  | none => exact ha
  | some v => exact h.pop_fst v hpop

theorem All.pop_snd (h : s.All P) : s.pop.2.All P := by
  cases s with
  | growable values =>
    cases values with
    | nil => exact h
    | cons a rest => exact fun v hv => h v (List.mem_cons_of_mem a hv)
  | ring r =>
    intro v hv
    rcases Array.mem_or_eq_of_mem_setIfInBounds hv with hmem | heq
    · exact h v hmem
    · cases heq

theorem All.push (h : s.All P) {a : α} (ha : P a) : (s.push a).All P := by
  cases s with
  | growable values =>
    intro v hv
    rcases List.mem_cons.mp hv with rfl | hmem
    · exact ha
    · exact h v hmem
  | ring r =>
    intro v hv
    rcases Array.mem_or_eq_of_mem_setIfInBounds hv with hmem | heq
    · exact h v hmem
    · cases heq
      exact ha

theorem All.pushAll (h : s.All P) {values : List α} (hv : ∀ v ∈ values, P v) :
    (s.pushAll values).All P := by
  induction values generalizing s with
  | nil => exact h
  | cons a rest ih =>
    exact ih (h.push (hv a (List.mem_cons_self ..))) fun v hmem =>
      hv v (List.mem_cons_of_mem a hmem)

theorem All.items (h : s.All P) : ∀ v ∈ s.items, P v := by
  intro v hv
  cases s with
  | growable values => exact h v (List.mem_reverse.mp hv)
  | ring r => exact h v (Ring.mem_slots_of_mem_walkBack (List.mem_reverse.mp hv))

end Stack

/-! ## Instructions on values of one type -/

section

variable {t : NumberType} {register : Number} {s : Stack Number}

theorem Operator.operate_belongs (hr : register.Belongs t) (hs : s.All (·.Belongs t))
    (op : BinaryOp) :
    (∃ v, (apply.operate t register s op).1 = .ok v ∧ v.Belongs t) ∧
      (apply.operate t register s op).2.All (·.Belongs t) := by
  refine ⟨?_, hs.pop_snd⟩
  have hneutral : (neutral t op).Belongs t := by
    cases op with
    | mul | div => exact Number.belongs_one t
    | add | sub | or | and | xor => exact Number.belongs_zero t
  have hoperand := hs.getD_pop hneutral
  rw [apply_operate]
  generalize s.pop.1.getD (neutral t op) = operand at hoperand
  obtain ⟨rtype, a⟩ := register
  obtain ⟨otype, b⟩ := operand
  obtain rfl : rtype = t := hr.1
  obtain rfl : otype = rtype := hoperand.1
  exact ⟨_, compute_of_same otype op a b, Number.belongs_of otype _⟩

theorem Operator.apply_belongs (hr : register.Belongs t) (hs : s.All (·.Belongs t))
    (o : Operator) :
    (∃ v, (o.apply t register s).1 = .ok v ∧ v.Belongs t) ∧
      (o.apply t register s).2.All (·.Belongs t) := by
  cases o with
  | push => exact ⟨⟨register, rfl, hr⟩, hs.push hr⟩
  | pop =>
    exact ⟨⟨_, rfl, hs.getD_pop (Number.belongs_zero t)⟩, hs.pop_snd⟩
  | duplicate =>
    rw [apply_duplicate]
    refine ⟨⟨register, rfl, hr⟩, ?_⟩
    cases htop : s.pop.1 with
    | none => exact hs.pop_snd.push (Number.belongs_zero t)
    | some top =>
      have hv := hs.pop_fst top htop
      exact (hs.pop_snd.push hv).push hv
  | not =>
    refine ⟨⟨register.not, rfl, ?_⟩, hs⟩
    obtain rfl := hr.1
    exact Number.belongs_of _ _
  | add => exact operate_belongs hr hs .add
  | subtract => exact operate_belongs hr hs .sub
  | multiply => exact operate_belongs hr hs .mul
  | divide => exact operate_belongs hr hs .div
  | or => exact operate_belongs hr hs .or
  | and => exact operate_belongs hr hs .and
  | xor => exact operate_belongs hr hs .xor

theorem Comparator.exists_turn {other : Number} (hr : register.type = t) (ho : other.type = t)
    (d : Direction) : ∃ d', turn register other d = .ok d' := by
  obtain ⟨_, a⟩ := register
  obtain ⟨_, b⟩ := other
  obtain rfl := hr
  obtain rfl := ho
  exact ⟨_, turn_of_same _ a b d⟩

theorem Comparator.apply_belongs (hr : register.Belongs t) (hs : s.All (·.Belongs t))
    (c : Comparator) (d : Direction) :
    (∃ d', (c.apply t register s d).1 = .ok d') ∧
      (c.apply t register s d).2.All (·.Belongs t) := by
  cases c with
  | zero => exact ⟨exists_turn hr.1 rfl d, hs⟩
  | stack =>
    have hother := hs.getD_pop (Number.belongs_zero t)
    exact ⟨exists_turn hr.1 hother.1 d, hs.pop_snd⟩

end

/-! ## Machines -/

namespace Machine

structure WellFormed (t : NumberType) (m : Machine) : Prop where
  numberType : m.numberType = t
  extent : m.stackPlane.extent = m.grid.extent.blocks
  cells : ∀ p, m.grid.extent.contains p = true →
    ∃ i, m.grid.get? p = some (.instruction i)
  stackAt : ∀ b, m.stackPlane.extent.contains b = true →
    ∃ s, m.stackAt? b = some s ∧ s.All (·.Belongs t)
  register : m.register.Belongs t

variable {t : NumberType} {m m' : Machine}

theorem WellFormed.currentStack? (hm : m.WellFormed t)
    (hp : m.grid.extent.contains m.pointer = true) :
    ∃ s, m.currentStack? = some s ∧ s.All (·.Belongs t) := by
  apply hm.stackAt
  rw [hm.extent]
  exact Extent.contains_blocks hp

theorem WellFormed.all_of_currentStack? {s : Stack Number} (hm : m.WellFormed t)
    (hs : m.currentStack? = some s) : s.All (·.Belongs t) := by
  obtain ⟨s', hs', hall⟩ := hm.stackAt _ (contains_of_currentStack? hs)
  obtain rfl : s = s' := Option.some.inj (hs.symm.trans hs')
  exact hall

/-- What a change within the frame has to keep: the register and the one stack. -/
theorem WellFormed.of_untouched {block : Pointer} (hm : m.WellFormed t)
    (h : m.Untouched block m') (hr : m'.register.Belongs t)
    (hs : m'.stackAt? block = m.stackAt? block ∨
      ∃ s, m'.stackAt? block = some s ∧ s.All (·.Belongs t)) : m'.WellFormed t where
  numberType := h.numberType.trans hm.numberType
  extent := by rw [h.extent, h.grid, hm.extent]
  cells p hp := by
    rw [h.grid] at hp ⊢
    exact hm.cells p hp
  stackAt b hb := by
    rw [h.extent] at hb
    by_cases hblock : b = block
    · rw [hblock] at hb ⊢
      rcases hs with hsame | hnew
      · rw [hsame]
        exact hm.stackAt block hb
      · exact hnew
    · rw [h.stackAt b hblock]
      exact hm.stackAt b hb
  register := hr

theorem execute_wellFormed (hm : m.WellFormed t) (hp : m.grid.extent.contains m.pointer = true)
    (i : Instruction) :
    (∃ printed, (m.execute i).1 = .ok printed) ∧ (m.execute i).2.WellFormed t := by
  obtain rfl := hm.numberType
  have hframe := execute_untouched m i
  cases i with
  | blank | deflector d =>
    exact ⟨⟨none, rfl⟩, hm.of_untouched hframe hm.register (.inl rfl)⟩
  | operator o =>
    obtain ⟨s, hs, hall⟩ := hm.currentStack? hp
    obtain ⟨⟨v, hv, hbelongs⟩, hrest⟩ := Operator.apply_belongs hm.register hall o
    rw [execute_operator hs, hv] at hframe ⊢
    refine ⟨⟨none, rfl⟩, hm.of_untouched hframe hbelongs (.inr ⟨_, ?_, hrest⟩)⟩
    exact stackAt?_setCurrentStack_self hs _
  | comparator c =>
    obtain ⟨s, hs, hall⟩ := hm.currentStack? hp
    obtain ⟨⟨d, hd⟩, hrest⟩ := Comparator.apply_belongs hm.register hall c m.direction
    rw [execute_comparator hs, hd] at hframe ⊢
    refine ⟨⟨none, rfl⟩, hm.of_untouched hframe hm.register (.inr ⟨_, ?_, hrest⟩)⟩
    exact stackAt?_setCurrentStack_self hs _
  | exchange e =>
    cases e with
    | print => exact ⟨⟨_, rfl⟩, hm.of_untouched hframe hm.register (.inl rfl)⟩
    | input => exact ⟨⟨none, rfl⟩, hm.of_untouched hframe hm.register (.inl rfl)⟩

theorem step_wellFormed (hm : m.WellFormed t) :
    (∃ printed, m.step.1 = .ok printed) ∧ m.step.2.WellFormed t := by
  by_cases hs : m.state = .running
  · cases hp : m.grid.extent.contains m.pointer with
    | false =>
      rw [step_of_outside hs hp]
      exact ⟨⟨none, rfl⟩, hm.numberType, hm.extent, hm.cells, hm.stackAt, hm.register⟩
    | true =>
      obtain ⟨i, hi⟩ := hm.cells m.pointer hp
      have hcounted : m.counted.WellFormed t :=
        ⟨hm.numberType, hm.extent, hm.cells, hm.stackAt, hm.register⟩
      obtain ⟨⟨printed, hprinted⟩, hafter⟩ := execute_wellFormed hcounted hp i
      rw [step_of_execute_ok hs (current?_of_get? hi) (Prod.ext hprinted rfl)]
      exact ⟨⟨printed, rfl⟩, hafter.numberType, hafter.extent, hafter.cells, hafter.stackAt,
        hafter.register⟩
  · rw [step_of_not_running hs]
    exact ⟨⟨none, rfl⟩, hm⟩

theorem input_wellFormed (hm : m.WellFormed t) {v : Number} (hv : v.Belongs t) :
    (m.input v).WellFormed t := by
  by_cases hs : m.state = .inputWaiting
  · rw [input_of_waiting hs]
    exact ⟨hm.numberType, hm.extent, hm.cells, hm.stackAt, hv⟩
  · rw [input_of_not_waiting hs]
    exact hm

end Machine

/-- The call brings in no number, or one of the type. -/
def Call.Belongs (c : Call) (t : NumberType) : Prop :=
  match c with
  | .step => True
  | .input v => v.Belongs t

instance (c : Call) (t : NumberType) : Decidable (c.Belongs t) :=
  match c with
  | .step => inferInstanceAs (Decidable True)
  | .input v => inferInstanceAs (Decidable (v.Belongs t))

namespace Machine

variable {t : NumberType} {m : Machine}

theorem callBy_wellFormed (m : Machine) (c : Call) (hc : c.Belongs t) (hm : m.WellFormed t) :
    (∃ printed, (callBy step m c).1 = .ok printed) ∧ (callBy step m c).2.WellFormed t := by
  cases c with
  | step => exact step_wellFormed hm
  | input v => exact ⟨⟨none, rfl⟩, input_wellFormed hm hc⟩

theorem answers_of_wellFormed (hm : m.WellFormed t) {cs : List Call}
    (hcs : ∀ c ∈ cs, c.Belongs t) : ∀ a ∈ m.answers cs, ∃ printed, a = .ok printed :=
  answersBy_all callBy_wellFormed hm hcs

theorem after_wellFormed (hm : m.WellFormed t) {cs : List Call}
    (hcs : ∀ c ∈ cs, c.Belongs t) : (m.after cs).WellFormed t :=
  afterBy_keeps (fun m c hc hm => (callBy_wellFormed m c hc hm).2) hm hcs

end Machine
end MatrixStack
