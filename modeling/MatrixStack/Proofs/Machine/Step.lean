/-
What one step can do.

`execute_operator` and `execute_comparator` say what an instruction does once its stack is known.
`Effect` lists all effects that an instruction can have, and `Stepped` all that can become of a
step; most facts about single steps are read off these two lists.  `Untouched` is the frame of every
call: the grid, the number type, the sizes and all stacks but the one under the cursor stay as they
are.
-/
import MatrixStack.Proofs.Machine.Calls

namespace MatrixStack
/-- The cells that the characters stand for. -/
def Cell.ofChars (chars : List Char) : List Cell :=
  (chars.filterMap Instruction.ofChar?).map .instruction

/-- A grid without the cells of some characters has no instruction of these characters. -/
theorem not_mem_chars_of_cells {grid : Plane Cell} {chars : List Char}
    (h : ∀ p ∈ grid.extent.pointers, ∀ cell ∈ grid.get? p, cell ∉ Cell.ofChars chars) :
    ∀ p i, grid.get? p = some (.instruction i) → i.char ∉ chars := by
  intro p i hi hchar
  have hp : p ∈ grid.extent.pointers :=
    Extent.mem_pointers_iff.mpr (Plane.get?_isSome_iff.mp (Option.isSome_of_eq_some hi))
  refine h p hp _ hi (List.mem_map.mpr ⟨i, ?_, rfl⟩)
  exact List.mem_filterMap.mpr ⟨i.char, hchar, Instruction.ofChar?_char i⟩

namespace Machine

variable {m m' : Machine} {s t : Stack Number}

/-! ## The stack under the cursor -/

theorem contains_of_stackAt? {b : Pointer} (h : m.stackAt? b = some s) :
    m.stackPlane.extent.contains b = true := by
  have hget : m.stackPlane.get? b = some (some s) := Option.join_eq_some_iff.mp h
  rw [← Plane.get?_isSome_iff, hget]
  rfl

theorem contains_of_currentStack? (h : m.currentStack? = some s) :
    m.stackPlane.extent.contains m.pointer.block = true := contains_of_stackAt? h

/-- To look at every stack is to look at the blocks of the plane. -/
theorem forall_stackAt?_iff {P : Stack Number → Prop} :
    (∀ b s, m.stackAt? b = some s → P s) ↔
      ∀ b ∈ m.stackPlane.extent.pointers, ∀ s ∈ m.stackAt? b, P s := by
  constructor
  · intro h b _ s hs
    exact h b s hs
  · intro h b s hs
    exact h b (Extent.mem_pointers_iff.mpr (contains_of_stackAt? hs)) s hs

theorem stackAt?_setCurrentStack (h : m.currentStack? = some s) (t : Stack Number) (b : Pointer) :
    (m.setCurrentStack t).stackAt? b = if b = m.pointer.block then some t else m.stackAt? b := by
  show ((m.stackPlane.set m.pointer.block (some t)).get? b).join = _
  rw [Plane.get?_set]
  by_cases hb : b = m.pointer.block
  · rw [if_pos ⟨hb, contains_of_currentStack? h⟩, if_pos hb]
    rfl
  · rw [if_neg fun hc => hb hc.1, if_neg hb]
    rfl

theorem stackAt?_setCurrentStack_self (h : m.currentStack? = some s) (t : Stack Number) :
    (m.setCurrentStack t).stackAt? m.pointer.block = some t := by
  rw [stackAt?_setCurrentStack h, if_pos rfl]

theorem stackAt?_setCurrentStack_of_ne {b : Pointer} (hb : b ≠ m.pointer.block)
    (t : Stack Number) : (m.setCurrentStack t).stackAt? b = m.stackAt? b := by
  show ((m.stackPlane.set m.pointer.block (some t)).get? b).join = _
  rw [Plane.get?_set, if_neg fun hc => hb hc.1]
  rfl

/-! ## One instruction -/

theorem execute_operator (h : m.currentStack? = some s) (o : Operator) :
    m.execute (.operator o) =
      match (o.apply m.numberType m.register s).1 with
      | .error cause =>
        (.error (.arithmetic cause), m.setCurrentStack (o.apply m.numberType m.register s).2)
      | .ok v =>
        (.ok none,
          { m.setCurrentStack (o.apply m.numberType m.register s).2 with register := v }) := by
  unfold execute
  simp only [h]
  rcases o.apply m.numberType m.register s with ⟨cause | v, rest⟩ <;> rfl

theorem execute_comparator (h : m.currentStack? = some s) (c : Comparator) :
    m.execute (.comparator c) =
      match (c.apply m.numberType m.register s m.direction).1 with
      | .error cause =>
        (.error (.arithmetic cause),
          m.setCurrentStack (c.apply m.numberType m.register s m.direction).2)
      | .ok d =>
        (.ok none,
          { m.setCurrentStack (c.apply m.numberType m.register s m.direction).2 with
            direction := d }) := by
  unfold execute
  simp only [h]
  rcases c.apply m.numberType m.register s m.direction with ⟨cause | d, rest⟩ <;> rfl

theorem execute_operator_of_none (h : m.currentStack? = none) (o : Operator) :
    m.execute (.operator o) = (.error (.ofPointer m.pointer), m) := by
  unfold execute
  simp only [h]

theorem execute_comparator_of_none (h : m.currentStack? = none) (c : Comparator) :
    m.execute (.comparator c) = (.error (.ofPointer m.pointer), m) := by
  unfold execute
  simp only [h]

/-- What an instruction can do: no instruction has any other effect. -/
inductive Effect (m : Machine) : Answer × Machine → Prop where
  | unstacked : Effect m (.error (.ofPointer m.pointer), m)
  | refused (cause : NumberError) (rest : Stack Number) :
    Effect m (.error (.arithmetic cause), m.setCurrentStack rest)
  | turned (d : Direction) : Effect m (.ok none, { m with direction := d })
  | operated (rest : Stack Number) (v : Number) :
    Effect m (.ok none, { m.setCurrentStack rest with register := v })
  | compared (rest : Stack Number) (d : Direction) :
    Effect m (.ok none, { m.setCurrentStack rest with direction := d })
  | printed : Effect m (.ok (some m.register), { m with outputs := m.outputs + 1 })
  | awaited : Effect m (.ok none, { m with state := .inputWaiting })

theorem execute_effect (m : Machine) (i : Instruction) : m.Effect (m.execute i) := by
  cases i with
  | blank => exact .turned m.direction
  | deflector d => exact .turned (d.deflect m.direction)
  | operator o =>
    cases h : m.currentStack? with
    | none =>
      rw [execute_operator_of_none h]
      exact .unstacked
    | some s =>
      rw [execute_operator h]
      cases (o.apply m.numberType m.register s).1 with
      | error cause => exact .refused cause _
      | ok v => exact .operated _ v
  | comparator c =>
    cases h : m.currentStack? with
    | none =>
      rw [execute_comparator_of_none h]
      exact .unstacked
    | some s =>
      rw [execute_comparator h]
      cases (c.apply m.numberType m.register s m.direction).1 with
      | error cause => exact .refused cause _
      | ok d => exact .compared _ d
  | exchange e =>
    cases e with
    | print => exact .printed
    | input => exact .awaited

theorem pointer_execute (m : Machine) (i : Instruction) :
    (m.execute i).2.pointer = m.pointer := by
  have heffect := execute_effect m i
  generalize m.execute i = result at heffect ⊢
  cases heffect <;> rfl

/-- What an instruction prints is the register. -/
theorem eq_register_of_execute {i : Instruction} {v : Number}
    (h : (m.execute i).1 = .ok (some v)) : v = m.register := by
  have heffect := execute_effect m i
  generalize m.execute i = result at heffect h
  cases heffect with
  | printed => exact (Option.some.inj (Except.ok.inj h)).symm
  | _ => cases h

theorem state_of_execute_error {i : Instruction} {fault : Fault}
    (h : m.execute i = (.error fault, m')) : m'.state = m.state := by
  have heffect := execute_effect m i
  rw [h] at heffect
  cases heffect <;> rfl

theorem state_execute_ne_stopped (h : m.state ≠ .stopped) (i : Instruction) :
    (m.execute i).2.state ≠ .stopped := by
  have heffect := execute_effect m i
  generalize m.execute i = result at heffect ⊢
  cases heffect with
  | awaited => exact State.noConfusion
  | _ => exact h

/-! ## One step -/

/-- The machine with one more step on its counter. -/
def counted (m : Machine) : Machine := { m with steps := m.steps + 1 }

theorem step_of_instruction {i : Instruction} (hs : m.state = .running)
    (hc : m.current? = some (.instruction i)) :
    m.step =
      match m.counted.execute i with
      | (.ok printed, after) => (.ok printed, after.advance)
      | (.error fault, after) => (.error fault, after) := by
  rw [step, if_neg (fun h => h hs), hc]
  rfl

theorem step_of_foreign {o : Foreign} (hs : m.state = .running)
    (hc : m.current? = some (.foreign o)) : m.step = (.error (.ofForeign o), m.counted) := by
  rw [step, if_neg (fun h => h hs), hc]
  rfl

theorem step_of_execute_ok {i : Instruction} {printed : Option Number} (hs : m.state = .running)
    (hc : m.current? = some (.instruction i)) (he : m.counted.execute i = (.ok printed, m')) :
    m.step = (.ok printed, m'.advance) := by
  rw [step_of_instruction hs hc, he]

theorem current?_eq_some_iff {cell : Cell} :
    m.current? = some cell ↔ m.grid.get? m.pointer = some cell ∧ cell ≠ .vacant := by
  unfold current?
  cases m.grid.get? m.pointer with
  | none => simp
  | some cell' => cases cell' <;> simp_all [eq_comm]

theorem current?_of_get? {i : Instruction} (h : m.grid.get? m.pointer = some (.instruction i)) :
    m.current? = some (.instruction i) := current?_eq_some_iff.mpr ⟨h, nofun⟩

theorem get?_of_current? {i : Instruction} (h : m.current? = some (.instruction i)) :
    m.grid.get? m.pointer = some (.instruction i) := (current?_eq_some_iff.mp h).1

theorem current?_of_outside (h : m.grid.extent.contains m.pointer = false) :
    m.current? = none := by
  rw [current?, Plane.get?_eq_none_iff.mpr h]

theorem step_of_outside (hs : m.state = .running)
    (h : m.grid.extent.contains m.pointer = false) :
    m.step = (.ok none, { m with state := .stopped }) :=
  step_of_current?_none hs (current?_of_outside h)

theorem current?_ne_vacant (m : Machine) : m.current? ≠ some .vacant :=
  fun h => (current?_eq_some_iff.mp h).2 rfl

/-- What can become of a step, each with what it comes from. -/
inductive Stepped (m : Machine) : Answer × Machine → Prop where
  | idle (hs : m.state ≠ .running) : Stepped m (.ok none, m)
  | stopped (hs : m.state = .running) (hc : m.current? = none) :
    Stepped m (.ok none, { m with state := .stopped })
  | unreadable {o : Foreign} (hs : m.state = .running) (hc : m.current? = some (.foreign o)) :
    Stepped m (.error (.ofForeign o), m.counted)
  | faulted {i : Instruction} {fault : Fault} {after : Machine} (hs : m.state = .running)
    (hc : m.current? = some (.instruction i)) (he : m.counted.execute i = (.error fault, after)) :
    Stepped m (.error fault, after)
  | moved {i : Instruction} {printed : Option Number} {after : Machine} (hs : m.state = .running)
    (hc : m.current? = some (.instruction i)) (he : m.counted.execute i = (.ok printed, after)) :
    Stepped m (.ok printed, after.advance)

theorem step_stepped (m : Machine) : m.Stepped m.step := by
  by_cases hs : m.state = .running
  · cases hc : m.current? with
    | none =>
      rw [step_of_current?_none hs hc]
      exact .stopped hs hc
    | some cell =>
      cases cell with
      | instruction i =>
        rw [step_of_instruction hs hc]
        rcases he : m.counted.execute i with ⟨fault | printed, after⟩
        · exact .faulted hs hc he
        · exact .moved hs hc he
      | foreign o =>
        rw [step_of_foreign hs hc]
        exact .unreadable hs hc
      | vacant => exact absurd hc (current?_ne_vacant m)
  · rw [step_of_not_running hs]
    exact .idle hs

/-- A fault leaves the machine running. -/
theorem state_of_step_error {fault : Fault} (h : m.step = (.error fault, m')) :
    m'.state = m.state := by
  have hstepped := step_stepped m
  rw [h] at hstepped
  cases hstepped with
  | unreadable => rfl
  | faulted _ _ he =>
    have hstate := state_of_execute_error he
    exact hstate

/-- What a step prints is the register. -/
theorem eq_register_of_step {v : Number} (h : m.step.1 = .ok (some v)) : v = m.register := by
  have hstepped := step_stepped m
  generalize m.step = result at hstepped h
  cases hstepped with
  | @moved i printed after _ _ he =>
    have hprinted := eq_register_of_execute (m := m.counted) (i := i) (v := v)
    rw [he] at hprinted
    exact hprinted h
  | _ => cases h

/-- After a step the cursor is where it was, or one cell further in the new direction. -/
theorem pointer_step (m : Machine) :
    m.step.2.pointer = m.pointer ∨
      m.step.2.pointer = m.pointer.advance m.step.2.direction := by
  have hstepped := step_stepped m
  generalize m.step = result at hstepped ⊢
  cases hstepped with
  | idle | stopped | unreadable => exact .inl rfl
  | @faulted i _ after _ _ he =>
    have hpointer := pointer_execute m.counted i
    rw [he] at hpointer
    exact .inl hpointer
  | @moved i _ after _ _ he =>
    have hpointer := pointer_execute m.counted i
    rw [he] at hpointer
    right
    show after.pointer.advance after.direction = _
    rw [show after.pointer = m.pointer from hpointer]
    rfl

/-- Only an empty cell stops the machine. -/
theorem state_step_ne_stopped (hs : m.state = .running) (hc : m.current? ≠ none) :
    m.step.2.state ≠ .stopped := by
  have hlive : m.counted.state ≠ .stopped := by
    show m.state ≠ .stopped
    rw [hs]
    decide
  have hstepped := step_stepped m
  generalize m.step = result at hstepped ⊢
  cases hstepped with
  | idle hidle => exact absurd hs hidle
  | stopped _ hnone => exact absurd hnone hc
  | unreadable => exact hlive
  | @faulted i _ _ _ _ he | @moved i _ _ _ _ he =>
    have hstate := state_execute_ne_stopped hlive i
    rw [he] at hstate
    exact hstate

/-! ## The frame -/

/-- The two machines have the same grid, number type and sizes, and the same stacks away from a
block. -/
structure Untouched (block : Pointer) (m m' : Machine) : Prop where
  grid : m'.grid = m.grid
  numberType : m'.numberType = m.numberType
  extent : m'.stackPlane.extent = m.stackPlane.extent
  stackAt : ∀ b, b ≠ block → m'.stackAt? b = m.stackAt? b

theorem untouched_refl (block : Pointer) (m : Machine) : m.Untouched block m :=
  ⟨rfl, rfl, rfl, fun _ _ => rfl⟩

theorem untouched_setCurrentStack (m : Machine) (t : Stack Number) :
    m.Untouched m.pointer.block (m.setCurrentStack t) where
  grid := rfl
  numberType := rfl
  extent := Plane.extent_set _ _ _
  stackAt _ hb := stackAt?_setCurrentStack_of_ne hb t

theorem execute_untouched (m : Machine) (i : Instruction) :
    m.Untouched m.pointer.block (m.execute i).2 := by
  have heffect := execute_effect m i
  generalize m.execute i = result at heffect ⊢
  cases heffect with
  | refused cause rest => exact untouched_setCurrentStack m rest
  | operated rest v =>
    have hset := untouched_setCurrentStack m rest
    exact ⟨hset.grid, hset.numberType, hset.extent, hset.stackAt⟩
  | compared rest d =>
    have hset := untouched_setCurrentStack m rest
    exact ⟨hset.grid, hset.numberType, hset.extent, hset.stackAt⟩
  | _ => exact ⟨rfl, rfl, rfl, fun _ _ => rfl⟩

theorem step_untouched (m : Machine) : m.Untouched m.pointer.block m.step.2 := by
  have hstepped := step_stepped m
  generalize m.step = result at hstepped ⊢
  cases hstepped with
  | idle => exact untouched_refl _ m
  | stopped | unreadable => exact ⟨rfl, rfl, rfl, fun _ _ => rfl⟩
  | @faulted i _ _ _ _ he | @moved i _ _ _ _ he =>
    have hframe := execute_untouched m.counted i
    rw [he] at hframe
    exact ⟨hframe.grid, hframe.numberType, hframe.extent, hframe.stackAt⟩

theorem input_of_waiting (h : m.state = .inputWaiting) (v : Number) :
    m.input v = { m with register := v, state := .running, inputs := m.inputs + 1 } := by
  rw [input, if_pos h]

theorem grid_input (m : Machine) (v : Number) : (m.input v).grid = m.grid := by
  unfold input
  split <;> rfl

theorem stackPlane_input (m : Machine) (v : Number) : (m.input v).stackPlane = m.stackPlane := by
  unfold input
  split <;> rfl

theorem stackAt?_input (m : Machine) (v : Number) (b : Pointer) :
    (m.input v).stackAt? b = m.stackAt? b := by
  rw [stackAt?, stackPlane_input, stackAt?]

theorem grid_after (m : Machine) (cs : List Call) : (m.after cs).grid = m.grid := by
  let Kept : Machine → Prop := fun n => n.grid = m.grid
  have hcall : ∀ n c, True → Kept n → Kept (callBy step n c).2 := by
    intro n c _ hn
    cases c with
    | step => exact (step_untouched n).grid.trans hn
    | input v => exact (grid_input n v).trans hn
  exact afterBy_keeps hcall (show Kept m from rfl) fun _ _ => trivial

end Machine
end MatrixStack
