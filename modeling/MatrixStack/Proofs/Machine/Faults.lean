/-
When a step faults, and what a fault leaves behind.

A machine may be put on planes with holes: cells that hold nothing or no instruction, and blocks
without a stack.  As long as its register and all values on its stacks are of its number type, no
arithmetic is refused, so what an instruction can lack is a stack, and it lacks one only if it asks
for one (`execute_of_oneType`).  Hence a step faults just where it finds a cell that is no
instruction, or an operator or a comparator in a block without a stack, and a step that faults has
counted itself and changed nothing else (`step_faults_iff`).

The fault is one of the machine wherever its message can be made.  It cannot where the object in the
cell refuses to be written, as an integer of too many digits does (`unwritable_cell_is_no_fault`),
nor where the cursor itself is that far out.
-/
import MatrixStack.Proofs.Machine.WellFormed
import MatrixStack.Proofs.Text.Decimal

namespace MatrixStack

/-- An integer in place of an instruction: it is written as its numeral, if that is short enough. -/
def Foreign.ofInteger (v : Int) : Foreign :=
  match Decimal.print? v with
  | some numeral => .written numeral
  | none => .refusing Decimal.unprintableMessage

theorem Foreign.ofInteger_of_long {v : Int} (h : Decimal.printable v = false) :
    ofInteger v = .refusing Decimal.unprintableMessage := by
  simp [ofInteger, Decimal.print?, h]

theorem Fault.ofMachine_ofForeign_iff {o : Foreign} :
    (ofForeign o).ofMachine = true ↔ ∃ text, o = .written text := by
  cases o <;> simp [ofForeign, ofMachine]

theorem Fault.ofMachine_ofPointer (p : Pointer) : (ofPointer p).ofMachine = p.printable := by
  unfold ofPointer
  cases p.printable <;> rfl

/-- The instruction asks for the stack of its block, whether it goes on to use it or not. -/
def Instruction.asksForStack : Instruction → Bool
  | .operator _ | .comparator _ => true
  | .blank | .deflector _ | .exchange _ => false

/-! ## Operands of one type -/

section

variable {t : NumberType} {register : Number} {s : Stack Number}

theorem Operator.exists_compute {op : BinaryOp} {a b : Number} (ha : a.type = t)
    (hb : b.type = t) : ∃ v, compute t op a b = .ok v := by
  obtain ⟨_, a⟩ := a
  obtain ⟨_, b⟩ := b
  obtain rfl := ha
  obtain rfl := hb
  exact ⟨_, compute_of_same _ op a b⟩

theorem Operator.exists_apply (hr : register.type = t) (hs : s.All (·.type = t)) (o : Operator) :
    ∃ v, (o.apply t register s).1 = .ok v := by
  have operate (op : BinaryOp) : ∃ v, (apply.operate t register s op).1 = .ok v := by
    have hneutral : (neutral t op).type = t := by cases op <;> rfl
    exact exists_compute hr (hs.getD_pop hneutral)
  cases o with
  | push | pop | not => exact ⟨_, rfl⟩
  | duplicate =>
    rw [apply_duplicate]
    exact ⟨register, rfl⟩
  | add => exact operate .add
  | subtract => exact operate .sub
  | multiply => exact operate .mul
  | divide => exact operate .div
  | or => exact operate .or
  | and => exact operate .and
  | xor => exact operate .xor

theorem Comparator.exists_apply (hr : register.type = t) (hs : s.All (·.type = t))
    (c : Comparator) (d : Direction) : ∃ d', (c.apply t register s d).1 = .ok d' := by
  cases c with
  | zero => exact exists_turn hr rfl d
  | stack =>
    have hzero : (Number.zero t).type = t := rfl
    exact exists_turn hr (hs.getD_pop hzero) d

end

namespace Machine

variable {m m' : Machine}

/-- The register and all values on stacks are of the machine's number type. -/
structure OneType (m : Machine) : Prop where
  register : m.register.type = m.numberType
  values : ∀ b s, m.stackAt? b = some s → s.All (·.type = m.numberType)

/-! ## One instruction -/

/-- An instruction that asks for a stack where there is none changes nothing; every other one is
executed. -/
theorem execute_of_oneType (h : m.OneType) (i : Instruction) :
    (i.asksForStack = true ∧ m.currentStack? = none ∧
        m.execute i = (.error (.ofPointer m.pointer), m)) ∨
      (¬(i.asksForStack = true ∧ m.currentStack? = none) ∧
        ∃ printed m', m.execute i = (.ok printed, m')) := by
  cases i with
  | blank | deflector d => exact .inr ⟨nofun, _, _, rfl⟩
  | operator o =>
    cases hs : m.currentStack? with
    | none => exact .inl ⟨rfl, rfl, execute_operator_of_none hs o⟩
    | some s =>
      obtain ⟨v, hv⟩ := o.exists_apply h.register (h.values _ s hs)
      rw [execute_operator hs, hv]
      exact .inr ⟨nofun, _, _, rfl⟩
  | comparator c =>
    cases hs : m.currentStack? with
    | none => exact .inl ⟨rfl, rfl, execute_comparator_of_none hs c⟩
    | some s =>
      obtain ⟨d, hd⟩ := c.exists_apply h.register (h.values _ s hs) m.direction
      rw [execute_comparator hs, hd]
      exact .inr ⟨nofun, _, _, rfl⟩
  | exchange e =>
    cases e with
    | print | input => exact .inr ⟨nofun, _, _, rfl⟩

/-! ## One step -/

/-- What a step would fault for: a cell that is no instruction, or an instruction that asks for a
stack in a block that has none. -/
inductive Lacks (m : Machine) : Fault → Prop where
  | instruction {o : Foreign} (hc : m.grid.get? m.pointer = some (.foreign o)) :
    Lacks m (.ofForeign o)
  | stack {i : Instruction} (hc : m.grid.get? m.pointer = some (.instruction i))
    (hi : i.asksForStack = true) (hs : m.currentStack? = none) : Lacks m (.ofPointer m.pointer)

theorem step_of_lacks {fault : Fault} (hs : m.state = .running) (h : m.Lacks fault) :
    m.step = (.error fault, m.counted) := by
  cases h with
  | instruction hc => exact step_of_foreign hs (current?_eq_some_iff.mpr ⟨hc, nofun⟩)
  | @stack i hc hi hnone =>
    have hcounted : m.counted.currentStack? = none := hnone
    have hexecute : m.counted.execute i = (.error (.ofPointer m.pointer), m.counted) := by
      cases i with
      | operator o => exact execute_operator_of_none hcounted o
      | comparator c => exact execute_comparator_of_none hcounted c
      | blank | deflector d | exchange e => cases hi
    rw [step_of_instruction hs (current?_of_get? hc), hexecute]

theorem lacks_of_step (h : m.OneType) {fault : Fault} (hstep : m.step.1 = .error fault) :
    m.state = .running ∧ m.Lacks fault := by
  have hcounted : m.counted.OneType := ⟨h.register, h.values⟩
  have hstepped := step_stepped m
  generalize m.step = result at hstepped hstep
  cases hstepped with
  | idle | stopped | moved => cases hstep
  | unreadable hs hc =>
    cases hstep
    exact ⟨hs, .instruction (current?_eq_some_iff.mp hc).1⟩
  | @faulted i fault' after hs hc he =>
    obtain rfl : fault' = fault := Except.error.inj hstep
    rcases execute_of_oneType hcounted i with ⟨hi, hnone, hexecute⟩ | ⟨-, printed, m', hexecute⟩
    · cases hexecute.symm.trans he
      exact ⟨hs, .stack (get?_of_current? hc) hi hnone⟩
    · cases hexecute.symm.trans he

/-- As long as all operands are of one type, a step faults for what the machine lacks, and for
nothing else. -/
theorem step_error_iff (h : m.OneType) {fault : Fault} :
    m.step.1 = .error fault ↔ m.state = .running ∧ m.Lacks fault := by
  refine ⟨lacks_of_step h, fun ⟨hs, hlacks⟩ => ?_⟩
  rw [step_of_lacks hs hlacks]

theorem lacks_iff : (∃ fault, m.Lacks fault) ↔
    ∃ cell, m.grid.get? m.pointer = some cell ∧ cell ≠ .vacant ∧
      ((∀ i, cell ≠ .instruction i) ∨
        ∃ i, cell = .instruction i ∧ i.asksForStack = true ∧
          m.stackAt? m.pointer.block = none) := by
  constructor
  · rintro ⟨_, @⟨o, hc⟩ | @⟨i, hc, hi, hs⟩⟩
    · exact ⟨.foreign o, hc, nofun, .inl nofun⟩
    · exact ⟨.instruction i, hc, nofun, .inr ⟨i, rfl, hi, hs⟩⟩
  · rintro ⟨cell, hc, hvacant, hcell⟩
    cases cell with
    | vacant => exact absurd rfl hvacant
    | foreign o => exact ⟨_, .instruction hc⟩
    | instruction i =>
      rcases hcell with hne | ⟨j, hj, hi, hs⟩
      · exact absurd rfl (hne i)
      · obtain rfl : i = j := Cell.instruction.inj hj
        exact ⟨_, .stack hc hi hs⟩

/-- The machine lacks something that it can tell of. -/
theorem lacks_ofMachine_iff : (∃ fault, m.Lacks fault ∧ fault.ofMachine = true) ↔
    (∃ text, m.grid.get? m.pointer = some (.foreign (.written text))) ∨
      ∃ i, m.grid.get? m.pointer = some (.instruction i) ∧ i.asksForStack = true ∧
        m.stackAt? m.pointer.block = none ∧ m.pointer.print?.isSome = true := by
  have hprint : m.pointer.print?.isSome = m.pointer.printable := by
    unfold Pointer.print?
    cases m.pointer.printable <;> rfl
  rw [hprint]
  constructor
  · rintro ⟨_, @⟨o, hc⟩ | @⟨i, hc, hi, hs⟩, hmachine⟩
    · obtain ⟨text, rfl⟩ := Fault.ofMachine_ofForeign_iff.mp hmachine
      exact .inl ⟨text, hc⟩
    · rw [Fault.ofMachine_ofPointer] at hmachine
      exact .inr ⟨i, hc, hi, hs, hmachine⟩
  · rintro (⟨text, hc⟩ | ⟨i, hc, hi, hs, hprintable⟩)
    · exact ⟨_, .instruction hc, rfl⟩
    · exact ⟨_, .stack hc hi hs, (Fault.ofMachine_ofPointer _).trans hprintable⟩

/-- As long as all operands are of one type, a step faults just where the cell under the cursor of
a running machine is no instruction, or is an operator or a comparator, with or without a use for
the stack, in a block that has none.  It is a fault of the machine just where in addition the object
in the cell can be written, or the place of the cursor.  A step that faults for whatever reason says
on what or where, or hands on why it cannot, and leaves the machine as it was, but for one more step
on its counter. -/
theorem step_faults_iff (m : Machine) (hm : m.OneType) :
    ((∃ fault, m.step.1 = .error fault) ↔
      m.state = .running ∧ ∃ cell, m.grid.get? m.pointer = some cell ∧ cell ≠ .vacant ∧
        ((∀ i, cell ≠ .instruction i) ∨
          ∃ i, cell = .instruction i ∧ i.asksForStack = true ∧
            m.stackAt? m.pointer.block = none)) ∧
    ((∃ fault, m.step.1 = .error fault ∧ fault.ofMachine = true) ↔
      m.state = .running ∧
        ((∃ text, m.grid.get? m.pointer = some (.foreign (.written text))) ∨
          ∃ i, m.grid.get? m.pointer = some (.instruction i) ∧ i.asksForStack = true ∧
            m.stackAt? m.pointer.block = none ∧ m.pointer.print?.isSome = true)) ∧
    ∀ fault, m.step.1 = .error fault →
      (∀ o, m.grid.get? m.pointer = some (.foreign o) → fault = .ofForeign o) ∧
      (∀ i, m.grid.get? m.pointer = some (.instruction i) → fault = .ofPointer m.pointer) ∧
      m.step.2 = { m with steps := m.steps + 1 } := by
  simp only [step_error_iff hm, exists_and_left, and_assoc, lacks_iff, lacks_ofMachine_iff,
    true_and]
  rintro fault ⟨hs, hlacks⟩
  have hafter : m.step.2 = m.counted := by rw [step_of_lacks hs hlacks]
  cases hlacks with
  | @instruction o hc =>
    refine ⟨fun o' ho' => ?_, fun i hi => ?_, hafter⟩
    · rw [hc] at ho'
      cases ho'
      rfl
    · rw [hc] at hi
      cases hi
  | @stack i hc =>
    refine ⟨fun o ho => ?_, fun _ _ => rfl, hafter⟩
    rw [hc] at ho
    cases ho

/-- A negation, which has no use for a stack, after a push in the block before. -/
theorem step_faults_at_a_hole_of_the_stacks :
    let row : List Cell := ",   !".toList.filterMap fun c =>
      (Instruction.ofChar? c).map .instruction
    let plane : StackPlane := .rows ⟨[[some (.growable [⟨.unbounded, 3⟩]), none]], none, 2⟩
    let start := fresh (.rows (.ragged [row] .vacant)) plane .unbounded
    let m := start.after [.step, .step, .step, .step]
    create start.grid start.stackPlane .unbounded = .ok start ∧ m.OneType ∧
      m.step.1 = .error (.noStack ⟨4, 0⟩) ∧ m.step.2 = { m with steps := 5 } := by
  intro row plane start m
  have hcreate : create start.grid start.stackPlane .unbounded = .ok start :=
    if_pos (by decide)
  have htype : m.OneType := ⟨by decide, forall_stackAt?_iff.mpr (by decide)⟩
  have hs : m.state = .running := by decide
  have hcell : m.grid.get? m.pointer = some (.instruction (.operator .not)) := by decide
  have hstack : m.stackAt? m.pointer.block = none := by decide
  have hpointer : m.pointer = ⟨4, 0⟩ := by decide
  have hsteps : m.steps = 4 := by decide
  clear_value m
  obtain ⟨hiff, -, hleft⟩ := step_faults_iff m htype
  obtain ⟨fault, hstep⟩ :=
    hiff.mpr ⟨hs, _, hcell, nofun, .inr ⟨.operator .not, rfl, rfl, hstack⟩⟩
  obtain ⟨-, hfault, hafter⟩ := hleft fault hstep
  have hplace : Fault.ofPointer m.pointer = .noStack ⟨4, 0⟩ := by
    rw [hpointer]
    decide
  rw [hfault _ hcell, hplace] at hstep
  rw [hsteps] at hafter
  exact ⟨hcreate, htype, hstep, hafter⟩

/-- An integer of five thousand and one digits in the only cell: the step raises what refuses to
write it, which is no fault of the machine. -/
theorem unwritable_cell_is_no_fault :
    let huge := Foreign.ofInteger (10 ^ 5000)
    let m := fresh (.rows (.ragged [[.foreign huge]] (.instruction .blank)))
      (.rows ⟨[[some (.growable [])]], none, 1⟩) .unbounded
    create m.grid m.stackPlane .unbounded = .ok m ∧ m.OneType ∧
      m.step.1 = .error (.unwritten Decimal.unprintableMessage) ∧
      ¬((∃ fault, m.step.1 = .error fault ∧ fault.ofMachine = true) ↔
        m.state = .running ∧ ∃ cell, m.grid.get? m.pointer = some cell ∧ cell ≠ .vacant ∧
          ((∀ i, cell ≠ .instruction i) ∨
            ∃ i, cell = .instruction i ∧ i.asksForStack = true ∧
              m.stackAt? m.pointer.block = none)) := by
  intro huge
  have hlong : Decimal.printable (10 ^ 5000) = false := Decimal.printable_ten_pow (by decide)
  have hhuge : huge = .refusing Decimal.unprintableMessage := Foreign.ofInteger_of_long hlong
  clear_value huge
  subst hhuge
  intro m
  have hcell : m.grid.get? m.pointer = some (.foreign (.refusing _)) := rfl
  have hstep : m.step.1 = .error (.unwritten Decimal.unprintableMessage) := rfl
  refine ⟨rfl, ⟨rfl, forall_stackAt?_iff.mpr (by decide)⟩, hstep, fun hiff => ?_⟩
  obtain ⟨fault, hfault, hmachine⟩ := hiff.mpr ⟨rfl, _, hcell, nofun, .inl nofun⟩
  cases hstep.symm.trans hfault
  cases hmachine

end Machine
end MatrixStack
