/-
The ledger of a stack.

A step reaches one stack, that of the block of the cursor before it moves, and changes it only for
an operator other than the negation or for the comparator that compares with the stack
(`use_of_changed`).  So a stack on whose block nothing of the kind is executed stays as it is
(`stackAt?_after_of_unused`).  A push and a duplication leave one value more, a duplication also
where there was none, and every other use takes a value off if there is one; added up over a
sequence of calls this gives the size of a growable stack (`books_after`).
-/
import MatrixStack.Proofs.Machine.History

namespace MatrixStack

/-! ## What an instruction does with its stack -/

namespace Instruction

/-- The instruction can change the stack of its block. -/
def usesStack : Instruction → Bool
  | .operator o => o ≠ .not
  | .comparator c => c = .stack
  | .blank | .deflector _ | .exchange _ => false

/-- The instruction leaves one value more on the stack of its block. -/
def puts : Instruction → Bool
  | .operator .push | .operator .duplicate => true
  | _ => false

/-- The instruction takes a value off the stack of its block, if there is one. -/
def takes : Instruction → Bool
  | .operator .pop | .operator .add | .operator .subtract | .operator .multiply
  | .operator .divide | .operator .or | .operator .and | .operator .xor
  | .comparator .stack => true
  | _ => false

/-- The values on a stack before and after the instruction, in number. -/
def Balances (i : Instruction) (values values' : List Number) : Prop :=
  values'.length + (if i.takes = true ∧ values ≠ [] then 1 else 0) =
    values.length + (if i.puts = true then 1 else 0)

end Instruction

theorem Operator.apply_growable (o : Operator) (type : NumberType) (register : Number)
    (values : List Number) :
    ∃ values', (o.apply type register (.growable values)).2 = .growable values' ∧
      (Instruction.operator o).Balances values values' := by
  cases o with
  | push => exact ⟨register :: values, rfl, rfl⟩
  | not => exact ⟨values, rfl, rfl⟩
  | duplicate =>
    cases values with
    | nil => exact ⟨[.zero type], rfl, rfl⟩
    | cons top rest => exact ⟨top :: top :: rest, rfl, rfl⟩
  | pop | add | subtract | multiply | divide | or | and | xor =>
    cases values with
    | nil => exact ⟨[], rfl, rfl⟩
    | cons top rest => exact ⟨rest, rfl, rfl⟩

theorem Comparator.apply_growable (c : Comparator) (type : NumberType) (register : Number)
    (d : Direction) (values : List Number) :
    ∃ values', (c.apply type register (.growable values) d).2 = .growable values' ∧
      (Instruction.comparator c).Balances values values' := by
  cases c with
  | zero => exact ⟨values, rfl, rfl⟩
  | stack =>
    cases values with
    | nil => exact ⟨[], rfl, rfl⟩
    | cons top rest => exact ⟨rest, rfl, rfl⟩

/-! ## What executions do with the stack of a block -/

namespace Execution

/-- The block on whose stack the instruction is executed. -/
def block (e : Execution) : Pointer := e.machine.pointer.block

/-- There is a value on the stack for the instruction to take. -/
def findsValue (e : Execution) : Bool := (e.machine.currentStack?.bind fun s => s.pop.1).isSome

/-- The number of executions in a block that put a value on its stack. -/
def put (b : Pointer) (es : List Execution) : Nat :=
  es.countP fun e => e.block = b && e.instruction.puts

/-- The number of executions in a block that take a value off its stack. -/
def taken (b : Pointer) (es : List Execution) : Nat :=
  es.countP fun e => e.block = b && e.instruction.takes && e.findsValue

/-- The values on the stack of a block before and after some executions, in number. -/
def Books (b : Pointer) (es : List Execution) (values values' : List Number) : Prop :=
  values'.length + taken b es = values.length + put b es

variable {b : Pointer} {es fs : List Execution} {values values' values'' : List Number}

theorem books_of_elsewhere (h : ∀ e ∈ es, e.block ≠ b) : Books b es values values := by
  have hput : put b es = 0 := List.countP_eq_zero.mpr fun e he => by simp [h e he]
  have htaken : taken b es = 0 := List.countP_eq_zero.mpr fun e he => by simp [h e he]
  rw [Books, hput, htaken]

theorem Books.append (h : Books b es values values') (h' : Books b fs values' values'') :
    Books b (es ++ fs) values values'' := by
  unfold Books put taken at *
  rw [List.countP_append, List.countP_append]
  omega

theorem books_singleton {e : Execution}
    (hs : e.machine.currentStack? = some (.growable values))
    (h : e.instruction.Balances values values') : Books e.block [e] values values' := by
  have hfinds : e.findsValue = true ↔ values ≠ [] := by
    rw [findsValue, hs]
    cases values <;> simp [Stack.pop]
  unfold Instruction.Balances at h
  simp only [Books, put, taken, List.countP_singleton, decide_true, Bool.true_and,
    Bool.and_eq_true, hfinds]
  exact h

end Execution

namespace Machine

open Execution

variable {m m' : Machine} {b : Pointer} {i : Instruction} {values : List Number}

/-! ## One instruction -/

theorem stackAt?_execute_of_unused (hi : i.usesStack = false) (b : Pointer) :
    (m.execute i).2.stackAt? b = m.stackAt? b := by
  -- An operator or a comparator that leaves the stack alone still puts it back.
  have hback {s : Stack Number} (hs : m.currentStack? = some s) :
      (m.setCurrentStack s).stackAt? b = m.stackAt? b := by
    rw [stackAt?_setCurrentStack hs]
    split
    case isTrue hb => rw [hb]; exact hs.symm
    case isFalse => rfl
  cases i with
  | blank | deflector d => rfl
  | exchange e => cases e <;> rfl
  | operator o =>
    obtain rfl : o = .not := by simpa [Instruction.usesStack] using hi
    cases hs : m.currentStack? with
    | none => rw [execute_operator_of_none hs]
    | some s =>
      rw [execute_operator hs]
      exact hback hs
  | comparator c =>
    obtain rfl : c = .zero := by
      cases c with
      | zero => rfl
      | stack => cases hi
    cases hs : m.currentStack? with
    | none => rw [execute_comparator_of_none hs]
    | some s =>
      rw [execute_comparator hs]
      cases (Comparator.zero.apply m.numberType m.register s m.direction).1 <;> exact hback hs

theorem execute_balances (hs : m.currentStack? = some (.growable values)) (i : Instruction) :
    ∃ values', (m.execute i).2.stackAt? m.pointer.block = some (.growable values') ∧
      i.Balances values values' := by
  cases i with
  | blank | deflector d => exact ⟨values, hs, rfl⟩
  | exchange e => cases e <;> exact ⟨values, hs, rfl⟩
  | operator o =>
    obtain ⟨values', hrest, hbalances⟩ := o.apply_growable m.numberType m.register values
    have hset := stackAt?_setCurrentStack_self hs (.growable values')
    rw [execute_operator hs, hrest]
    cases (o.apply m.numberType m.register (.growable values)).1 <;>
      exact ⟨values', hset, hbalances⟩
  | comparator c =>
    obtain ⟨values', hrest, hbalances⟩ :=
      c.apply_growable m.numberType m.register m.direction values
    have hset := stackAt?_setCurrentStack_self hs (.growable values')
    rw [execute_comparator hs, hrest]
    cases (c.apply m.numberType m.register (.growable values) m.direction).1 <;>
      exact ⟨values', hset, hbalances⟩

/-! ## One step -/

theorem stackAt?_step_of_next? (h : m.next? = some i) (b : Pointer) :
    m.step.2.stackAt? b = (m.counted.execute i).2.stackAt? b := by
  obtain ⟨hs, hc⟩ := next?_eq_some_iff.mp h
  rw [step_of_instruction hs hc]
  rcases m.counted.execute i with ⟨_ | _, _⟩ <;> rfl

theorem stackAt?_step_of_next?_none (h : m.next? = none) (b : Pointer) :
    m.step.2.stackAt? b = m.stackAt? b := by
  have hstepped := step_stepped m
  generalize m.step = result at hstepped ⊢
  cases hstepped with
  | idle | stopped | unreadable => rfl
  | faulted hs hc | moved hs hc => cases h.symm.trans (next?_of_instruction hs hc)

/-- A step that changes a stack changes that of its block, with an instruction that uses it. -/
theorem use_of_changed (h : m.step.2.stackAt? b ≠ m.stackAt? b) :
    b = m.pointer.block ∧ ∃ i, m.next? = some i ∧ i.usesStack = true := by
  constructor
  · by_cases hb : b = m.pointer.block
    · exact hb
    · exact absurd ((step_untouched m).stackAt b hb) h
  · cases hnext : m.next? with
    | none => exact absurd (stackAt?_step_of_next?_none hnext b) h
    | some i =>
      cases hi : i.usesStack with
      | true => exact ⟨i, rfl, hi⟩
      | false =>
        rw [stackAt?_step_of_next? hnext, stackAt?_execute_of_unused hi] at h
        exact absurd rfl h

theorem books_step (hs : m.stackAt? b = some (.growable values)) :
    ∃ values', m.step.2.stackAt? b = some (.growable values') ∧
      Books b m.nextExecution values values' := by
  cases hnext : m.next? with
  | none =>
    rw [nextExecution_of_none hnext, stackAt?_step_of_next?_none hnext]
    exact ⟨values, hs, books_of_elsewhere fun e he => absurd he List.not_mem_nil⟩
  | some i =>
    rw [nextExecution_of_some hnext]
    by_cases hb : b = m.pointer.block
    · subst hb
      obtain ⟨values', hafter, hbalances⟩ := execute_balances (m := m.counted) hs i
      rw [stackAt?_step_of_next? hnext]
      exact ⟨values', hafter, books_singleton (e := ⟨m, i⟩) hs hbalances⟩
    · refine ⟨values, ((step_untouched m).stackAt b hb).trans hs, books_of_elsewhere ?_⟩
      intro e he
      obtain rfl := List.mem_singleton.mp he
      exact Ne.symm hb

/-! ## Sequences of calls -/

theorem stackAt?_after_of_unused {cs : List Call}
    (h : ∀ e ∈ m.history cs, e.block = b → e.instruction.usesStack = false) :
    (m.after cs).stackAt? b = m.stackAt? b := by
  induction cs generalizing m with
  | nil => rfl
  | cons c cs ih =>
    cases c with
    | input v => exact (ih h).trans (stackAt?_input m v b)
    | step =>
      refine (ih fun e he => h e (List.mem_append_right _ he)).trans ?_
      by_cases hsame : m.step.2.stackAt? b = m.stackAt? b
      · exact hsame
      · obtain ⟨rfl, i, hnext, hi⟩ := use_of_changed hsame
        have hexecuted : ⟨m, i⟩ ∈ m.nextExecution := by
          rw [nextExecution_of_some hnext]
          exact List.mem_singleton_self _
        cases hi.symm.trans (h ⟨m, i⟩ (List.mem_append_left _ hexecuted) rfl)

/-- The size of a growable stack is known from the instructions that are executed on its block. -/
theorem books_after (hs : m.stackAt? b = some (.growable values)) (cs : List Call) :
    ∃ values', (m.after cs).stackAt? b = some (.growable values') ∧
      Books b (m.history cs) values values' := by
  induction cs generalizing m values with
  | nil => exact ⟨values, hs, rfl⟩
  | cons c cs ih =>
    cases c with
    | input v => exact ih ((stackAt?_input m v b).trans hs)
    | step =>
      obtain ⟨mid, hmid, hbooks⟩ := books_step hs
      obtain ⟨values', hafter, hrest⟩ := ih hmid
      exact ⟨values', hafter, hbooks.append hrest⟩

end Machine
end MatrixStack
