/-
One program over two number types.

`WrapsTo` relates a machine on unbounded integers to one over a type of fixed width: the two are at
the same place of the same run, and every number of the second is the wrapped number of the first.
Every step keeps this that executes an instruction which wrapping respects (`step_wrapsTo`), and so
does a sequence of calls (`answers_wrapsTo`).  Wrapping respects each step of a grid that neither
compares nor divides, and each step on numbers in range that does not divide unevenly with different
signs.
-/
import MatrixStack.Proofs.Machine.Effect

namespace MatrixStack

/-- The call with a number of another type. -/
def Call.wrapTo (t : NumberType) : Call → Call
  | .step => .step
  | .input v => .input (v.wrapTo t)

/-- The answer with a number of another type, if it has one. -/
def Answer.wrapTo (t : NumberType) (a : Answer) : Answer := a.map (Option.map (Number.wrapTo t))

variable {t : NumberType} {s : Stack Number}

namespace Machine

/-- The machine over another number type, with its register wrapped and on other stacks. -/
def onType (n : Machine) (t : NumberType) (plane : StackPlane) : Machine :=
  { n with numberType := t, register := n.register.wrapTo t, stackPlane := plane }

/-- The right machine is the left one over another number type, with every number wrapped. -/
structure WrapsTo (t : NumberType) (n m : Machine) : Prop where
  shell : m = n.onType t m.stackPlane
  stackAt : ∀ b, m.stackAt? b = (n.stackAt? b).map (Stack.map (Number.wrapTo t))

theorem WrapsTo.exists_plane {n m : Machine} (h : WrapsTo t n m) : ∃ plane, m = n.onType t plane :=
  ⟨_, h.shell⟩

/-- Wrapping respects what the instruction asks of the register and the stack. -/
def Commutes (t : NumberType) (n : Machine) : Instruction → Prop
  | .operator o => ∀ s, n.currentStack? = some s → o.Commutes t n.register s
  | .comparator c => ∀ s, n.currentStack? = some s → c.Commutes t n.register s
  | _ => True

variable {n m : Machine}

theorem WrapsTo.currentStack? (h : WrapsTo t n m) :
    m.currentStack? = n.currentStack?.map (Stack.map (Number.wrapTo t)) := by
  have hstack := h.stackAt n.pointer.block
  obtain ⟨plane, rfl⟩ := h.exists_plane
  exact hstack

theorem WrapsTo.current? (h : WrapsTo t n m) : m.current? = n.current? := by
  obtain ⟨plane, rfl⟩ := h.exists_plane
  rfl

/-- What the two machines have in common. -/
theorem WrapsTo.fields (h : WrapsTo t n m) :
    m.state = n.state ∧ m.pointer = n.pointer ∧ m.direction = n.direction ∧ m.steps = n.steps ∧
      m.outputs = n.outputs ∧ m.inputs = n.inputs ∧ m.register = n.register.wrapTo t := by
  obtain ⟨plane, rfl⟩ := h.exists_plane
  exact ⟨rfl, rfl, rfl, rfl, rfl, rfl, rfl⟩

theorem WrapsTo.items (h : WrapsTo t n m) (b : Pointer) :
    (m.stackAt? b).map Stack.items =
      (n.stackAt? b).map fun s => s.items.map (Number.wrapTo t) := by
  rw [h.stackAt, Option.map_map]
  congr 1
  funext s
  exact Stack.items_map _ s

/-- Putting a stack back keeps the relation of the stacks. -/
theorem WrapsTo.stackAt_setCurrentStack (h : WrapsTo t n m) (hs : n.currentStack? = some s)
    (rest : Stack Number) (b : Pointer) :
    (m.setCurrentStack (rest.map (Number.wrapTo t))).stackAt? b =
      ((n.setCurrentStack rest).stackAt? b).map (Stack.map (Number.wrapTo t)) := by
  have hs' : m.currentStack? = some (s.map (Number.wrapTo t)) := by
    rw [h.currentStack?, hs, Option.map_some]
  rw [stackAt?_setCurrentStack hs', stackAt?_setCurrentStack hs, h.fields.2.1]
  split
  · rfl
  · exact h.stackAt b

theorem execute_wrapsTo (hn : n.WellFormed .unbounded) (h : WrapsTo t n m) {i : Instruction}
    (hi : n.Commutes t i) :
    (m.execute i).1 = Answer.wrapTo t (n.execute i).1 ∧
      WrapsTo t (n.execute i).2 (m.execute i).2 := by
  have hset := fun s hs rest => h.stackAt_setCurrentStack (s := s) hs rest
  have hcurrent := h.currentStack?
  obtain ⟨plane, rfl⟩ := h.exists_plane
  cases i with
  | blank | deflector d => exact ⟨rfl, rfl, h.stackAt⟩
  | operator o =>
    cases hs : n.currentStack? with
    | none =>
      rw [hs, Option.map_none] at hcurrent
      rw [execute_operator_of_none hs, execute_operator_of_none hcurrent]
      exact ⟨rfl, rfl, h.stackAt⟩
    | some s =>
      rw [hs, Option.map_some] at hcurrent
      have happly : o.apply (n.onType t plane).numberType (n.onType t plane).register
          (s.map (Number.wrapTo t)) = _ :=
        Operator.apply_wrapTo hn.register (hn.all_of_currentStack? hs) (hi s hs)
      rw [← hn.numberType] at happly
      rw [execute_operator hs, execute_operator hcurrent, happly]
      cases (o.apply n.numberType n.register s).1 with
      | error cause => exact ⟨rfl, rfl, hset s hs _⟩
      | ok v => exact ⟨rfl, rfl, hset s hs _⟩
  | comparator c =>
    cases hs : n.currentStack? with
    | none =>
      rw [hs, Option.map_none] at hcurrent
      rw [execute_comparator_of_none hs, execute_comparator_of_none hcurrent]
      exact ⟨rfl, rfl, h.stackAt⟩
    | some s =>
      rw [hs, Option.map_some] at hcurrent
      have happly : c.apply (n.onType t plane).numberType (n.onType t plane).register
          (s.map (Number.wrapTo t)) (n.onType t plane).direction = _ :=
        Comparator.apply_wrapTo hn.register (hn.all_of_currentStack? hs) (hi s hs) n.direction
      rw [← hn.numberType] at happly
      rw [execute_comparator hs, execute_comparator hcurrent, happly]
      cases (c.apply n.numberType n.register s n.direction).1 with
      | error cause => exact ⟨rfl, rfl, hset s hs _⟩
      | ok d => exact ⟨rfl, rfl, hset s hs _⟩
  | exchange e =>
    cases e with
    | print => exact ⟨rfl, rfl, h.stackAt⟩
    | input => exact ⟨rfl, rfl, h.stackAt⟩

/-- The next step of the machine, if it executes an instruction, is one that wrapping respects. -/
def StepCommutes (t : NumberType) (n : Machine) : Prop :=
  n.state = .running → ∀ i, n.current? = some (.instruction i) → n.Commutes t i

theorem step_wrapsTo (hn : n.WellFormed .unbounded) (h : WrapsTo t n m)
    (hstep : n.StepCommutes t) :
    m.step.1 = Answer.wrapTo t n.step.1 ∧ WrapsTo t n.step.2 m.step.2 := by
  have hcurrent := h.current?
  obtain ⟨plane, rfl⟩ := h.exists_plane
  have hcounted : WrapsTo t n.counted (n.onType t plane).counted := ⟨rfl, h.stackAt⟩
  have hwell : n.counted.WellFormed .unbounded :=
    ⟨hn.numberType, hn.extent, hn.cells, hn.stackAt, hn.register⟩
  have hstepped := step_stepped n
  generalize n.step = result at hstepped ⊢
  cases hstepped with
  | idle hs =>
    rw [step_of_not_running (m := n.onType t plane) hs]
    exact ⟨rfl, h⟩
  | stopped hs hc =>
    rw [step_of_current?_none (m := n.onType t plane) hs (hcurrent.trans hc)]
    exact ⟨rfl, rfl, h.stackAt⟩
  | unreadable hs hc =>
    rw [step_of_foreign (m := n.onType t plane) hs (hcurrent.trans hc)]
    exact ⟨rfl, hcounted⟩
  | @faulted i fault after hs hc he =>
    obtain ⟨hanswer, hafter⟩ := execute_wrapsTo hwell hcounted (hstep hs i hc)
    rw [he] at hanswer hafter
    rw [step_of_instruction (m := n.onType t plane) hs (hcurrent.trans hc)]
    rcases he' : (n.onType t plane).counted.execute i with ⟨answer, after'⟩
    rw [he'] at hanswer hafter
    obtain rfl : answer = .error fault := hanswer
    exact ⟨rfl, hafter⟩
  | @moved i printed after hs hc he =>
    obtain ⟨hanswer, hafter⟩ := execute_wrapsTo hwell hcounted (hstep hs i hc)
    rw [he] at hanswer hafter
    rw [step_of_instruction (m := n.onType t plane) hs (hcurrent.trans hc)]
    rcases he' : (n.onType t plane).counted.execute i with ⟨answer, after'⟩
    rw [he'] at hanswer hafter
    obtain rfl : answer = .ok (printed.map (Number.wrapTo t)) := hanswer
    refine ⟨rfl, ?_⟩
    obtain ⟨plane', rfl⟩ := hafter.exists_plane
    exact ⟨rfl, hafter.stackAt⟩

theorem input_wrapsTo (h : WrapsTo t n m) (v : Number) :
    WrapsTo t (n.input v) (m.input (v.wrapTo t)) := by
  have hstate := h.fields.1
  obtain ⟨plane, rfl⟩ := h.exists_plane
  by_cases hs : n.state = .inputWaiting
  · rw [input_of_waiting hs, input_of_waiting (hstate.trans hs)]
    exact ⟨rfl, h.stackAt⟩
  · rw [input_of_not_waiting hs, input_of_not_waiting (m := n.onType t plane) hs]
    exact h

/-! ## Sequences of calls -/

/-- Wrapping commutes with a sequence of calls that bring in unbounded integers, if it does with
every step in it. -/
theorem answers_wrapsTo (hn : n.WellFormed .unbounded) (h : WrapsTo t n m) {cs : List Call}
    (hcs : ∀ c ∈ cs, c.Belongs .unbounded)
    (hsteps : ∀ ds, ds ++ [.step] <+: cs → (n.after ds).StepCommutes t) :
    m.answers (cs.map (Call.wrapTo t)) = (n.answers cs).map (Answer.wrapTo t) ∧
      WrapsTo t (n.after cs) (m.after (cs.map (Call.wrapTo t))) := by
  let Fine (n : Machine) (c : Call) : Prop :=
    c.Belongs .unbounded ∧ (c = .step → n.StepCommutes t)
  let Related (n m : Machine) : Prop := n.WellFormed .unbounded ∧ WrapsTo t n m
  have hcall : ∀ n m c, Related n m → Fine n c →
      (callBy step m (c.wrapTo t)).1 = Answer.wrapTo t (callBy step n c).1 ∧
        Related (callBy step n c).2 (callBy step m (c.wrapTo t)).2 := by
    intro n m c ⟨hn, h⟩ ⟨hbelongs, hc⟩
    have hwell := (callBy_wellFormed n c hbelongs hn).2
    cases c with
    | step =>
      obtain ⟨hanswer, hafter⟩ := step_wrapsTo hn h (hc rfl)
      exact ⟨hanswer, hwell, hafter⟩
    | input v => exact ⟨rfl, hwell, input_wrapsTo h v⟩
  have hfine : ∀ ds c, ds ++ [c] <+: cs → Fine (n.after ds) c := by
    intro ds c hds
    have hmem : c ∈ cs := hds.subset (List.mem_append_right ds (List.mem_singleton_self c))
    refine ⟨hcs c hmem, ?_⟩
    rintro rfl
    exact hsteps ds hds
  obtain ⟨hanswers, -, hafter⟩ := answersBy_translated hcall ⟨hn, h⟩ hfine
  exact ⟨hanswers, hafter⟩

/-! ## Steps that wrapping respects -/

/-- A machine whose grid neither compares nor divides executes only what wrapping respects. -/
theorem stepCommutes_of_grid
    (hgrid : ∀ p i, n.grid.get? p = some (.instruction i) → i.char ∉ ['z', 'c', '~']) :
    n.StepCommutes t := by
  intro _ i hc
  have hchar := hgrid n.pointer i (get?_of_current? hc)
  cases i with
  | blank | deflector d | exchange e => trivial
  | operator o =>
    rintro s _ rfl
    exact absurd (by decide) hchar
  | comparator c =>
    cases c with
    | zero => exact absurd (by decide) hchar
    | stack => exact absurd (by decide) hchar

/-- The register and all values on stacks lie in the range of the type. -/
def InRange (t : NumberType) (n : Machine) : Prop :=
  t.Holds n.register.value ∧ ∀ b s, n.stackAt? b = some s → ∀ v ∈ s.items, t.Holds v.value

instance (t : NumberType) (n : Machine) : Decidable (n.InRange t) :=
  decidable_of_iff (t.Holds n.register.value ∧ ∀ b ∈ n.stackPlane.extent.pointers,
    ∀ s ∈ n.stackAt? b, ∀ v ∈ s.items, t.Holds v.value)
    (and_congr_right fun _ => forall_stackAt?_iff.symm)

/-- A division that is up next is exact, or of numbers of the same sign. -/
def DividesExactOrPositive (n : Machine) : Prop :=
  n.state = .running → n.current? = some (.instruction (.operator .divide)) →
    ∀ s, n.currentStack? = some s → ExactOrPositive n.register.value s.divisor

instance (n : Machine) : Decidable n.DividesExactOrPositive :=
  decidable_of_iff (n.state = .running → n.current? = some (.instruction (.operator .divide)) →
    ∀ s ∈ n.currentStack?, ExactOrPositive n.register.value s.divisor) Iff.rfl

theorem stepCommutes_of_inRange (hrange : n.InRange t) (hdiv : n.DividesExactOrPositive) :
    n.StepCommutes t := by
  have htop : ∀ s, n.currentStack? = some s → ∀ v, s.pop.1 = some v → t.Holds v.value :=
    fun s hs v hv => hrange.2 _ s hs v (Stack.mem_items_of_pop hv)
  intro hs i hc
  cases i with
  | blank | deflector d | exchange e => trivial
  | operator o =>
    rintro s hstack rfl
    exact ⟨hrange.1, htop s hstack, hdiv hs hc s hstack⟩
  | comparator c =>
    intro s hstack
    exact ⟨hrange.1, fun _ => htop s hstack⟩

end Machine
end MatrixStack
