/-
The trail of a cursor that only mirrors turn.

Where there are neither arrows nor comparators, the pose of a machine, which is its pointer and its
direction, decides where the cursor goes next, and also where it has come from: no two poses in the
grid lead to the same pose (`nextPose_injective`), and none of them leads to the upper left corner
in the direction to the right (`nextPose_ne_start`).  The instructions that a machine carries out
lie on the iterates of this one map (`poses_carriedOut`).  So a trail that begins in that corner
comes to no pose twice, and it ends before it is longer than the grid has poses.
-/
import Mathlib.Data.List.Iterate
import MatrixStack.Proofs.Machine.Cursor
import MatrixStack.Proofs.Machine.History

namespace MatrixStack

/-! ## Turning -/

namespace Instruction

/-- The direction after the instruction, if it is no comparator. -/
def deflect (i : Instruction) (d : Direction) : Direction :=
  match i with
  | .deflector mirror => mirror.deflect d
  | _ => d

/-- Neither an arrow nor a comparator. -/
def Reversible (i : Instruction) : Prop := i.char ∉ ['>', '<', 'v', '^', 'z', 'c']

theorem Reversible.ne_comparator {i : Instruction} (h : i.Reversible) (c : Comparator) :
    i ≠ .comparator c := by
  rintro rfl
  cases c <;> exact h (by decide)

theorem Reversible.deflect_injective {i : Instruction} (h : i.Reversible) {d d' : Direction}
    (heq : i.deflect d = i.deflect d') : d = d' := by
  cases i with
  | blank | operator o | comparator c | exchange e => exact heq
  | deflector mirror =>
    cases mirror with
    | rightArrow | leftArrow | downArrow | upArrow => exact absurd (by decide) h
    | omniMirror =>
      have hback : d.reverse.reverse = d'.reverse.reverse := congrArg Direction.reverse heq
      rwa [Direction.reverse_reverse, Direction.reverse_reverse] at hback
    | backMirror =>
      have hback : d.transpose.transpose = d'.transpose.transpose :=
        congrArg Direction.transpose heq
      rwa [Direction.transpose_transpose, Direction.transpose_transpose] at hback
    | forwardMirror =>
      have hback : d.transpose.reverse.reverse = d'.transpose.reverse.reverse :=
        congrArg Direction.reverse heq
      rw [Direction.reverse_reverse, Direction.reverse_reverse] at hback
      rw [← d.transpose_transpose, hback, Direction.transpose_transpose]

end Instruction

/-! ## Poses -/

/-- A pointer and a direction. -/
abbrev Pose := Pointer × Direction

namespace Pointer

variable {e : Extent} {p q : Pointer}

theorem advance_injective (hw : e.width < modulus) (hh : e.height < modulus)
    (hp : e.contains p = true) (hq : e.contains q = true) {d : Direction}
    (h : p.advance d = q.advance d) : p = q := by
  have hp' := Extent.contains_iff.mp hp
  have hq' := Extent.contains_iff.mp hq
  rw [modulus_eq] at hw hh
  obtain ⟨px, py⟩ := p
  obtain ⟨qx, qy⟩ := q
  cases d with
  | right | left | down | up =>
    simp only [advance, Direction.vertical, Direction.decreasing, modulus_eq, if_true,
      Bool.false_eq_true, if_false, mk.injEq] at h hp' hq' ⊢
    omega

/-- The corner has a neighbour on its left only beyond the modulus. -/
theorem advance_right_ne_origin (hw : e.width < modulus) (hp : e.contains p = true) :
    p.advance .right ≠ origin := by
  have hp' := Extent.contains_iff.mp hp
  rw [modulus_eq] at hw
  intro h
  simp only [advance, origin, Direction.vertical, Direction.decreasing, modulus_eq,
    Bool.false_eq_true, if_false, mk.injEq] at h
  omega

end Pointer

/-- The pose that comes after another one in a grid without comparators. -/
def nextPose (grid : Plane Cell) (q : Pose) : Pose :=
  match grid.get? q.1 with
  | some (.instruction i) => (q.1.advance (i.deflect q.2), i.deflect q.2)
  | _ => q

/-- No cell of the grid holds an arrow or a comparator. -/
def OnlyMirrors (grid : Plane Cell) : Prop :=
  ∀ p i, grid.get? p = some (.instruction i) → i.Reversible

/-- The pose lies on an instruction of the grid. -/
def OnInstruction (grid : Plane Cell) (q : Pose) : Prop :=
  ∃ i, grid.get? q.1 = some (.instruction i)

section

variable {grid : Plane Cell} {q q' : Pose}

theorem nextPose_of_get? {i : Instruction} (h : grid.get? q.1 = some (.instruction i)) :
    nextPose grid q = (q.1.advance (i.deflect q.2), i.deflect q.2) := by
  rw [nextPose, h]

theorem OnInstruction.contains (h : OnInstruction grid q) :
    grid.extent.contains q.1 = true := by
  obtain ⟨i, hi⟩ := h
  exact Plane.get?_isSome_iff.mp (Option.isSome_of_eq_some hi)

/-- Mirrors can be walked backwards. -/
theorem nextPose_injective (hgrid : OnlyMirrors grid) (hw : grid.extent.width < Pointer.modulus)
    (hh : grid.extent.height < Pointer.modulus) (hq : OnInstruction grid q)
    (hq' : OnInstruction grid q') (h : nextPose grid q = nextPose grid q') : q = q' := by
  have hin := hq.contains
  have hin' := hq'.contains
  obtain ⟨i, hi⟩ := hq
  obtain ⟨i', hi'⟩ := hq'
  rw [nextPose_of_get? hi, nextPose_of_get? hi'] at h
  obtain ⟨hpointer, hdirection⟩ := Prod.mk.inj h
  rw [hdirection] at hpointer
  have hsame : q.1 = q'.1 := Pointer.advance_injective hw hh hin hin' hpointer
  rw [hsame, hi'] at hi
  cases hi
  exact Prod.ext hsame ((hgrid _ _ hi').deflect_injective hdirection)

theorem nextPose_ne_start (hw : grid.extent.width < Pointer.modulus)
    (hq : OnInstruction grid q) : nextPose grid q ≠ (.origin, .right) := by
  have hin := hq.contains
  obtain ⟨i, hi⟩ := hq
  rw [nextPose_of_get? hi]
  intro h
  obtain ⟨hpointer, hdirection⟩ := Prod.mk.inj h
  rw [hdirection] at hpointer
  exact Pointer.advance_right_ne_origin hw hin hpointer

end

/-- Iterates that come from a point without a predecessor, through points where the map is
injective, are all different. -/
theorem nodup_iterate {α : Type} {f : α → α} {P : α → Prop} {a : α} {n : Nat}
    (hinj : ∀ b c, P b → P c → f b = f c → b = c) (hstart : ∀ b, P b → f b ≠ a)
    (hall : ∀ b ∈ List.iterate f a n, P b) : (List.iterate f a n).Nodup := by
  have hP : ∀ i < n, P (f^[i] a) := fun i hi => hall _ (List.mem_iterate.mpr ⟨i, hi, rfl⟩)
  -- Two equal iterates are taken back, one by one, until the earlier one is the start.
  have hne : ∀ i k, i + (k + 1) < n → f^[i] a ≠ f^[i + (k + 1)] a := by
    intro i k
    induction i with
    | zero =>
      intro hlt heq
      rw [Nat.zero_add, Function.iterate_succ_apply'] at heq
      exact hstart _ (hP k (by omega)) heq.symm
    | succ i ih =>
      intro hlt heq
      rw [Nat.succ_add, Function.iterate_succ_apply', Function.iterate_succ_apply'] at heq
      exact ih (by omega) (hinj _ _ (hP i (by omega)) (hP _ (by omega)) heq)
  rw [← List.range_map_iterate, List.Nodup, List.pairwise_map]
  refine List.pairwise_lt_range.imp_of_mem ?_
  intro i j _ hj hij
  obtain ⟨k, rfl⟩ := Nat.exists_eq_add_of_lt hij
  exact hne i k (List.mem_range.mp hj)

/-! ## Instructions carried out -/

def Execution.pose (e : Execution) : Pose := (e.machine.pointer, e.machine.direction)

/-- The step that executes the instruction meets no fault. -/
def Execution.succeeds (e : Execution) : Bool := e.machine.step.1.isOk

namespace Machine

variable {m m' : Machine} {pending : List Number} {cs : List Call} {n : Nat}

def pose (m : Machine) : Pose := (m.pointer, m.direction)

/-- The executions of a sequence of calls that meet no fault. -/
def carriedOut (m : Machine) (cs : List Call) : List Execution :=
  (m.history cs).filter Execution.succeeds

theorem carriedOut_append (m : Machine) (cs ds : List Call) :
    m.carriedOut (cs ++ ds) = m.carriedOut cs ++ (m.after cs).carriedOut ds := by
  unfold carriedOut
  rw [history_append, List.filter_append]

theorem carriedOut_step_cons (m : Machine) (cs : List Call) :
    m.carriedOut (.step :: cs) =
      m.nextExecution.filter Execution.succeeds ++ m.step.2.carriedOut cs := by
  rw [carriedOut, history, List.filter_append, carriedOut]

theorem direction_execute {i : Instruction} (hi : ∀ c, i ≠ .comparator c) :
    (m.execute i).2.direction = i.deflect m.direction := by
  cases i with
  | blank | deflector d => rfl
  | operator o =>
    cases h : m.currentStack? with
    | none => rw [execute_operator_of_none h]; rfl
    | some s =>
      rw [execute_operator h]
      cases (o.apply m.numberType m.register s).1 <;> rfl
  | comparator c => exact absurd rfl (hi c)
  | exchange e => cases e <;> rfl

theorem pose_of_execute_error {i : Instruction} {fault : Fault}
    (h : m.execute i = (.error fault, m')) : m'.pose = m.pose := by
  have heffect := execute_effect m i
  rw [h] at heffect
  cases heffect <;> rfl

/-- A step either carries out the instruction and goes on to the next pose, or stays. -/
theorem carriedOut_step (hgrid : OnlyMirrors m.grid) :
    (m.nextExecution.filter Execution.succeeds = [] ∧ m.step.2.pose = m.pose) ∨
      ∃ i, m.nextExecution.filter Execution.succeeds = [⟨m, i⟩] ∧
        m.step.2.pose = nextPose m.grid m.pose := by
  have hsucceeds : ∀ i, Execution.succeeds ⟨m, i⟩ = m.step.1.isOk := fun i => rfl
  have hstepped := step_stepped m
  generalize m.step = result at hstepped hsucceeds ⊢
  cases hstepped with
  | idle hs => exact .inl ⟨by rw [nextExecution_of_none (next?_of_not_running hs)]; rfl, rfl⟩
  | stopped _ hc => exact .inl ⟨by rw [nextExecution_of_none (next?_of_current?_none hc)]; rfl, rfl⟩
  | unreadable _ hc => exact .inl ⟨by rw [nextExecution_of_none (next?_of_foreign hc)]; rfl, rfl⟩
  | @faulted i fault after hs hc he =>
    rw [nextExecution_of_some (next?_of_instruction hs hc)]
    refine .inl ⟨List.filter_cons_of_neg ?_, pose_of_execute_error (m := m.counted) he⟩
    rw [hsucceeds]
    exact Bool.false_ne_true
  | @moved i printed after hs hc he =>
    right
    have hcell := get?_of_current? hc
    have hpointer := pointer_execute m.counted i
    have hdirection := direction_execute (m := m.counted) (hgrid _ _ hcell).ne_comparator
    rw [he] at hpointer hdirection
    rw [nextExecution_of_some (next?_of_instruction hs hc)]
    refine ⟨i, List.filter_cons_of_pos (hsucceeds i), ?_⟩
    rw [nextPose_of_get? (q := m.pose) hcell]
    show (after.pointer.advance after.direction, after.direction) = _
    rw [hdirection, show after.pointer = m.pointer from hpointer]
    rfl

theorem pose_input (m : Machine) (v : Number) : (m.input v).pose = m.pose := by
  unfold Machine.input
  split <;> rfl

/-- The instructions are carried out at the iterates of the pose that the machine is at. -/
theorem poses_carriedOut (hgrid : OnlyMirrors m.grid) (cs : List Call) :
    (m.carriedOut cs).map Execution.pose =
      List.iterate (nextPose m.grid) m.pose (m.carriedOut cs).length := by
  induction cs generalizing m with
  | nil => rfl
  | cons c cs ih =>
    cases c with
    | step =>
      have hsame := (step_untouched m).grid
      have hrest := ih (m := m.step.2) (by rwa [hsame])
      rw [hsame] at hrest
      rw [carriedOut_step_cons]
      rcases carriedOut_step hgrid with ⟨hnone, hpose⟩ | ⟨i, hone, hpose⟩
      · rw [hnone, List.nil_append, hrest, hpose]
      · rw [hone, List.singleton_append, List.map_cons, hrest, hpose]
        rfl
    | input v =>
      have hrest := ih (m := m.input v) (by rwa [grid_input])
      rwa [grid_input, pose_input] at hrest

theorem onInstruction_of_mem_history {e : Execution} (h : e ∈ m.history cs) :
    OnInstruction m.grid e.pose := by
  induction cs generalizing m with
  | nil => exact absurd h List.not_mem_nil
  | cons c cs ih =>
    cases c with
    | step =>
      rcases List.mem_append.mp h with hnow | hlater
      · unfold nextExecution next? at hnow
        split at hnow
        · exact absurd hnow List.not_mem_nil
        · next i hnext =>
          obtain rfl := List.mem_singleton.mp hnow
          split at hnext
          · next hc => exact ⟨_, get?_of_current? hc⟩
          · cases hnext
      · rw [← (step_untouched m).grid]
        exact ih hlater
    | input v =>
      rw [← grid_input m v]
      exact ih h

/-- From the upper left corner no instruction is carried out twice in the same direction. -/
theorem nodup_poses (hgrid : OnlyMirrors m.grid) (hw : m.grid.extent.width < Pointer.modulus)
    (hh : m.grid.extent.height < Pointer.modulus) (hstart : m.pose = (.origin, .right))
    (cs : List Call) : ((m.carriedOut cs).map Execution.pose).Nodup := by
  rw [poses_carriedOut hgrid, hstart]
  refine nodup_iterate (fun _ _ => nextPose_injective hgrid hw hh)
    (fun _ => nextPose_ne_start hw) ?_
  intro q hq
  rw [← hstart, ← poses_carriedOut hgrid] at hq
  obtain ⟨e, he, rfl⟩ := List.mem_map.mp hq
  exact onInstruction_of_mem_history (List.mem_filter.mp he).1

end Machine
end MatrixStack
