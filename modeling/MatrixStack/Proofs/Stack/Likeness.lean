/-
Stacks that behave alike.

A likeness relates stacks that answer every pop alike and stay related through pushes and pops.
The left stack may be bounded: then only the pushes that stay within the bound have to keep the
relation.  Operators and comparators reach a stack through pushes and pops only, so they cannot
tell two related stacks apart.  A ring of fixed capacity is like a growable stack that never holds
more than that (`likeness_ringOf`).
-/
import MatrixStack.Machine.Effect
import MatrixStack.Proofs.Stack.Ring

namespace MatrixStack
namespace Stack

variable {α : Type}

structure Likeness (R : Stack α → Stack α → Prop) (Within : Stack α → Prop) : Prop where
  pop_fst : ∀ {s t}, R s t → s.pop.1 = t.pop.1
  pop_snd : ∀ {s t}, R s t → R s.pop.2 t.pop.2
  push : ∀ {s t} (a : α), R s t → Within (s.push a) → R (s.push a) (t.push a)
  within_of_push : ∀ {s t} {a b : α}, R s t → Within ((s.push a).push b) → Within (s.push a)

/-- Equal stacks are alike without a bound. -/
theorem likeness_eq : Likeness (α := α) Eq fun _ => True where
  pop_fst h := by rw [h]
  pop_snd h := by rw [h]
  push a h _ := by rw [h]
  within_of_push _ _ := trivial

/-- A growable stack and a ring of the given capacity with the same values. -/
def RingOf (capacity : Nat) (s t : Stack α) : Prop :=
  ∃ (values : List α) (r : Ring α),
    s = .growable values ∧ t = .ring r ∧ r.capacity = capacity ∧ r.Holds values

theorem size_growable (values : List α) : (growable values).size = values.length :=
  List.length_reverse

theorem likeness_ringOf (capacity : Nat) :
    Likeness (α := α) (RingOf capacity) fun s => s.size ≤ capacity where
  pop_fst := by
    rintro s t ⟨values, r, rfl, rfl, -, h⟩
    show _ = r.pop.1
    rw [h.pop_fst]
    cases values <;> rfl
  pop_snd := by
    rintro s t ⟨values, r, rfl, rfl, hcap, h⟩
    refine ⟨values.tail, r.pop.2, ?_, rfl, ?_, h.pop_snd⟩
    · cases values <;> rfl
    · rw [Ring.capacity_pop, hcap]
  push := by
    rintro s t a ⟨values, r, rfl, rfl, hcap, h⟩ hfits
    refine ⟨a :: values, r.push a, rfl, rfl, ?_, ?_⟩
    · rw [Ring.capacity_push, hcap]
    · have hlen : (a :: values).length ≤ r.capacity := by
        rw [hcap, ← size_growable]
        exact hfits
      have hpush := h.push a
      rwa [List.take_of_length_le hlen] at hpush
  within_of_push := by
    rintro s t a b ⟨values, r, rfl, rfl, -, -⟩ hfits
    have hlen : (b :: a :: values).length ≤ capacity := by
      rw [← size_growable]
      exact hfits
    show (growable (a :: values)).size ≤ capacity
    rw [size_growable]
    exact Nat.le_of_succ_le hlen

/-- Pushed one after the other, the latest values that fit are what a ring holds. -/
theorem pushAll_ring {r : Ring α} {values : List α} (h : r.Holds values) (more : List α) :
    ∃ r', (ring r).pushAll more = .ring r' ∧ r'.capacity = r.capacity ∧
      r'.Holds ((more.reverse ++ values).take r.capacity) := by
  induction more generalizing r values with
  | nil =>
    refine ⟨r, rfl, rfl, ?_⟩
    rwa [List.reverse_nil, List.nil_append, List.take_of_length_le h.fits]
  | cons a more ih =>
    obtain ⟨r', hr', hcap, hholds⟩ := ih (h.push a)
    rw [Ring.capacity_push] at hcap hholds
    refine ⟨r', hr', hcap, ?_⟩
    rwa [List.take_append, List.take_take, Nat.min_eq_left (Nat.sub_le _ _), ← List.take_append,
      ← List.singleton_append, ← List.append_assoc, ← List.reverse_cons] at hholds

theorem ringOf_pushAll {capacity : Nat} {values : List α} (hcap : 0 < capacity)
    (hfits : values.length ≤ capacity) :
    RingOf capacity (empty.pushAll values) ((ring (Ring.empty capacity)).pushAll values) := by
  obtain ⟨r, hr, hcapacity, hholds⟩ := pushAll_ring (Ring.holds_empty (α := α) hcap) values
  rw [Ring.capacity_empty] at hcapacity hholds
  rw [List.append_nil, List.take_of_length_le (by rw [List.length_reverse]; exact hfits)] at hholds
  refine ⟨values.reverse, r, ?_, hr, hcapacity, hholds⟩
  rw [empty, pushAll_growable, List.append_nil]

/-- A ring forgets all but the last values that were pushed. -/
theorem items_pushAll_ring {capacity : Nat} (hcap : 0 < capacity) (values : List α) :
    ((ring (Ring.empty capacity)).pushAll values).items =
      values.drop (values.length - capacity) := by
  obtain ⟨r, hr, -, hholds⟩ := pushAll_ring (Ring.holds_empty (α := α) hcap) values
  rw [Ring.capacity_empty, List.append_nil] at hholds
  rw [hr]
  show r.items = _
  rw [hholds.items, List.reverse_take, List.reverse_reverse, List.length_reverse]

theorem RingOf.items {capacity : Nat} {s t : Stack α} (h : RingOf capacity s t) :
    t.items = s.items := by
  obtain ⟨values, r, rfl, rfl, -, hholds⟩ := h
  exact hholds.items

end Stack

/-! ## Operators and comparators -/

section

variable {R : Stack Number → Stack Number → Prop} {Within : Stack Number → Prop}
  {s t : Stack Number} {type : NumberType} {register : Number}

namespace Operator

theorem apply_pop (type : NumberType) (register : Number) (s : Stack Number) :
    Operator.pop.apply type register s = (.ok (s.pop.1.getD (.zero type)), s.pop.2) := rfl

theorem apply_duplicate (type : NumberType) (register : Number) (s : Stack Number) :
    Operator.duplicate.apply type register s =
      (.ok register, match s.pop.1 with
        | none => s.pop.2.push (.zero type)
        | some top => (s.pop.2.push top).push top) := by
  unfold Operator.apply
  rcases s.pop with ⟨_ | top, rest⟩ <;> rfl

theorem apply_operate (type : NumberType) (register : Number) (s : Stack Number) (op : BinaryOp) :
    apply.operate type register s op =
      (compute type op register (s.pop.1.getD (neutral type op)), s.pop.2) := rfl

theorem operate_alike (hR : Stack.Likeness R Within) (h : R s t) (op : BinaryOp) :
    (apply.operate type register s op).1 = (apply.operate type register t op).1 ∧
      R (apply.operate type register s op).2 (apply.operate type register t op).2 := by
  rw [apply_operate, apply_operate, hR.pop_fst h]
  exact ⟨rfl, hR.pop_snd h⟩

theorem apply_alike (hR : Stack.Likeness R Within) (o : Operator) (h : R s t)
    (hw : Within (o.apply type register s).2) :
    (o.apply type register s).1 = (o.apply type register t).1 ∧
      R (o.apply type register s).2 (o.apply type register t).2 := by
  cases o with
  | push => exact ⟨rfl, hR.push register h hw⟩
  | pop =>
    rw [apply_pop, apply_pop, hR.pop_fst h]
    exact ⟨rfl, hR.pop_snd h⟩
  | duplicate =>
    rw [apply_duplicate] at hw
    rw [apply_duplicate, apply_duplicate, ← hR.pop_fst h]
    refine ⟨rfl, ?_⟩
    have hrest := hR.pop_snd h
    cases htop : s.pop.1 with
    | none =>
      rw [htop] at hw
      exact hR.push _ hrest hw
    | some top =>
      rw [htop] at hw
      exact hR.push _ (hR.push _ hrest (hR.within_of_push hrest hw)) hw
  | not => exact ⟨rfl, h⟩
  | add => exact operate_alike hR h .add
  | subtract => exact operate_alike hR h .sub
  | multiply => exact operate_alike hR h .mul
  | divide => exact operate_alike hR h .div
  | or => exact operate_alike hR h .or
  | and => exact operate_alike hR h .and
  | xor => exact operate_alike hR h .xor

end Operator

namespace Comparator

theorem apply_stack (type : NumberType) (register : Number) (s : Stack Number) (d : Direction) :
    Comparator.stack.apply type register s d =
      (turn register (s.pop.1.getD (.zero type)) d, s.pop.2) := rfl

theorem apply_alike (hR : Stack.Likeness R Within) (c : Comparator) (h : R s t) (d : Direction) :
    (c.apply type register s d).1 = (c.apply type register t d).1 ∧
      R (c.apply type register s d).2 (c.apply type register t d).2 := by
  cases c with
  | zero => exact ⟨rfl, h⟩
  | stack =>
    rw [apply_stack, apply_stack, hR.pop_fst h]
    exact ⟨rfl, hR.pop_snd h⟩

end Comparator
end
end MatrixStack
