/-
A ring as a bounded stack.

A bounded stack needs no slots to say what it does: it is a list that a push grows at its end, and
that then loses its first value if it has become too long (`forgetful`).  Through any uses a ring
gives the same answers and has the same contents, and has as many occupied slots as the list has
values (`Holds.slots_perm`).  An operator or a comparator takes at most one value off a stack before
it puts any on (`ThroughTop`), so it does with a ring what it does with a growable stack of the same
contents, except that the ring then keeps the latest values only.
-/
import Mathlib.Data.List.DropRight
import Mathlib.Data.List.Nodup
import Mathlib.Data.List.Perm.Subperm
import MatrixStack.Proofs.Stack.Likeness

namespace MatrixStack

/-! ## Occupied slots -/

namespace Ring

variable {α : Type} {r : Ring α} {values : List α}

/-- Going back from the head visits every slot once. -/
theorem behind_perm (hlt : r.head < r.capacity) :
    ((List.range r.capacity).map fun k => r.behind (k + 1)).Perm (List.range r.capacity) := by
  have hnodup : ((List.range r.capacity).map fun k => r.behind (k + 1)).Nodup := by
    refine List.Nodup.map_on (fun j hj k hk heq => ?_) List.nodup_range
    rw [List.mem_range] at hj hk
    by_contra hne
    rcases Nat.lt_or_gt_of_ne hne with hjk | hkj
    · exact behind_ne hlt (Nat.succ_lt_succ hjk) (by omega) hk heq
    · exact behind_ne hlt (Nat.succ_lt_succ hkj) (by omega) hj heq.symm
  have hsub : ((List.range r.capacity).map fun k => r.behind (k + 1)) ⊆ List.range r.capacity := by
    intro i hi
    obtain ⟨k, -, rfl⟩ := List.mem_map.mp hi
    exact List.mem_range.mpr (behind_lt hlt)
  exact (List.subperm_of_subset hnodup hsub).perm_of_length_le (by simp)

theorem slots_eq_map (r : Ring α) :
    r.slots.toList = (List.range r.capacity).map fun i => r.slots[i]?.join := by
  refine List.ext_getElem (by simp [capacity]) fun i hi _ => ?_
  have hlt : i < r.slots.size := hi
  simp [Array.getElem?_eq_getElem hlt]

/-- A ring has a slot for each of its values, and its other slots are empty. -/
theorem Holds.slots_perm (h : r.Holds values) :
    r.slots.toList.Perm
      (values.map some ++ List.replicate (r.capacity - values.length) none) := by
  have hbehind := (behind_perm h.head_lt).map fun i => r.slots[i]?.join
  rw [← slots_eq_map, List.map_map] at hbehind
  refine hbehind.symm.trans (List.Perm.of_eq (List.ext_getElem ?_ fun k hk _ => ?_))
  · have := h.fits
    simp
    omega
  · rw [List.length_map, List.length_range] at hk
    rw [List.getElem_map, List.getElem_range, Function.comp_apply, h.slot_behind k hk]
    rcases Nat.lt_or_ge k values.length with hin | hout
    · rw [List.getElem?_eq_getElem hin, List.getElem_append_left (by rwa [List.length_map]),
        List.getElem_map]
    · rw [List.getElem?_eq_none hout, List.getElem_append_right (by rwa [List.length_map]),
        List.getElem_replicate]

theorem Holds.countP_slots (h : r.Holds values) :
    r.slots.countP Option.isSome = values.length := by
  rw [← Array.countP_toList, h.slots_perm.countP_eq, List.countP_append, List.countP_replicate]
  simp

end Ring

namespace Stack

/-! ## Uses of a stack -/

/-- One use of a stack. -/
inductive Use (α : Type) where
  | push (a : α)
  | pop

/-- A way of keeping values: what a push leaves, and what a pop answers and leaves. -/
structure Discipline (α σ : Type) where
  push : σ → α → σ
  pop : σ → Option α × σ

variable {α σ τ : Type}

namespace Discipline

/-- What a sequence of uses leaves. -/
def after (d : Discipline α σ) : σ → List (Use α) → σ
  | s, [] => s
  | s, .push a :: uses => d.after (d.push s a) uses
  | s, .pop :: uses => d.after (d.pop s).2 uses

/-- The answers of the pops among the uses. -/
def answers (d : Discipline α σ) : σ → List (Use α) → List (Option α)
  | _, [] => []
  | s, .push a :: uses => d.answers (d.push s a) uses
  | s, .pop :: uses => (d.pop s).1 :: d.answers (d.pop s).2 uses

/-- Related states answer a pop alike, and every use leaves related states. -/
structure Follows (R : σ → τ → Prop) (d : Discipline α σ) (e : Discipline α τ) : Prop where
  push : ∀ {s t} (a : α), R s t → R (d.push s a) (e.push t a)
  pop_fst : ∀ {s t}, R s t → (d.pop s).1 = (e.pop t).1
  pop_snd : ∀ {s t}, R s t → R (d.pop s).2 (e.pop t).2

variable {R : σ → τ → Prop} {d : Discipline α σ} {e : Discipline α τ} {s : σ} {t : τ}

theorem Follows.after (hR : Follows R d e) (h : R s t) (uses : List (Use α)) :
    R (d.after s uses) (e.after t uses) := by
  induction uses generalizing s t with
  | nil => exact h
  | cons use uses ih =>
    cases use with
    | push a => exact ih (hR.push a h)
    | pop => exact ih (hR.pop_snd h)

theorem Follows.answers (hR : Follows R d e) (h : R s t) (uses : List (Use α)) :
    d.answers s uses = e.answers t uses := by
  induction uses generalizing s t with
  | nil => rfl
  | cons use uses ih =>
    cases use with
    | push a => exact ih (hR.push a h)
    | pop => exact congrArg₂ List.cons (hR.pop_fst h) (ih (hR.pop_snd h))

end Discipline

/-- The stacks of the machine. -/
def discipline : Discipline α (Stack α) := ⟨push, pop⟩

/-- A list, oldest value first, that loses its first value where it becomes too long. -/
def forgetful (capacity : Nat) : Discipline α (List α) where
  push values a :=
    if capacity < (values ++ [a]).length then (values ++ [a]).tail else values ++ [a]
  pop values := (values.getLast?, values.dropLast)

/-- What was one too many is gone after a push. -/
theorem forgetful_push {capacity : Nat} {values : List α} (hfits : values.length ≤ capacity)
    (a : α) : (forgetful capacity).push values a = (values ++ [a]).rtake capacity := by
  show (if capacity < (values ++ [a]).length then (values ++ [a]).tail else values ++ [a]) = _
  have hlen : (values ++ [a]).length = values.length + 1 := List.length_append
  rw [List.rtake]
  split
  · have hone : (values ++ [a]).length - capacity = 1 := by omega
    rw [hone, List.drop_one]
  · have hzero : (values ++ [a]).length - capacity = 0 := by omega
    rw [hzero, List.drop_zero]

/-- The stack is a ring of the capacity with these values in it, the oldest first. -/
def RingWith (capacity : Nat) (s : Stack α) (values : List α) : Prop :=
  ∃ r : Ring α, s = .ring r ∧ r.capacity = capacity ∧ r.Holds values.reverse

theorem ringWith_empty {capacity : Nat} (hcap : 1 ≤ capacity) :
    RingWith (α := α) capacity (.ring (Ring.empty capacity)) [] :=
  ⟨_, rfl, Ring.capacity_empty capacity, Ring.holds_empty hcap⟩

theorem follows_forgetful (capacity : Nat) :
    Discipline.Follows (α := α) (RingWith capacity) discipline (forgetful capacity) where
  push := by
    rintro _ values a ⟨r, rfl, rfl, h⟩
    have hfits : values.length ≤ r.capacity := by simpa using h.fits
    refine ⟨r.push a, rfl, Ring.capacity_push r a, ?_⟩
    rw [forgetful_push hfits, List.rtake_eq_reverse_take_reverse, List.reverse_reverse,
      List.reverse_concat]
    exact h.push a
  pop_fst := by
    rintro _ values ⟨r, rfl, -, h⟩
    exact h.pop_fst.trans List.head?_reverse
  pop_snd := by
    rintro _ values ⟨r, rfl, hcap, h⟩
    refine ⟨r.pop.2, rfl, (Ring.capacity_pop r).trans hcap, ?_⟩
    show r.pop.2.Holds values.dropLast.reverse
    rw [← List.tail_reverse]
    exact h.pop_snd

theorem RingWith.ringOf {capacity : Nat} {t : Stack α} {values : List α}
    (h : RingWith capacity t values) : RingOf capacity (.growable values.reverse) t := by
  obtain ⟨r, rfl, hcap, hholds⟩ := h
  exact ⟨values.reverse, r, rfl, rfl, hcap, hholds⟩

/-! ## Stacks reached through their top -/

/-- The function takes the top value off, or leaves the stack alone, and then puts values on; what
it gives, and which values it puts on, depend on the value taken off only. -/
def ThroughTop {β : Type} (f : Stack α → β × Stack α) : Prop :=
  (∃ (out : β) (put : List α), ∀ s, f s = (out, s.pushAll put)) ∨
    ∃ (out : Option α → β) (put : Option α → List α), ∀ s,
      f s = (out s.pop.1, s.pop.2.pushAll (put s.pop.1))

theorem RingOf.items_pushAll {capacity : Nat} {s t : Stack α} (h : RingOf capacity s t)
    (more : List α) : (t.pushAll more).items = (s.pushAll more).items.rtake capacity := by
  obtain ⟨values, r, rfl, rfl, rfl, hholds⟩ := h
  obtain ⟨r', hr', -, hholds'⟩ := pushAll_ring hholds more
  rw [hr', pushAll_growable, List.rtake_eq_reverse_take_reverse]
  show r'.items = ((more.reverse ++ values).reverse.reverse.take r.capacity).reverse
  rw [hholds'.items, List.reverse_reverse]

theorem ThroughTop.ringOf {β : Type} {f : Stack α → β × Stack α} (hf : ThroughTop f)
    {capacity : Nat} {s t : Stack α} (h : RingOf capacity s t) :
    (f t).1 = (f s).1 ∧ (f t).2.items = (f s).2.items.rtake capacity := by
  obtain ⟨out, put, hf⟩ | ⟨out, put, hf⟩ := hf
  · rw [hf, hf]
    exact ⟨rfl, h.items_pushAll put⟩
  · rw [hf, hf, (likeness_ringOf capacity).pop_fst h]
    exact ⟨rfl, ((likeness_ringOf capacity).pop_snd h).items_pushAll _⟩

end Stack

theorem Operator.throughTop (o : Operator) (type : NumberType) (register : Number) :
    Stack.ThroughTop (o.apply type register) := by
  have operate (op : BinaryOp) :
      Stack.ThroughTop fun s => Operator.apply.operate type register s op :=
    .inr ⟨fun top => compute type op register (top.getD (neutral type op)), fun _ => [],
      fun _ => rfl⟩
  cases o with
  | push => exact .inl ⟨.ok register, [register], fun _ => rfl⟩
  | pop => exact .inr ⟨fun top => .ok (top.getD (.zero type)), fun _ => [], fun _ => rfl⟩
  | duplicate =>
    refine .inr ⟨fun _ => .ok register,
      fun top => top.elim [.zero type] fun v => [v, v], fun s => ?_⟩
    rw [apply_duplicate]
    cases s.pop.1 <;> rfl
  | not => exact .inl ⟨.ok register.not, [], fun _ => rfl⟩
  | add => exact operate .add
  | subtract => exact operate .sub
  | multiply => exact operate .mul
  | divide => exact operate .div
  | or => exact operate .or
  | and => exact operate .and
  | xor => exact operate .xor

theorem Comparator.throughTop (c : Comparator) (type : NumberType) (register : Number)
    (d : Direction) : Stack.ThroughTop fun s => c.apply type register s d := by
  cases c with
  | zero => exact .inl ⟨turn register (.zero type) d, [], fun _ => rfl⟩
  | stack =>
    exact .inr ⟨fun top => turn register (top.getD (.zero type)) d, fun _ => [], fun _ => rfl⟩

namespace Stack

/-! ## Bounded stacks -/

theorem createRing_of_pos {α : Type} {capacity : Nat} (hcap : 1 ≤ capacity) :
    createRing (α := α) capacity = .ok (.ring (Ring.empty capacity)) := by
  have hnot : ¬(capacity : Int) < 1 := by omega
  rw [createRing, if_neg hnot, Int.toNat_natCast]

theorem ringWith_after {α : Type} {capacity : Nat} (hcap : 1 ≤ capacity) {fresh : Stack α}
    (hfresh : createRing capacity = .ok fresh) (uses : List (Use α)) :
    RingWith capacity (discipline.after fresh uses) ((forgetful capacity).after [] uses) := by
  rw [createRing_of_pos hcap] at hfresh
  obtain rfl := Except.ok.inj hfresh
  exact (follows_forgetful capacity).after (ringWith_empty hcap) uses

/-- A fresh ring, however it is used, is a bounded stack that forgets its oldest value; and what
operators and comparators do with it, they do with a growable stack of the same contents. -/
theorem ring_forgets_oldest (capacity : Nat) (hcap : 1 ≤ capacity) :
    (∀ (α : Type) (uses : List (Use α)), ∃ (fresh : Stack α) (r : Ring α),
      createRing capacity = .ok fresh ∧ discipline.after fresh uses = .ring r ∧
      discipline.answers fresh uses = (forgetful capacity).answers [] uses ∧
      (ring r).items = (forgetful capacity).after [] uses ∧
      (ring r).size = ((forgetful capacity).after [] uses).length ∧
      r.head < capacity ∧ r.slots.size = capacity ∧
      r.slots.countP Option.isSome = (ring r).size) ∧
    ∀ (uses : List (Use Number)) (fresh : Stack Number) (values : List Number)
      (type : NumberType) (register : Number),
      createRing capacity = .ok fresh →
      (growable values).items = (discipline.after fresh uses).items →
      (∀ o : Operator,
        (o.apply type register (discipline.after fresh uses)).1 =
          (o.apply type register (growable values)).1 ∧
        (o.apply type register (discipline.after fresh uses)).2.items =
          (o.apply type register (growable values)).2.items.rtake capacity) ∧
      ∀ (c : Comparator) (d : Direction),
        (c.apply type register (discipline.after fresh uses) d).1 =
          (c.apply type register (growable values) d).1 ∧
        (c.apply type register (discipline.after fresh uses) d).2.items =
          (c.apply type register (growable values) d).2.items.rtake capacity := by
  constructor
  · intro α uses
    have hfresh := createRing_of_pos (α := α) hcap
    obtain ⟨r, hafter, hcapacity, hholds⟩ := ringWith_after hcap hfresh uses
    have hitems : r.items = (forgetful capacity).after [] uses := by
      rw [hholds.items, List.reverse_reverse]
    have hanswers := (follows_forgetful capacity).answers (ringWith_empty hcap) uses
    refine ⟨_, r, hfresh, hafter, hanswers, hitems, congrArg List.length hitems,
      hcapacity ▸ hholds.head_lt, hcapacity, ?_⟩
    show r.slots.countP Option.isSome = r.items.length
    rw [hholds.countP_slots, hitems, List.length_reverse]
  · intro uses fresh values type register hfresh hvalues
    have hring := (ringWith_after hcap hfresh uses).ringOf
    have hlist : ((forgetful capacity).after [] uses).reverse = values := by
      rw [hring.items] at hvalues
      exact (List.reverse_injective hvalues).symm
    rw [hlist] at hring
    exact ⟨fun o => (o.throughTop type register).ringOf hring,
      fun c d => (c.throughTop type register d).ringOf hring⟩

/-- Two slots, with more values pushed than fit and more pops than there are values. -/
theorem ring_of_two_forgets_oldest :
    1 ≤ 2 ∧
    (∃ (fresh : Stack Nat) (r : Ring Nat), createRing (2 : Nat) = .ok fresh ∧
      discipline.after fresh [.push 1, .push 2, .push 3, .pop, .pop, .pop, .push 7] = .ring r ∧
      discipline.answers fresh [.push 1, .push 2, .push 3, .pop, .pop, .pop, .push 7] =
        [some 3, some 2, none] ∧
      r.items = [7] ∧ r.head < 2 ∧ r.slots.size = 2 ∧ r.slots.countP Option.isSome = 1) ∧
    ∃ fresh : Stack Number, createRing (2 : Nat) = .ok fresh ∧
      (Operator.duplicate.apply .unbounded ⟨.unbounded, 5⟩
        (discipline.after fresh [.push ⟨.unbounded, 8⟩, .push ⟨.unbounded, 9⟩])).2.items =
        [⟨.unbounded, 9⟩, ⟨.unbounded, 9⟩] := by
  have htwo : 1 ≤ 2 := by decide
  obtain ⟨hstack, happly⟩ := ring_forgets_oldest 2 htwo
  refine ⟨htwo, ?_, _, createRing_of_pos htwo, ?_⟩
  · obtain ⟨fresh, r, hfresh, hafter, hanswers, hitems, hsize, hhead, hslots, hcount⟩ :=
      hstack Nat [.push 1, .push 2, .push 3, .pop, .pop, .pop, .push 7]
    exact ⟨fresh, r, hfresh, hafter, hanswers.trans rfl, hitems.trans rfl, hhead, hslots,
      hcount.trans (hsize.trans rfl)⟩
  · obtain ⟨hoperators, -⟩ := happly [.push ⟨.unbounded, 8⟩, .push ⟨.unbounded, 9⟩] _
      [⟨.unbounded, 9⟩, ⟨.unbounded, 8⟩] .unbounded ⟨.unbounded, 5⟩ (createRing_of_pos htwo)
      (by decide)
    exact (hoperators .duplicate).2.trans (by decide)

end Stack
end MatrixStack
