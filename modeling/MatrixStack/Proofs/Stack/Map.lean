/-
Stacks with a function applied to every value.

The function commutes with every operation on a stack, whether it grows or is a ring.
-/
import MatrixStack.Stack.Basic

namespace MatrixStack

variable {α β : Type} (f : α → β)

namespace Ring

def map (r : Ring α) : Ring β := ⟨r.slots.map (Option.map f), r.head⟩

@[simp] theorem capacity_map (r : Ring α) : (r.map f).capacity = r.capacity := Array.size_map

theorem behind_map (r : Ring α) (k : Nat) : (r.map f).behind k = r.behind k := by
  rw [behind, capacity_map]
  rfl

theorem join_getElem?_map (r : Ring α) (k : Nat) :
    (r.map f).slots[k]?.join = r.slots[k]?.join.map f := by
  show (r.slots.map (Option.map f))[k]?.join = _
  rw [Array.getElem?_map]
  cases r.slots[k]? <;> rfl

theorem push_map (r : Ring α) (a : α) : (r.map f).push (f a) = (r.push a).map f := by
  have hslots : (r.slots.setIfInBounds r.head (some a)).map (Option.map f) =
      (r.slots.map (Option.map f)).setIfInBounds r.head (some (f a)) :=
    Array.map_setIfInBounds
  rw [push, capacity_map, map, map, push, hslots]

theorem pop_fst_map (r : Ring α) : (r.map f).pop.1 = r.pop.1.map f := by
  show (r.map f).slots[(r.map f).behind 1]?.join = _
  rw [behind_map, join_getElem?_map]
  rfl

theorem pop_snd_map (r : Ring α) : (r.map f).pop.2 = r.pop.2.map f := by
  have hslots : (r.slots.setIfInBounds (r.behind 1) none).map (Option.map f) =
      (r.slots.map (Option.map f)).setIfInBounds (r.behind 1) none :=
    Array.map_setIfInBounds
  show Ring.mk ((r.map f).slots.setIfInBounds ((r.map f).behind 1) none) ((r.map f).behind 1) = _
  rw [behind_map, map, map, pop, hslots]

theorem walkBack_map (r : Ring α) (k n : Nat) :
    (r.map f).walkBack k n = (r.walkBack k n).map f := by
  induction n generalizing k with
  | zero => rfl
  | succ n ih =>
    rw [walkBack, walkBack, behind_map, join_getElem?_map]
    cases r.slots[r.behind k]?.join with
    | none => rfl
    | some a => exact congrArg (f a :: ·) (ih (k + 1))

/-- What a pop finds is among the contents. -/
theorem mem_items_of_pop {r : Ring α} {a : α} (h : r.pop.1 = some a) : a ∈ r.items := by
  have hslot : r.slots[r.behind 1]?.join = some a := h
  have hlt : 0 < r.capacity := by
    obtain ⟨hin, -⟩ := Array.getElem?_eq_some_iff.mp (Option.join_eq_some_iff.mp hslot)
    exact Nat.lt_of_le_of_lt (Nat.zero_le _) hin
  obtain ⟨n, hn⟩ := Nat.exists_eq_succ_of_ne_zero (Nat.ne_of_gt hlt)
  rw [items, List.mem_reverse, hn, walkBack, hslot]
  exact List.mem_cons_self ..

end Ring

namespace Stack

def map : Stack α → Stack β
  | .growable values => .growable (values.map f)
  | .ring r => .ring (r.map f)

theorem push_map (s : Stack α) (a : α) : (s.map f).push (f a) = (s.push a).map f := by
  cases s with
  | growable values => rfl
  | ring r => exact congrArg Stack.ring (r.push_map f a)

theorem pop_fst_map (s : Stack α) : (s.map f).pop.1 = s.pop.1.map f := by
  cases s with
  | growable values => cases values <;> rfl
  | ring r => exact r.pop_fst_map f

theorem pop_snd_map (s : Stack α) : (s.map f).pop.2 = s.pop.2.map f := by
  cases s with
  | growable values => cases values <;> rfl
  | ring r => exact congrArg Stack.ring (r.pop_snd_map f)

theorem pushAll_map (s : Stack α) (values : List α) :
    (s.map f).pushAll (values.map f) = (s.pushAll values).map f := by
  induction values generalizing s with
  | nil => rfl
  | cons a rest ih =>
    show ((s.map f).push (f a)).pushAll (rest.map f) = ((s.push a).pushAll rest).map f
    rw [push_map, ih]

theorem items_map (s : Stack α) : (s.map f).items = s.items.map f := by
  cases s with
  | growable values => exact List.map_reverse.symm
  | ring r =>
    show ((r.map f).walkBack 1 (r.map f).capacity).reverse = _
    rw [Ring.walkBack_map, Ring.capacity_map]
    exact List.map_reverse.symm

theorem mem_items_of_pop {s : Stack α} {a : α} (h : s.pop.1 = some a) : a ∈ s.items := by
  cases s with
  | growable values =>
    cases values with
    | nil => cases h
    | cons b rest =>
      cases h
      exact List.mem_reverse.mpr (List.mem_cons_self ..)
  | ring r => exact Ring.mem_items_of_pop h

end Stack
end MatrixStack
