/-
A ring as a list.

A ring keeps no size: which slots are occupied is all it knows.  `Ring.Holds` says that the
occupied slots are exactly those just behind the head, and gives their values in order.  A push
adds a value in front of the list and lets the list go on for no longer than the capacity; a pop
takes the first value away, and turns the head back even where there is none.
-/
import MatrixStack.Stack.Ring

namespace MatrixStack
namespace Ring

variable {α : Type} {r : Ring α} {values : List α}

/-- The values of the list, the latest first, lie just behind the head, and no others anywhere. -/
structure Holds (r : Ring α) (values : List α) : Prop where
  head_lt : r.head < r.capacity
  fits : values.length ≤ r.capacity
  slot_behind : ∀ k, k < r.capacity → r.slots[r.behind (k + 1)]?.join = values[k]?

/-! ## Places behind the head -/

theorem behind_of_le {k : Nat} (hlt : r.head < r.capacity) (hk : k ≤ r.head) :
    r.behind k = r.head - k := by
  have hsplit : r.head + r.capacity - k = (r.head - k) + r.capacity := by omega
  rw [behind, hsplit, Nat.add_mod_right, Nat.mod_eq_of_lt (by omega)]

theorem behind_of_lt {k : Nat} (hk : r.head < k) (hle : k ≤ r.capacity) :
    r.behind k = r.head + r.capacity - k := by
  rw [behind, Nat.mod_eq_of_lt (by omega)]

theorem behind_lt {k : Nat} (hlt : r.head < r.capacity) : r.behind k < r.capacity :=
  Nat.mod_lt _ (by omega)

theorem behind_ne {j k : Nat} (hlt : r.head < r.capacity) (hjk : j < k)
    (hk : k - j < r.capacity) (hle : k ≤ r.capacity) : r.behind j ≠ r.behind k := by
  by_cases hj : j ≤ r.head
  · rw [behind_of_le hlt hj]
    by_cases hk' : k ≤ r.head
    · rw [behind_of_le hlt hk']
      omega
    · rw [behind_of_lt (by omega) hle]
      omega
  · rw [behind_of_lt (by omega) (by omega), behind_of_lt (by omega) hle]
    omega

theorem head_push (r : Ring α) (a : α) : (r.push a).head = (r.head + 1) % r.capacity := rfl

theorem head_pop (r : Ring α) : r.pop.2.head = r.behind 1 := rfl

/-- After a push every place is one further behind. -/
theorem behind_push {k : Nat} (a : α) (hlt : r.head < r.capacity) (hk : k < r.capacity) :
    (r.push a).behind (k + 1) = r.behind k := by
  by_cases hwrap : r.head + 1 = r.capacity
  · have hhead : (r.push a).head = 0 := by
      rw [head_push, hwrap, Nat.mod_self]
    rw [behind_of_lt (by omega) (by rw [capacity_push]; omega), hhead, capacity_push,
      behind_of_le hlt (by omega)]
    omega
  · have hhead : (r.push a).head = r.head + 1 := by
      rw [head_push, Nat.mod_eq_of_lt (by omega)]
    have hlt' : (r.push a).head < (r.push a).capacity := by
      rw [hhead, capacity_push]
      omega
    by_cases hle : k ≤ r.head
    · rw [behind_of_le hlt' (by omega), behind_of_le hlt hle, hhead]
      omega
    · rw [behind_of_lt (by omega) (by rw [capacity_push]; omega),
        behind_of_lt (by omega) (by omega), hhead, capacity_push]
      omega

/-- After a pop every place is one nearer. -/
theorem behind_pop {k : Nat} (hlt : r.head < r.capacity) (hk : k + 1 ≤ r.capacity) :
    r.pop.2.behind k = r.behind (k + 1) := by
  have hlt' : r.pop.2.head < r.pop.2.capacity := by
    rw [head_pop, capacity_pop]
    exact behind_lt hlt
  by_cases hzero : r.head = 0
  · have hhead : r.pop.2.head = r.capacity - 1 := by
      rw [head_pop, behind_of_lt (by omega) (by omega)]
      omega
    rw [behind_of_le hlt' (by omega), hhead, behind_of_lt (by omega) hk]
    omega
  · have hhead : r.pop.2.head = r.head - 1 := by
      rw [head_pop, behind_of_le hlt (by omega)]
    by_cases hle : k + 1 ≤ r.head
    · rw [behind_of_le hlt' (by omega), behind_of_le hlt hle, hhead]
      omega
    · rw [behind_of_lt (by omega) (by rw [capacity_pop]; omega), behind_of_lt (by omega) hk, hhead,
        capacity_pop]
      omega

/-! ## Operations -/

theorem holds_empty {n : Nat} (hn : 0 < n) : (empty n : Ring α).Holds [] where
  head_lt := by
    rw [capacity_empty]
    exact hn
  fits := Nat.zero_le _
  slot_behind k _ := by
    cases h : (empty n : Ring α).slots[(empty n : Ring α).behind (k + 1)]? with
    | none => rfl
    | some slot =>
      have hslot : slot = none := by
        simp only [empty, Array.getElem?_replicate] at h
        split at h
        · exact (Option.some.inj h).symm
        · cases h
      rw [hslot]
      rfl

/-- A push forgets the oldest value where the ring is full. -/
theorem Holds.push (h : r.Holds values) (a : α) :
    (r.push a).Holds ((a :: values).take r.capacity) where
  head_lt := by
    rw [head_push, capacity_push]
    exact Nat.mod_lt _ (Nat.zero_lt_of_lt h.head_lt)
  fits := by
    rw [capacity_push]
    exact List.length_take_le _ _
  slot_behind k hk := by
    rw [capacity_push] at hk
    rw [behind_push a h.head_lt hk, List.getElem?_take_of_lt hk]
    show (r.slots.setIfInBounds r.head (some a))[r.behind k]?.join = _
    cases k with
    | zero =>
      have hself : r.behind 0 = r.head := behind_of_le h.head_lt (Nat.zero_le _)
      have hlt : r.head < r.slots.size := h.head_lt
      rw [hself, Array.getElem?_setIfInBounds_self_of_lt hlt]
      rfl
    | succ k =>
      have hne : r.head ≠ r.behind (k + 1) := by
        have := behind_ne h.head_lt (Nat.succ_pos k) (by omega) (Nat.le_of_lt hk)
        rwa [behind_of_le h.head_lt (Nat.zero_le _)] at this
      rw [Array.getElem?_setIfInBounds_ne hne, h.slot_behind k (by omega), List.getElem?_cons_succ]

theorem Holds.pop_fst (h : r.Holds values) : r.pop.1 = values.head? := by
  show r.slots[r.behind 1]?.join = _
  rw [h.slot_behind 0 (Nat.zero_lt_of_lt h.head_lt), List.head?_eq_getElem?]

theorem Holds.pop_snd (h : r.Holds values) : r.pop.2.Holds values.tail where
  head_lt := by
    rw [head_pop, capacity_pop]
    exact behind_lt h.head_lt
  fits := by
    rw [capacity_pop, List.length_tail]
    exact Nat.le_trans (Nat.sub_le _ _) h.fits
  slot_behind k hk := by
    rw [capacity_pop] at hk
    show (r.slots.setIfInBounds (r.behind 1) none)[r.pop.2.behind (k + 1)]?.join = _
    rw [List.getElem?_tail]
    by_cases hlast : k + 1 = r.capacity
    · -- The farthest place is the slot that the pop has just emptied.
      have hself : r.pop.2.behind (k + 1) = r.behind 1 := by
        have hlt : r.pop.2.head < r.pop.2.capacity := by
          rw [head_pop, capacity_pop]
          exact behind_lt h.head_lt
        rw [hlast, ← head_pop, ← capacity_pop r, behind_of_lt hlt (Nat.le_refl _)]
        omega
      have hlt : r.behind 1 < r.slots.size := behind_lt h.head_lt
      have hshort : values.length ≤ k + 1 := hlast ▸ h.fits
      rw [hself, Array.getElem?_setIfInBounds_self_of_lt hlt, List.getElem?_eq_none hshort]
      rfl
    · have hne : r.behind 1 ≠ r.behind (k + 1 + 1) :=
        behind_ne h.head_lt (by omega) (by omega) (by omega)
      rw [behind_pop h.head_lt (by omega), Array.getElem?_setIfInBounds_ne hne,
        h.slot_behind (k + 1) (by omega)]

/-! ## Contents -/

theorem Holds.walkBack (h : r.Holds values) {n k : Nat} (hn : k + n = r.capacity) :
    r.walkBack (k + 1) n = values.drop k := by
  induction n generalizing k with
  | zero =>
    have hlen := h.fits
    rw [List.drop_of_length_le (by omega)]
    rfl
  | succ n ih =>
    rw [Ring.walkBack, h.slot_behind k (by omega)]
    cases hk : values[k]? with
    | none => rw [List.drop_of_length_le (List.getElem?_eq_none_iff.mp hk)]
    | some a =>
      obtain ⟨hlt, ha⟩ := List.getElem?_eq_some_iff.mp hk
      rw [List.drop_eq_getElem_cons hlt, ha]
      show a :: r.walkBack (k + 1 + 1) n = _
      rw [ih (by omega)]

theorem mem_slots_of_mem_walkBack {n k : Nat} {v : α} (h : v ∈ r.walkBack k n) :
    some v ∈ r.slots := by
  induction n generalizing k with
  | zero => exact absurd h List.not_mem_nil
  | succ n ih =>
    rw [Ring.walkBack] at h
    cases hslot : r.slots[r.behind k]?.join with
    | none =>
      rw [hslot] at h
      exact absurd h List.not_mem_nil
    | some a =>
      rw [hslot] at h
      rcases List.mem_cons.mp h with rfl | hrest
      · exact Array.mem_of_getElem? (Option.join_eq_some_iff.mp hslot)
      · exact ih hrest

theorem Holds.items (h : r.Holds values) : r.items = values.reverse := by
  rw [Ring.items, h.walkBack (k := 0) (by omega), List.drop_zero]

end Ring
end MatrixStack
