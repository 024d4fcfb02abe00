/-
Numbers as keys of sets and tables.

The key of a number of a fixed width is the label of its type together with its value, and that of
an unbounded one is its value alone.  Two numbers have one key just when they are the same number
(`key_eq_iff`), and `Operand.sameKey` compares keys (`sameKey_number_iff`).  Equality compares
values only, in either order of the operands, and an unbounded number can be compared with any
other.  So the two agree on numbers of one type, and fall apart where an unbounded number equals one
of a fixed width: such numbers are equal and have different keys (`equality_against_keys`).
-/
import MatrixStack.Number.Operand

namespace MatrixStack

theorem NumberType.label_injective {t u : NumberType} (h : t.label = u.label) : t = u := by
  have htable : ∀ t ∈ all, ∀ u ∈ all, t.label = u.label → t = u := by decide
  exact htable t t.mem_all u u.mem_all h

namespace Number

/-- What a number is filed under: its value, with the label of its type if that has a width. -/
inductive Key where
  | labelled (label : String) (value : Int)
  | plain (value : Int)
  deriving DecidableEq

def key (a : Number) : Key :=
  if a.type = .unbounded then .plain a.value else .labelled a.type.label a.value

/-- Numbers have one key just when they are the same. -/
theorem key_eq_iff {a b : Number} : a.key = b.key ↔ a = b := by
  obtain ⟨t, v⟩ := a
  obtain ⟨u, w⟩ := b
  constructor
  · intro h
    unfold key at h
    by_cases ht : t = .unbounded <;> by_cases hu : u = .unbounded
    · simp_all
    · simp [ht, hu] at h
    · simp [ht, hu] at h
    · simp only [ht, hu, if_false, Key.labelled.injEq] at h
      obtain ⟨hlabel, rfl⟩ := h
      rw [NumberType.label_injective hlabel]
  · intro h
    rw [h]

theorem sameKey_number_iff {a b : Number} :
    Operand.sameKey (.number a) (.number b) = true ↔ a.key = b.key := by
  rw [key_eq_iff]
  exact decide_eq_true_iff

theorem comparable_comm (a b : Number) : a.comparable b = b.comparable a := by
  unfold comparable
  rw [Bool.eq_iff_iff]
  simp only [Bool.or_eq_true, decide_eq_true_eq]
  constructor
  · rintro ((h | h) | h)
    · exact .inl (.inl h.symm)
    · exact .inr h
    · exact .inl (.inr h)
  · rintro ((h | h) | h)
    · exact .inl (.inl h.symm)
    · exact .inr h
    · exact .inl (.inr h)

theorem equal_eq_ok_iff {a b : Number} {r : Bool} :
    equal a b = .ok r ↔ a.comparable b = true ∧ r = decide (a.value = b.value) := by
  unfold equal
  split
  case isTrue h => simp [h, eq_comm]
  case isFalse h => simp [h]

theorem equal_comm {a b : Number} {r : Bool} : equal a b = .ok r ↔ equal b a = .ok r := by
  rw [equal_eq_ok_iff, equal_eq_ok_iff, comparable_comm]
  simp only [eq_comm]

/-- Numbers that can be compared have one type, or one of them alone is unbounded. -/
theorem comparable_iff {a b : Number} : a.comparable b = true ↔
    a.type = b.type ∨ ¬(a.type = .unbounded ↔ b.type = .unbounded) := by
  simp only [comparable, Bool.or_eq_true, decide_eq_true_eq]
  constructor
  · rintro ((h | h) | h)
    · exact .inl h
    · by_cases hb : b.type = .unbounded
      · exact .inl (h.trans hb.symm)
      · exact .inr fun hiff => hb (hiff.mp h)
    · by_cases ha : a.type = .unbounded
      · exact .inl (ha.trans h.symm)
      · exact .inr fun hiff => ha (hiff.mpr h)
  · rintro (h | h)
    · exact .inl (.inl h)
    · by_cases ha : a.type = .unbounded
      · exact .inl (.inr ha)
      · exact .inr (Classical.byContradiction fun hb => h (iff_of_false ha hb))

/-- Equality gives one answer in both orders.  Numbers that have one key are equal: they are the
same number.  Numbers are equal and have different keys just when they have one value and exactly
one of them is unbounded. -/
theorem equality_against_keys (a b : Number) :
    (∀ r, equal a b = .ok r ↔ equal b a = .ok r) ∧
    (Operand.sameKey (.number a) (.number b) = true ↔ a.key = b.key) ∧
    (equal a b = .ok true ∧ a.key = b.key ↔ a = b) ∧
    (equal a b = .ok true ∧ a.key ≠ b.key ↔
      a.value = b.value ∧ ¬(a.type = .unbounded ↔ b.type = .unbounded)) := by
  refine ⟨fun r => equal_comm, sameKey_number_iff, ?_, ?_⟩
  · rw [key_eq_iff]
    refine and_iff_right_of_imp ?_
    rintro rfl
    exact (equal_of_same a.type a.value a.value).trans (by rw [decide_eq_true rfl])
  · rw [equal_eq_ok_iff, comparable_iff, Ne, key_eq_iff]
    constructor
    · rintro ⟨⟨htype, hvalue⟩, hne⟩
      have hvalue : a.value = b.value := of_decide_eq_true hvalue.symm
      refine ⟨hvalue, htype.resolve_left fun hsame => hne ?_⟩
      cases a
      cases b
      simp_all
    · rintro ⟨hvalue, hone⟩
      refine ⟨⟨.inr hone, (decide_eq_true hvalue).symm⟩, ?_⟩
      rintro rfl
      exact hone Iff.rfl

/-- A byte and an unbounded number of the same value are equal and have different keys. -/
theorem equal_numbers_under_different_keys :
    let a := Number.of (.unsigned .bits8) 5
    let b : Number := ⟨.unbounded, 5⟩
    equal a b = .ok true ∧ equal b a = .ok true ∧ a.key ≠ b.key ∧
      Operand.sameKey (.number a) (.number b) = false :=
  ⟨rfl, rfl, by decide, rfl⟩

end Number
end MatrixStack
