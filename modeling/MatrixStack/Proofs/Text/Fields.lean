/-
Fields of a text that can be told apart again.

A numeral is made of digits and a minus sign, so that any other character ends it: two texts that
start with a numeral and such a character are the same only if the numerals are those of one value
(`Decimal.text_append_cons_inj`), and likewise for the two numerals of a pointer
(`Pointer.text_append_inj`).  A text of one line holds no newline, and lines of which each is one
are found again in the text that they are joined to (`linesIn_intercalate`).
-/
import MatrixStack.Plane.Extent
import MatrixStack.Proofs.Text.Decimal

namespace MatrixStack

namespace Text

/-! ## Up to a separator -/

/-- What stands before the first separator, and what stands after it. -/
theorem append_cons_inj {c : Char} {a b r s : List Char} (ha : c ∉ a) (hb : c ∉ b)
    (h : a ++ c :: r = b ++ c :: s) : a = b ∧ r = s := by
  have hsplit := congrArg (List.splitOn c) h
  rw [List.splitOn_append_cons_self_of_not_mem ha,
    List.splitOn_append_cons_self_of_not_mem hb] at hsplit
  obtain rfl : a = b := (List.cons.inj hsplit).1
  exact ⟨rfl, (List.cons.inj (List.append_cancel_left h)).2⟩

/-! ## Lines -/

/-- There is no newline in the text. -/
def OneLine (text : String) : Prop := '\n' ∉ text.toList

instance (text : String) : Decidable (OneLine text) := inferInstanceAs (Decidable (_ ∉ _))

theorem OneLine.append {a b : String} (ha : OneLine a) (hb : OneLine b) : OneLine (a ++ b) := by
  simp only [OneLine, String.toList_append, List.mem_append, not_or]
  exact ⟨ha, hb⟩

theorem OneLine.intercalate {separator : String} {texts : List String} (hs : OneLine separator)
    (h : ∀ text ∈ texts, OneLine text) : OneLine (separator.intercalate texts) := by
  induction texts with
  | nil => rw [String.intercalate_nil]; decide
  | cons text texts ih =>
    obtain ⟨htext, hrest⟩ := List.forall_mem_cons.mp h
    cases texts with
    | nil => rwa [String.intercalate_singleton]
    | cons next texts =>
      rw [String.intercalate_cons_cons]
      exact (htext.append hs).append (ih hrest)

/-- The pieces between the newlines of a text. -/
def linesIn (text : String) : List (List Char) := text.toList.splitOn '\n'

theorem linesIn_of_oneLine {text : String} (h : OneLine text) : linesIn text = [text.toList] :=
  List.splitOn_eq_singleton h

theorem linesIn_intercalate {lines : List String} (h : ∀ line ∈ lines, OneLine line)
    (hne : lines ≠ []) : linesIn ("\n".intercalate lines) = lines.map String.toList := by
  rw [linesIn, String.toList_intercalate]
  refine List.splitOn_intercalate '\n' (fun l hl => ?_) (mt List.map_eq_nil_iff.mp hne)
  obtain ⟨line, hline, rfl⟩ := List.mem_map.mp hl
  exact h line hline

/-- Lines that are each ended by a newline leave an empty piece behind the last one. -/
theorem splitOn_ended {lines : List (List Char)} (h : ∀ line ∈ lines, '\n' ∉ line) :
    (lines.flatMap (· ++ ['\n'])).splitOn '\n' = lines ++ [[]] := by
  induction lines with
  | nil => exact List.splitOn_nil '\n'
  | cons line lines ih =>
    obtain ⟨hline, hrest⟩ := List.forall_mem_cons.mp h
    rw [List.flatMap_cons, List.append_assoc, List.singleton_append,
      List.splitOn_append_cons_self_of_not_mem hline, ih hrest, List.cons_append]

end Text

/-! ## Numerals -/

namespace Decimal

theorem text_injective {v w : Int} (h : text v = text w) : v = w := by
  have hsplit := congrArg (fun s => splitSign s.toList) h
  simp only [splitSign_text, Prod.mk.injEq] at hsplit
  obtain ⟨hsign, hdigits⟩ := hsplit
  have hvalue := congrArg value hdigits
  rw [value_toDigits, value_toDigits] at hvalue
  rw [← applySign_natAbs v, ← applySign_natAbs w, hsign, hvalue]

theorem repr_injective {m n : Nat} (h : m.repr = n.repr) : m = n :=
  Int.ofNat_inj.mp (text_injective (v := m) (w := n) h)

theorem not_mem_text {c : Char} (hc : c ≠ '-') (hdigit : c.isDigit = false) (v : Int) :
    c ∉ (text v).toList := by
  intro hmem
  rcases mem_text hmem with rfl | h
  · exact hc rfl
  · exact Bool.false_ne_true (hdigit.symm.trans h)

theorem oneLine_text (v : Int) : Text.OneLine (text v) := not_mem_text (by decide) rfl v

theorem text_append_cons_inj {c : Char} (hc : c ≠ '-') (hdigit : c.isDigit = false) {v w : Int}
    {r s : List Char} (h : (text v).toList ++ c :: r = (text w).toList ++ c :: s) :
    v = w ∧ r = s := by
  obtain ⟨htext, hrest⟩ :=
    Text.append_cons_inj (not_mem_text hc hdigit v) (not_mem_text hc hdigit w) h
  exact ⟨text_injective (String.toList_inj.mp htext), hrest⟩

end Decimal

/-! ## Pointers and extents -/

theorem Pointer.toList_text (p : Pointer) : p.text.toList =
    '(' :: ((Decimal.text p.x).toList ++ ',' :: ' ' :: ((Decimal.text p.y).toList ++ [')'])) := by
  simp [text]

theorem Pointer.text_append_inj {p q : Pointer} {r s : List Char}
    (h : p.text.toList ++ r = q.text.toList ++ s) : p = q ∧ r = s := by
  rw [toList_text, toList_text] at h
  simp only [List.cons_append, List.append_assoc] at h
  obtain ⟨hx, hrest⟩ := Decimal.text_append_cons_inj (by decide) rfl (List.cons.inj h).2
  obtain ⟨hy, hrest⟩ := Decimal.text_append_cons_inj (by decide) rfl (List.cons.inj hrest).2
  refine ⟨?_, hrest⟩
  cases p
  cases q
  simp_all

theorem Pointer.oneLine_text (p : Pointer) : Text.OneLine p.text :=
  ((((by decide : Text.OneLine "(").append (Decimal.oneLine_text p.x)).append (by decide)).append
    (Decimal.oneLine_text p.y)).append (by decide)

theorem Extent.text_append_inj {e e' : Extent} {r s : List Char}
    (h : e.text.toList ++ ' ' :: r = e'.text.toList ++ ' ' :: s) : e = e' := by
  simp only [text, String.toList_append, List.append_assoc] at h
  obtain ⟨hw, hrest⟩ := Decimal.text_append_cons_inj (c := 'x') (by decide) rfl h
  obtain ⟨hh, -⟩ := Decimal.text_append_cons_inj (by decide) rfl hrest
  cases e
  cases e'
  simp_all

theorem Extent.oneLine_text (e : Extent) : Text.OneLine e.text :=
  ((Decimal.oneLine_text e.width).append (by decide)).append (Decimal.oneLine_text e.height)

end MatrixStack
