/-
Cutting a text into lines.

A text is one line without a newline, or such a line, a newline, and the rest (`lineInduction`).
`splitLines` and `keepNewlines` have an equation for either case, so they cut a text at the same
places and differ only in the line ends that they leave (`map_dropLineEnd_keepNewlines`).  Where
every carriage return belongs to a newline, `unifyNewlines` takes away no more than `splitLines`
does (`splitLines_unifyNewlines`).
-/
import Mathlib.Data.List.TakeWhile
import MatrixStack.Text.Line

namespace MatrixStack
namespace Text

/-! ## One line after the other -/

/-- Induction over the lines of a text, the last of which has no newline. -/
@[elab_as_elim]
theorem lineInduction {motive : List Char → Prop} (last : ∀ line, '\n' ∉ line → motive line)
    (next : ∀ line rest, '\n' ∉ line → motive rest → motive (line ++ '\n' :: rest))
    (text : List Char) : motive text := by
  -- On the length, since what follows a line is not a tail that the list recursion sees next.
  induction hn : text.length using Nat.strongRecOn generalizing text with
  | ind n ih =>
    by_cases h : '\n' ∈ text
    · obtain ⟨line, rest, rfl, hline⟩ := List.eq_append_cons_of_mem h
      rw [List.length_append, List.length_cons] at hn
      exact next line rest hline (ih rest.length (by omega) rest rfl)
    · exact last text h

/-! ## Lines without their ends -/

theorem splitLines_nil : splitLines [] = [] := rfl

theorem splitLines_of_not_mem {line : List Char} (h : '\n' ∉ line) (hne : line ≠ []) :
    splitLines line = [dropReturn line] := by
  have hlast : [line].getLast? ≠ some [] := fun e => hne (Option.some.inj e)
  rw [splitLines, List.splitOn_eq_singleton h]
  simp only [hlast, if_false, List.map_cons, List.map_nil]

theorem splitLines_append_newline {line : List Char} (h : '\n' ∉ line) (rest : List Char) :
    splitLines (line ++ '\n' :: rest) = dropReturn line :: splitLines rest := by
  have hne := List.splitOn_ne_nil '\n' rest
  rw [splitLines, splitLines, List.splitOn_append_cons_self_of_not_mem h]
  simp only [List.getLast?_cons_of_ne_nil hne, List.dropLast_cons_of_ne_nil hne]
  split <;> rfl

theorem not_mem_of_mem_splitLines {text line : List Char} (h : line ∈ splitLines text) :
    '\n' ∉ line := by
  have hdrop {line : List Char} (hline : '\n' ∉ line) : '\n' ∉ dropReturn line := by
    unfold dropReturn
    split
    · exact fun hc => hline (List.dropLast_subset _ hc)
    · exact hline
  induction text using lineInduction with
  | last whole hwhole =>
    by_cases hnil : whole = []
    · rw [hnil, splitLines_nil] at h
      exact absurd h List.not_mem_nil
    · rw [splitLines_of_not_mem hwhole hnil, List.mem_singleton] at h
      rw [h]
      exact hdrop hwhole
  | next first rest hfirst ih =>
    rw [splitLines_append_newline hfirst] at h
    rcases List.mem_cons.mp h with rfl | hrest
    · exact hdrop hfirst
    · exact ih hrest

/-! ## Lines with their newlines -/

theorem keepNewlines_of_not_mem {line : List Char} (h : '\n' ∉ line) (hne : line ≠ []) :
    keepNewlines line = [line] := by
  induction line with
  | nil => exact absurd rfl hne
  | cons c rest ih =>
    have hc : c ≠ '\n' := fun e => h (e ▸ List.mem_cons_self ..)
    rw [keepNewlines, if_neg hc]
    cases rest with
    | nil => rfl
    | cons d rest => rw [ih (fun hmem => h (List.mem_cons_of_mem c hmem)) (List.cons_ne_nil d rest)]

theorem keepNewlines_append_newline {line : List Char} (h : '\n' ∉ line) (rest : List Char) :
    keepNewlines (line ++ '\n' :: rest) = (line ++ ['\n']) :: keepNewlines rest := by
  induction line with
  | nil => rfl
  | cons c line ih =>
    have hc : c ≠ '\n' := fun e => h (e ▸ List.mem_cons_self ..)
    rw [List.cons_append, keepNewlines, if_neg hc, ih fun hmem => h (List.mem_cons_of_mem c hmem)]
    rfl

/-! ## Dropping the end of a line -/

/-- What is dropped from the end of a line without newlines is a row of carriage returns. -/
theorem exists_returns {line : List Char} (h : '\n' ∉ line) :
    ∃ n, line = dropLineEnd line ++ List.replicate n '\r' := by
  let isEnd : Char → Bool := fun c => c = '\r' ∨ c = '\n'
  have hsplit : line = dropLineEnd line ++ (line.reverse.takeWhile isEnd).reverse := by
    rw [dropLineEnd, trimEndWhere, ← List.reverse_append, List.takeWhile_append_dropWhile,
      List.reverse_reverse]
  refine ⟨(line.reverse.takeWhile isEnd).reverse.length, ?_⟩
  have hreturns : ∀ c ∈ (line.reverse.takeWhile isEnd).reverse, c = '\r' := by
    intro c hc
    have hmem := List.mem_reverse.mp hc
    have hend := List.mem_takeWhile_imp hmem
    rcases of_decide_eq_true hend with hr | hn
    · exact hr
    · have : c ∈ line := List.mem_reverse.mp ((List.takeWhile_sublist _).mem hmem)
      exact absurd (hn ▸ this) h
  rw [← List.eq_replicate_of_mem hreturns]
  exact hsplit

theorem not_mem_dropLineEnd {line : List Char} (h : '\n' ∉ line) : '\n' ∉ dropLineEnd line := by
  intro hmem
  obtain ⟨n, hn⟩ := exists_returns h
  rw [hn] at h
  exact h (List.mem_append_left _ hmem)

theorem dropLineEnd_of_getLast? {line : List Char} (h : '\n' ∉ line)
    (hlast : line.getLast? ≠ some '\r') : dropLineEnd line = line := by
  obtain ⟨n, hn⟩ := exists_returns h
  cases n with
  | zero => rw [List.replicate_zero, List.append_nil] at hn; exact hn.symm
  | succ n =>
    rw [List.replicate_succ', ← List.append_assoc] at hn
    rw [hn, List.getLast?_concat] at hlast
    exact absurd rfl hlast

theorem dropLineEnd_concat_newline (line : List Char) :
    dropLineEnd (line ++ ['\n']) = dropLineEnd line :=
  trimEndWhere_concat_of_pos (by decide) line

theorem dropReturn_concat (line : List Char) : dropReturn (line ++ ['\r']) = line := by
  rw [dropReturn, if_pos List.getLast?_concat, List.dropLast_concat]

theorem dropReturn_of_not_mem {line : List Char} (h : '\r' ∉ line) : dropReturn line = line :=
  if_neg fun hlast => h (List.mem_of_getLast? hlast)

theorem dropLineEnd_dropReturn (line : List Char) :
    dropLineEnd (dropReturn line) = dropLineEnd line := by
  by_cases hlast : line.getLast? = some '\r'
  · obtain ⟨init, rfl⟩ := List.getLast?_eq_some_iff.mp hlast
    rw [dropReturn_concat]
    exact (trimEndWhere_concat_of_pos (by decide) init).symm
  · rw [dropReturn, if_neg hlast]

/-- Both ways to cut a text give the same lines, up to the ends of these. -/
theorem map_dropLineEnd_keepNewlines (text : List Char) :
    (keepNewlines text).map dropLineEnd = (splitLines text).map dropLineEnd := by
  induction text using lineInduction with
  | last line hline =>
    by_cases hnil : line = []
    · rw [hnil]
      rfl
    · rw [keepNewlines_of_not_mem hline hnil, splitLines_of_not_mem hline hnil, List.map_singleton,
        List.map_singleton, dropLineEnd_dropReturn]
  | next line rest hline ih =>
    rw [keepNewlines_append_newline hline, splitLines_append_newline hline, List.map_cons,
      List.map_cons, ih, dropLineEnd_concat_newline, dropLineEnd_dropReturn]

theorem ne_nil_of_mem_keepNewlines {text line : List Char} (h : line ∈ keepNewlines text) :
    line ≠ [] := by
  induction text with
  | nil => cases h
  | cons c rest ih =>
    unfold keepNewlines at h
    split at h
    · rcases List.mem_cons.mp h with rfl | h
      · exact List.cons_ne_nil _ _
      · exact ih h
    · cases hrest : keepNewlines rest with
      | nil =>
        rw [hrest] at h
        rcases List.mem_singleton.mp h with rfl
        exact List.cons_ne_nil _ _
      | cons first more =>
        rw [hrest] at h ih
        rcases List.mem_cons.mp h with rfl | h
        · exact List.cons_ne_nil _ _
        · exact ih (List.mem_cons_of_mem _ h)

/-- A line that loses its end has no newline left. -/
theorem not_mem_dropLineEnd_of_mem_keepNewlines {text line : List Char}
    (h : line ∈ keepNewlines text) : '\n' ∉ dropLineEnd line := by
  have hmem : dropLineEnd line ∈ (splitLines text).map dropLineEnd := by
    rw [← map_dropLineEnd_keepNewlines]
    exact List.mem_map_of_mem h
  obtain ⟨whole, hwhole, heq⟩ := List.mem_map.mp hmem
  rw [← heq]
  exact not_mem_dropLineEnd (not_mem_of_mem_splitLines hwhole)

/-! ## Carriage returns before newlines -/

/-- Every carriage return is directly followed by a newline. -/
def ReturnsEndLines (text : List Char) : Prop :=
  ∀ i : Nat, text[i]? = some '\r' → text[i + 1]? = some '\n'

theorem returnsEndLines_iff {text : List Char} : ReturnsEndLines text ↔
    ∀ i < text.length, text[i]? = some '\r' → text[i + 1]? = some '\n' :=
  ⟨fun h i _ => h i, fun h i hi => h i (List.getElem?_eq_some_iff.mp hi).1 hi⟩

instance (text : List Char) : Decidable (ReturnsEndLines text) :=
  decidable_of_iff _ returnsEndLines_iff.symm

theorem ReturnsEndLines.of_append {before text : List Char} (h : ReturnsEndLines (before ++ text)) :
    ReturnsEndLines text := by
  intro i hi
  have hplace (k : Nat) : (before ++ text)[before.length + k]? = text[k]? := by
    rw [List.getElem?_append_right (Nat.le_add_right ..), Nat.add_sub_cancel_left]
  have hnext := h (before.length + i) ((hplace i).trans hi)
  rwa [Nat.add_assoc, hplace] at hnext

/-- What follows a carriage return starts with a newline. -/
theorem ReturnsEndLines.head? {before after : List Char}
    (h : ReturnsEndLines (before ++ '\r' :: after)) : after.head? = some '\n' := by
  rw [List.head?_eq_getElem?]
  exact h.of_append 0 rfl

theorem unifyNewlines_append {line : List Char} (h : '\r' ∉ line) (rest : List Char) :
    unifyNewlines (line ++ rest) = line ++ unifyNewlines rest := by
  induction line with
  | nil => rfl
  | cons c line ih =>
    have hc : c ≠ '\r' := fun e => h (e ▸ List.mem_cons_self ..)
    have hline : '\r' ∉ line := fun hmem => h (List.mem_cons_of_mem c hmem)
    rw [List.cons_append, unifyNewlines, if_neg hc, ih hline, List.cons_append]
    exact fun _ e => absurd e hc

theorem splitLines_unifyNewlines {text : List Char} (h : ReturnsEndLines text) :
    splitLines (unifyNewlines text) = splitLines text := by
  induction text using lineInduction with
  | last line hline =>
    have hno : '\r' ∉ line := by
      intro hmem
      obtain ⟨before, after, rfl⟩ := List.append_of_mem hmem
      have hnext := List.mem_of_head? h.head?
      exact hline (List.mem_append_right _ (List.mem_cons_of_mem _ hnext))
    have hsame := unifyNewlines_append hno []
    rw [List.append_nil] at hsame
    rw [hsame, unifyNewlines, List.append_nil]
  | next line rest hline ih =>
    have hrest : ReturnsEndLines rest := by
      have hall : ReturnsEndLines ((line ++ ['\n']) ++ rest) := by
        rwa [List.append_assoc]
      exact hall.of_append
    by_cases hmem : '\r' ∈ line
    · -- The carriage return that the line has is its last character.
      obtain ⟨init, after, rfl, hinit⟩ := List.eq_append_cons_of_mem hmem
      have hnext : (after ++ '\n' :: rest).head? = some '\n' := by
        rw [List.append_assoc] at h
        exact h.head?
      cases after with
      | nil =>
        have hnewline : '\n' ∉ init := fun hc => hline (List.mem_append_left _ hc)
        rw [splitLines_append_newline hline, dropReturn_concat, List.append_assoc,
          unifyNewlines_append hinit]
        show splitLines (init ++ '\n' :: unifyNewlines rest) = _
        rw [splitLines_append_newline hnewline, dropReturn_of_not_mem hinit, ih hrest]
      | cons c after =>
        have hc : c = '\n' := Option.some.inj hnext
        rw [hc] at hline
        exact absurd (List.mem_append_right _ (List.mem_cons_of_mem _ (List.mem_cons_self ..))) hline
    · rw [unifyNewlines_append hmem]
      show splitLines (line ++ '\n' :: unifyNewlines rest) = _
      rw [splitLines_append_newline hline, splitLines_append_newline hline, ih hrest]

end Text
end MatrixStack
