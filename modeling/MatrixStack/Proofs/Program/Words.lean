/-
Words between blanks, and the tokens of a text.

The words of a text are its maximal runs of characters that are not blank (`runs_iff`), so the text
that is put together from some words, with blanks between them, has these words again
(`runs_joinWith`).  Tokens are read from the left: blanks at the beginning do not matter, a word
that ends at a blank or at a comment is the first token, and what follows a comment must be blank.
There are no tokens exactly where other text follows a comment (`read?_eq_none_iff`).
-/
import Mathlib.Data.List.TakeWhile
import MatrixStack.Program.Tokens

namespace MatrixStack

/-- The text is empty or starts with a character of the class. -/
def Text.StartsIn (p : Char → Bool) (cs : List Char) : Prop := ∀ c ∈ cs.head?, p c = true

theorem Text.startsIn_nil (p : Char → Bool) : StartsIn p [] := fun _ hc => nomatch hc

theorem Text.startsIn_cons {p : Char → Bool} {c : Char} (hc : p c = true) (rest : List Char) :
    StartsIn p (c :: rest) := fun _ hd => Option.some.inj hd ▸ hc

namespace Tokens

open Text (isBlank StartsIn startsIn_nil startsIn_cons)

/-! ## Words -/

theorem words_append_cons {c : Char} (hc : isBlank c = true) (before rest : List Char) :
    words (before ++ c :: rest) = words before ++ words rest := by
  rw [words, List.splitOnP_append_cons before rest hc, List.filter_append]
  rfl

theorem words_blank_cons {c : Char} (hc : isBlank c = true) (rest : List Char) :
    words (c :: rest) = words rest := words_append_cons hc [] rest

theorem words_blanks_append {gap : List Char} (h : ∀ c ∈ gap, isBlank c = true)
    (rest : List Char) : words (gap ++ rest) = words rest := by
  induction gap with
  | nil => rfl
  | cons c gap ih =>
    obtain ⟨hc, hgap⟩ := List.forall_mem_cons.mp h
    exact (words_blank_cons hc (gap ++ rest)).trans (ih hgap)

/-- No blanks, and at least one character. -/
def IsWord (cs : List Char) : Prop := cs ≠ [] ∧ ∀ c ∈ cs, isBlank c = false

theorem words_of_isWord {word : List Char} (h : IsWord word) : words word = [word] := by
  rw [words, List.splitOnP_eq_singleton h.2, List.filter_cons_of_pos]
  · rfl
  · rw [List.isEmpty_eq_false_iff.mpr h.1]
    rfl

theorem words_word_append {word rest : List Char} (h : IsWord word)
    (hrest : StartsIn isBlank rest) : words (word ++ rest) = word :: words rest := by
  cases rest with
  | nil =>
    rw [List.append_nil, words_of_isWord h]
    rfl
  | cons c rest =>
    have hc : isBlank c = true := hrest c rfl
    rw [words_append_cons hc, words_of_isWord h, words_blank_cons hc]
    rfl

/-! ## Maximal runs -/

/-- The text is blanks and runs of other characters; each run is as long as it can be, since it
begins after all the blanks and ends before a blank or with the text. -/
inductive Runs : List Char → List (List Char) → Prop
  | blanks {gap : List Char} (hgap : ∀ c ∈ gap, isBlank c = true) : Runs gap []
  | run {gap word rest : List Char} {words : List (List Char)}
      (hgap : ∀ c ∈ gap, isBlank c = true) (hword : IsWord word)
      (hend : StartsIn isBlank rest) (hrest : Runs rest words) :
      Runs (gap ++ (word ++ rest)) (word :: words)

theorem Runs.words_eq {cs : List Char} {ws : List (List Char)} (h : Runs cs ws) :
    words cs = ws := by
  induction h with
  | @blanks gap hgap =>
    have hwords := words_blanks_append hgap []
    rw [List.append_nil] at hwords
    exact hwords
  | run hgap hword hend _ ih => rw [words_blanks_append hgap, words_word_append hword hend, ih]

theorem Runs.blank_cons {c : Char} (hc : isBlank c = true) {cs : List Char}
    {ws : List (List Char)} (h : Runs cs ws) : Runs (c :: cs) ws := by
  cases h with
  | blanks hgap => exact .blanks (List.forall_mem_cons.mpr ⟨hc, hgap⟩)
  | @run gap word rest ws hgap hword hend hrest =>
    exact @run (c :: gap) word rest ws (List.forall_mem_cons.mpr ⟨hc, hgap⟩) hword hend hrest

theorem Runs.word_first {word rest : List Char} {ws : List (List Char)} (hword : IsWord word)
    (hend : StartsIn isBlank rest) (h : Runs rest ws) : Runs (word ++ rest) (word :: ws) :=
  @run [] word rest ws (fun _ hc => absurd hc List.not_mem_nil) hword hend h

theorem isWord_singleton {c : Char} (hc : isBlank c = false) : IsWord [c] :=
  ⟨List.cons_ne_nil c [], fun _ hd => List.eq_of_mem_singleton hd ▸ hc⟩

theorem IsWord.cons {c : Char} (hc : isBlank c = false) {word : List Char} (h : IsWord word) :
    IsWord (c :: word) :=
  ⟨List.cons_ne_nil c word, List.forall_mem_cons.mpr ⟨hc, h.2⟩⟩

/-- A character that is not blank makes a run of its own before a blank, and otherwise the run that
follows longer. -/
theorem Runs.cons {c : Char} (hc : isBlank c = false) {cs : List Char} {ws : List (List Char)}
    (h : Runs cs ws) : ∃ ws', Runs (c :: cs) ws' := by
  have halone (hstart : StartsIn isBlank cs) : ∃ ws', Runs (c :: cs) ws' :=
    ⟨[c] :: ws, word_first (isWord_singleton hc) hstart h⟩
  cases h with
  | blanks hgap => exact halone fun d hd => hgap d (List.mem_of_mem_head? hd)
  | @run gap word rest ws hgap hword hend hrest =>
    cases gap with
    | nil => exact ⟨(c :: word) :: ws, word_first (hword.cons hc) hend hrest⟩
    | cons d gap => exact halone (startsIn_cons (hgap d List.mem_cons_self) _)

theorem exists_runs (cs : List Char) : ∃ ws, Runs cs ws := by
  induction cs with
  | nil => exact ⟨[], .blanks fun c hc => absurd hc List.not_mem_nil⟩
  | cons c cs ih =>
    obtain ⟨ws, h⟩ := ih
    cases hc : isBlank c with
    | true => exact ⟨ws, h.blank_cons hc⟩
    | false => exact h.cons hc

theorem runs_iff {cs : List Char} {ws : List (List Char)} : Runs cs ws ↔ words cs = ws := by
  refine ⟨Runs.words_eq, ?_⟩
  rintro rfl
  obtain ⟨ws, h⟩ := exists_runs cs
  rwa [h.words_eq]

theorem Runs.isWord {cs : List Char} {ws : List (List Char)} (h : Runs cs ws) :
    ∀ w ∈ ws, IsWord w ∧ ∀ c ∈ w, c ∈ cs := by
  induction h with
  | blanks => exact fun w hw => absurd hw List.not_mem_nil
  | @run gap word rest ws hgap hword hend _ ih =>
    refine List.forall_mem_cons.mpr ⟨⟨hword, fun c hc => ?_⟩, fun w hw => ?_⟩
    · exact List.mem_append_right gap (List.mem_append_left rest hc)
    · obtain ⟨hw, hmem⟩ := ih w hw
      exact ⟨hw, fun c hc => List.mem_append_right gap (List.mem_append_right word (hmem c hc))⟩

/-! ## Words put together -/

/-- The words in their order, the text of each gap between two of them. -/
def joinWith (gap : Nat → List Char) : List (List Char) → List Char
  | [] => []
  | [w] => w
  | w :: v :: ws => w ++ (gap 0 ++ joinWith (fun n => gap (n + 1)) (v :: ws))

/-- A text of blanks, not empty. -/
def IsGap (cs : List Char) : Prop := cs ≠ [] ∧ ∀ c ∈ cs, isBlank c = true

theorem IsGap.startsIn {gap : List Char} (h : IsGap gap) (rest : List Char) :
    StartsIn isBlank (gap ++ rest) := by
  cases gap with
  | nil => exact absurd rfl h.1
  | cons d gap => exact startsIn_cons (h.2 d List.mem_cons_self) (gap ++ rest)

theorem words_joinWith {gap : Nat → List Char} (hgap : ∀ n, IsGap (gap n))
    {ws : List (List Char)} (h : ∀ w ∈ ws, IsWord w) : words (joinWith gap ws) = ws := by
  fun_induction joinWith gap ws with
  | case1 => rfl
  | case2 gap w => exact words_of_isWord (h w List.mem_cons_self)
  | case3 gap w v ws ih =>
    obtain ⟨hw, hrest⟩ := List.forall_mem_cons.mp h
    rw [words_word_append hw ((hgap 0).startsIn _), words_blanks_append (hgap 0).2,
      ih (fun n => hgap (n + 1)) hrest]

theorem mem_joinWith {gap : Nat → List Char} {ws : List (List Char)} {c : Char}
    (h : c ∈ joinWith gap ws) : (∃ n, c ∈ gap n) ∨ ∃ w ∈ ws, c ∈ w := by
  fun_induction joinWith gap ws with
  | case1 => exact absurd h List.not_mem_nil
  | case2 gap w => exact .inr ⟨w, List.mem_cons_self, h⟩
  | case3 gap w v ws ih =>
    rcases List.mem_append.mp h with hw | hrest
    · exact .inr ⟨w, List.mem_cons_self, hw⟩
    rcases List.mem_append.mp hrest with hgap | hrest
    · exact .inl ⟨0, hgap⟩
    rcases ih hrest with ⟨n, hn⟩ | ⟨v, hv, hc⟩
    · exact .inl ⟨n + 1, hn⟩
    · exact .inr ⟨v, List.mem_cons_of_mem w hv, hc⟩

/-! ## Comments -/

theorem ne_of_not_mem {d : Char} {cs : List Char} (h : d ∉ cs) :
    ∀ c ∈ cs, decide (c ≠ d) = true := by
  intro c hc
  refine decide_eq_true ?_
  rintro rfl
  exact h hc

theorem beforeComment_append {before : List Char} (h : '#' ∉ before) (rest : List Char) :
    beforeComment (before ++ rest) = before ++ beforeComment rest :=
  List.takeWhile_append_of_pos (ne_of_not_mem h)

theorem afterComment_append {before : List Char} (h : '#' ∉ before) (rest : List Char) :
    afterComment (before ++ rest) = afterComment rest :=
  congrArg (List.dropWhile (· ≠ '\n')) (List.dropWhile_append_of_pos (ne_of_not_mem h))

theorem afterComment_comment {comment rest : List Char} (h : '\n' ∉ comment)
    (hrest : StartsIn (· = '\n') rest) : afterComment ('#' :: (comment ++ rest)) = rest := by
  have hsign : afterComment ('#' :: (comment ++ rest)) =
      (comment ++ rest).dropWhile (· ≠ '\n') := by
    rw [afterComment, List.dropWhile_cons_of_neg (by decide),
      List.dropWhile_cons_of_pos (by decide)]
  rw [hsign, List.dropWhile_append_of_pos (ne_of_not_mem h)]
  cases rest with
  | nil => rfl
  | cons c rest =>
    have hc : c = '\n' := of_decide_eq_true (hrest c rfl)
    subst hc
    exact List.dropWhile_cons_of_neg (by decide)

/-- A comment with no newline in it lasts until the text ends. -/
theorem afterComment_of_no_newline {comment : List Char} (h : '\n' ∉ comment) :
    afterComment ('#' :: comment) = [] := by
  have hall := afterComment_comment h (startsIn_nil _)
  rwa [List.append_nil] at hall

/-! ## Tokens from the left -/

theorem not_mem_of_blanks {gap : List Char} (h : ∀ c ∈ gap, isBlank c = true) : '#' ∉ gap :=
  fun hmem => absurd (h '#' hmem) (by decide)

theorem read?_blanks_append {gap : List Char} (h : ∀ c ∈ gap, isBlank c = true)
    (rest : List Char) : read? (gap ++ rest) = read? rest := by
  have hgap := not_mem_of_blanks h
  rw [read?, read?, afterComment_append hgap, beforeComment_append hgap, words_blanks_append h]

theorem read?_word_append {word rest : List Char} (h : IsWord word) (hsign : '#' ∉ word)
    (hrest : StartsIn (fun c => isBlank c || c = '#') rest) :
    read? (word ++ rest) = (read? rest).map (String.ofList word :: ·) := by
  have hblank : StartsIn isBlank (beforeComment rest) := by
    intro c hc
    obtain ⟨hhead, hne⟩ := Option.filter_eq_some_iff.mp (List.head?_takeWhile ▸ hc)
    rcases Bool.or_eq_true_iff.mp (hrest c hhead) with hc | hc
    · exact hc
    · exact absurd (of_decide_eq_true hc) (of_decide_eq_true hne)
  rw [read?, read?, afterComment_append hsign, beforeComment_append hsign,
    words_word_append h hblank]
  split
  case isTrue => rfl
  case isFalse => rfl

theorem read?_comment {comment rest : List Char} (h : '\n' ∉ comment)
    (hrest : StartsIn (· = '\n') rest) :
    read? ('#' :: (comment ++ rest)) = if rest.all isBlank then some [] else none := by
  have hbefore : words (beforeComment ('#' :: (comment ++ rest))) = [] := rfl
  rw [read?, afterComment_comment h hrest, hbefore]
  rfl

/-- A comment to the end of the text has no effect on the tokens before it. -/
theorem read?_append_comment {before comment : List Char} (hbefore : '#' ∉ before)
    (h : '\n' ∉ comment) :
    read? (before ++ '#' :: comment) = some ((words before).map String.ofList) := by
  have hsign : beforeComment ('#' :: comment) = [] := rfl
  rw [read?, afterComment_append hbefore, afterComment_of_no_newline h,
    beforeComment_append hbefore, hsign, List.append_nil]
  rfl

theorem not_mem_beforeComment (cs : List Char) : '#' ∉ beforeComment cs := by
  intro hmem
  have hne := List.mem_takeWhile_imp (p := (· ≠ '#')) hmem
  exact of_decide_eq_true hne rfl

theorem words_of_read? {cs : List Char} {ts : List String} (h : read? cs = some ts) :
    words (beforeComment cs) = ts.map String.toList := by
  rw [read?] at h
  split at h
  case isTrue =>
    cases h
    rw [List.map_map]
    exact (List.map_id'' (fun _ => String.toList_ofList) _).symm
  case isFalse => cases h

theorem isWord_of_read? {cs : List Char} {ts : List String} (h : read? cs = some ts) :
    ∀ t ∈ ts, IsWord t.toList ∧ '#' ∉ t.toList := by
  intro t ht
  obtain ⟨hword, hmem⟩ := (runs_iff.mpr (words_of_read? h)).isWord _ (List.mem_map_of_mem ht)
  exact ⟨hword, fun hc => not_mem_beforeComment cs (hmem _ hc)⟩

/-- Tokens that are put together again, with a comment after them. -/
theorem read?_joinWith {gap : Nat → List Char} (hgap : ∀ n, IsGap (gap n)) {ts : List String}
    (h : ∀ t ∈ ts, IsWord t.toList ∧ '#' ∉ t.toList) {comment : List Char}
    (hcomment : '\n' ∉ comment) :
    read? (joinWith gap (ts.map String.toList) ++ '#' :: comment) = some ts := by
  have hsign : '#' ∉ joinWith gap (ts.map String.toList) := by
    intro hmem
    rcases mem_joinWith hmem with ⟨n, hn⟩ | ⟨w, hw, hc⟩
    · exact not_mem_of_blanks (hgap n).2 hn
    · obtain ⟨t, ht, rfl⟩ := List.mem_map.mp hw
      exact (h t ht).2 hc
  have hwords : ∀ w ∈ ts.map String.toList, IsWord w :=
    List.forall_mem_map.mpr fun t ht => (h t ht).1
  rw [read?_append_comment hsign hcomment, words_joinWith hgap hwords, List.map_map]
  exact congrArg some (List.map_id'' (fun _ => String.ofList_toList) _)

theorem read?_of_no_newline {cs : List Char} (h : '\n' ∉ cs) :
    read? cs = some ((words (beforeComment cs)).map String.ofList) := by
  have hafter : afterComment cs = [] := List.dropWhile_eq_nil_iff.mpr fun c hc =>
    ne_of_not_mem h c ((List.dropWhile_sublist _).mem hc)
  rw [read?, hafter]
  rfl

/-! ## Text after a comment -/

/-- After the newline that ends the comment there is something that is not blank. -/
def TextAfterComment (cs : List Char) : Prop :=
  ∃ before comment after, cs = before ++ '#' :: (comment ++ '\n' :: after) ∧
    '#' ∉ before ∧ '\n' ∉ comment ∧ ∃ c ∈ after, isBlank c = false

theorem read?_eq_none_iff_exists {cs : List Char} :
    read? cs = none ↔ ∃ c ∈ afterComment cs, isBlank c = false := by
  simp [read?]

theorem read?_eq_none_iff {cs : List Char} : read? cs = none ↔ TextAfterComment cs := by
  rw [read?_eq_none_iff_exists]
  constructor
  · rintro ⟨c, hc, hblank⟩
    by_cases hsign : '#' ∈ cs
    case neg =>
      rw [← List.append_nil cs, afterComment_append hsign] at hc
      exact absurd hc List.not_mem_nil
    obtain ⟨before, rest, rfl, hbefore⟩ := List.eq_append_cons_of_mem hsign
    rw [afterComment_append hbefore] at hc
    by_cases hline : '\n' ∈ rest
    case neg =>
      rw [afterComment_of_no_newline hline] at hc
      exact absurd hc List.not_mem_nil
    obtain ⟨comment, after, rfl, hcomment⟩ := List.eq_append_cons_of_mem hline
    rw [afterComment_comment hcomment (startsIn_cons rfl after)] at hc
    -- The newline itself is blank.
    rcases List.mem_cons.mp hc with rfl | hafter
    · exact absurd hblank (by decide)
    · exact ⟨before, comment, after, rfl, hbefore, hcomment, c, hafter, hblank⟩
  · rintro ⟨before, comment, after, rfl, hbefore, hcomment, c, hc, hblank⟩
    rw [afterComment_append hbefore, afterComment_comment hcomment (startsIn_cons rfl after)]
    exact ⟨c, List.mem_cons_of_mem _ hc, hblank⟩

end Tokens
end MatrixStack
