/-
Kinds of lines, and line ends.

A line is a declaration, a row or a comment by its first character, and is read as what it is
(`Line.read_of_isRow` and its companions).  Carriage returns at the end of a line do not change its
kind.  In a declaration they are blanks, and a comment may end in anything; a row cannot be read
with a carriage return before its comment, and is the same without one after it.  So a line that can
be read gives the same without its end, and only a row may become readable by losing it
(`Line.read_dropLineEnd_iff`).
-/
import MatrixStack.Program.Growable
import MatrixStack.Proofs.Program.Outcome
import MatrixStack.Proofs.Program.Words
import MatrixStack.Proofs.Text.Lines

namespace MatrixStack

/-! ## Tokens -/

namespace Tokens

theorem words_append_returns (cs : List Char) (n : Nat) :
    words (cs ++ List.replicate n '\r') = words cs := by
  induction n generalizing cs with
  | zero => rw [List.replicate_zero, List.append_nil]
  | succ n ih =>
    have hreturns : words (List.replicate n '\r') = [] := ih []
    rw [List.replicate_succ, words_append_cons (by decide), hreturns, List.append_nil]

theorem beforeComment_append_returns (cs : List Char) (n : Nat) :
    words (beforeComment (cs ++ List.replicate n '\r')) = words (beforeComment cs) := by
  unfold beforeComment
  rw [List.takeWhile_append]
  split
  case isFalse => rfl
  case isTrue hall =>
    have hcs : cs.takeWhile (· ≠ '#') = cs :=
      List.IsPrefix.eq_of_length (List.takeWhile_prefix _) hall
    have hreturns : (List.replicate n '\r').takeWhile (· ≠ '#') = List.replicate n '\r' := by
      rw [List.takeWhile_eq_self_iff]
      intro c hc
      rw [List.eq_of_mem_replicate hc]
      decide
    rw [hcs, hreturns, words_append_returns]

theorem read?_append_returns {cs : List Char} (h : '\n' ∉ cs) (n : Nat) :
    read? (cs ++ List.replicate n '\r') = read? cs := by
  have happend : '\n' ∉ cs ++ List.replicate n '\r' := by
    intro hmem
    rcases List.mem_append.mp hmem with hcs | hreturn
    · exact h hcs
    · exact absurd (List.eq_of_mem_replicate hreturn) (by decide)
  rw [read?_of_no_newline h, read?_of_no_newline happend, beforeComment_append_returns]

end Tokens

variable {conv : Converters}

/-! ## Kinds of lines -/

namespace Line

variable {line : List Char}

/-- The line starts with the letter of a declaration. -/
def isDeclaration (line : List Char) : Bool := line.head? = some 's'

/-- The line starts neither as a comment nor as a declaration; it may be empty. -/
def isRow (line : List Char) : Bool := line.head? ≠ some '#' ∧ line.head? ≠ some 's'

theorem not_isDeclaration_of_isRow (h : isRow line = true) : ¬isDeclaration line = true := by
  intro hdecl
  exact (of_decide_eq_true h).2 (of_decide_eq_true hdecl)

theorem read_of_isRow (h : isRow line = true) : read conv line = (readRow line).map .row := by
  have hhead := of_decide_eq_true h
  unfold read
  split
  case h_1 => exact absurd rfl hhead.1
  case h_2 => exact absurd rfl hhead.2
  case h_3 => rfl

theorem exists_of_isDeclaration (h : isDeclaration line = true) : ∃ rest, line = 's' :: rest :=
  List.head?_eq_some_iff.mp (of_decide_eq_true h)

theorem read_of_isDeclaration (h : isDeclaration line = true) :
    read conv line = (Declaration.read conv line).map .declaration := by
  obtain ⟨rest, rfl⟩ := exists_of_isDeclaration h
  rfl

theorem exists_of_isComment (hrow : ¬isRow line = true) (hdecl : ¬isDeclaration line = true) :
    ∃ rest, line = '#' :: rest := by
  refine List.head?_eq_some_iff.mp ?_
  by_contra hnum
  exact hrow (decide_eq_true ⟨hnum, fun hs => hdecl (decide_eq_true hs)⟩)

theorem read_of_isComment (hrow : ¬isRow line = true) (hdecl : ¬isDeclaration line = true) :
    read conv line = .ok .comment := by
  obtain ⟨rest, rfl⟩ := exists_of_isComment hrow hdecl
  rfl

theorem isRow_of_rowChars {line pre post : List Char} (hrow : isRow line = true)
    (h : rowChars line = pre ++ post) : isRow pre = true ∧ rowChars pre = pre := by
  constructor
  · cases pre with
    | nil => rfl
    | cons c rest =>
      obtain ⟨more, hmore⟩ := List.takeWhile_prefix (l := line) (· ≠ '#')
      have hline : line = c :: (rest ++ post ++ more) := by
        rw [← hmore]
        show rowChars line ++ more = _
        rw [h]
        rfl
      rw [hline] at hrow
      exact hrow
  · refine List.takeWhile_eq_self_iff.mpr fun c hc => ?_
    have hmem : c ∈ line.takeWhile (· ≠ '#') := by
      show c ∈ rowChars line
      rw [h]
      exact List.mem_append_left _ hc
    have hnum := List.mem_takeWhile_imp hmem
    exact hnum

/-! ## Lines without their ends -/

theorem isRow_append_returns (cs : List Char) (n : Nat) :
    isRow (cs ++ List.replicate n '\r') = isRow cs := by
  cases cs with
  | nil => cases n <;> rfl
  | cons c rest => rfl

theorem isDeclaration_append_returns (cs : List Char) (n : Nat) :
    isDeclaration (cs ++ List.replicate n '\r') = isDeclaration cs := by
  cases cs with
  | nil => cases n <;> rfl
  | cons c rest => rfl

/-- The line is no row with a carriage return before its comment. -/
def ReturnFree (line : List Char) : Prop := isRow line = true → '\r' ∉ rowChars line

instance (line : List Char) : Decidable (ReturnFree line) :=
  inferInstanceAs (Decidable (_ → _))

theorem not_mem_rowChars_of_readRow {row : List Instruction} (hrow : readRow line = .ok row) :
    '\r' ∉ rowChars line := by
  intro hmem
  obtain ⟨i, hi⟩ := Outcome.exists_of_mapM_eq_ok hrow hmem
  cases hi

/-- Carriage returns at the end of a line belong to its comment, or the first of them comes right
after the instructions. -/
theorem rowChars_append_returns (cs : List Char) (n : Nat) :
    rowChars (cs ++ List.replicate n '\r') = rowChars cs ∨
      ∃ more, rowChars (cs ++ List.replicate n '\r') = rowChars cs ++ '\r' :: more := by
  unfold rowChars
  rw [List.takeWhile_append]
  split
  case isFalse => exact .inl rfl
  case isTrue hall =>
    rw [List.IsPrefix.eq_of_length (List.takeWhile_prefix _) hall]
    cases n with
    | zero =>
      left
      rw [List.replicate_zero, List.takeWhile_nil, List.append_nil]
    | succ n =>
      right
      rw [List.replicate_succ, List.takeWhile_cons_of_pos (by decide)]
      exact ⟨_, rfl⟩

theorem rowChars_append_returns_of_not_mem {cs : List Char} {n : Nat}
    (h : '\r' ∉ rowChars (cs ++ List.replicate n '\r')) :
    rowChars (cs ++ List.replicate n '\r') = rowChars cs := by
  rcases rowChars_append_returns cs n with heq | ⟨more, heq⟩
  · exact heq
  · rw [heq] at h
    exact absurd (List.mem_append_right _ (List.mem_cons_self ..)) h

theorem readDeclaration_append_returns {cs : List Char} (hdecl : isDeclaration cs = true)
    (h : '\n' ∉ cs) (n : Nat) {d : Declaration} :
    Declaration.read conv (cs ++ List.replicate n '\r') = .ok d ↔
      Declaration.read conv cs = .ok d := by
  obtain ⟨rest, rfl⟩ := exists_of_isDeclaration hdecl
  have hrest : '\n' ∉ rest := fun hmem => h (List.mem_cons_of_mem _ hmem)
  unfold Declaration.read
  rw [List.cons_append, List.tail_cons, List.tail_cons, Tokens.read?_append_returns hrest]
  -- Only the error of a missing pointer shows the line, with its end or without.
  split
  · rfl
  · rfl
  · exact iff_of_false (fun h => nomatch h) fun h => nomatch h

theorem read_append_returns {cs : List Char} (h : '\n' ∉ cs) (n : Nat) {l : Line} :
    read conv (cs ++ List.replicate n '\r') = .ok l ↔
      read conv cs = .ok l ∧ ReturnFree (cs ++ List.replicate n '\r') := by
  have hkind := isRow_append_returns cs n
  by_cases hrow : isRow cs = true
  · have hrow' := hkind.trans hrow
    rw [read_of_isRow hrow, read_of_isRow hrow', Outcome.map_eq_ok_iff, Outcome.map_eq_ok_iff]
    constructor
    · rintro ⟨row, hread, rfl⟩
      have hnot := not_mem_rowChars_of_readRow hread
      rw [readRow, rowChars_append_returns_of_not_mem hnot] at hread
      exact ⟨⟨row, hread, rfl⟩, fun _ => hnot⟩
    · rintro ⟨⟨row, hread, rfl⟩, hfree⟩
      refine ⟨row, ?_, rfl⟩
      rw [readRow, rowChars_append_returns_of_not_mem (hfree hrow')]
      exact hread
  have hrow' : ¬isRow (cs ++ List.replicate n '\r') = true := by rwa [hkind]
  have hfree : ReturnFree (cs ++ List.replicate n '\r') := fun hr => absurd hr hrow'
  rw [and_iff_left hfree]
  have hkind' := isDeclaration_append_returns cs n
  by_cases hdecl : isDeclaration cs = true
  · rw [read_of_isDeclaration hdecl, read_of_isDeclaration (hkind'.trans hdecl),
      Outcome.map_eq_ok_iff, Outcome.map_eq_ok_iff]
    simp only [readDeclaration_append_returns hdecl h n]
  · have hdecl' : ¬isDeclaration (cs ++ List.replicate n '\r') = true := by rwa [hkind']
    rw [read_of_isComment hrow hdecl, read_of_isComment hrow' hdecl']

theorem read_dropLineEnd_iff (h : '\n' ∉ line) {l : Line} :
    read conv line = .ok l ↔ read conv (Text.dropLineEnd line) = .ok l ∧ ReturnFree line := by
  obtain ⟨n, hn⟩ := Text.exists_returns h
  have hread : read conv (Text.dropLineEnd line ++ List.replicate n '\r') = .ok l ↔ _ :=
    read_append_returns (Text.not_mem_dropLineEnd h) n
  rwa [← hn] at hread

end Line

namespace Program

/-- The lines of a text can be read with their ends where they can be read without these and no row
has a carriage return in it, and they give the same. -/
theorem Layout.read_dropLineEnd_iff {lines : List (List Char)} (h : ∀ line ∈ lines, '\n' ∉ line)
    {layout : Layout} : Layout.read conv lines = .ok layout ↔
      Layout.read conv (lines.map Text.dropLineEnd) = .ok layout ∧
        ∀ line ∈ lines, Line.ReturnFree line := by
  have hmapM (ls : List Line) : lines.mapM (Line.read conv) = .ok ls ↔
      (lines.map Text.dropLineEnd).mapM (Line.read conv) = .ok ls ∧
        ∀ line ∈ lines, Line.ReturnFree line := by
    rw [List.mapM_map]
    exact Outcome.mapM_eq_ok_iff_and fun line hline _ => Line.read_dropLineEnd_iff (h line hline)
  simp only [Layout.read, Outcome.bind_eq_ok_iff, hmapM]
  constructor
  · rintro ⟨ls, ⟨hls, hfree⟩, heq⟩
    exact ⟨⟨ls, hls, heq⟩, hfree⟩
  · rintro ⟨⟨ls, hls, heq⟩, hfree⟩
    exact ⟨ls, ⟨hls, hfree⟩, heq⟩

theorem Layout.read_splitLines_iff {text : List Char} {layout : Layout} :
    Layout.read conv (Text.splitLines text) = .ok layout ↔
      Layout.read conv ((Text.splitLines text).map Text.dropLineEnd) = .ok layout ∧
        ∀ line ∈ Text.splitLines text, Line.ReturnFree line :=
  Layout.read_dropLineEnd_iff fun _ hline => Text.not_mem_of_mem_splitLines hline

end Program
end MatrixStack
