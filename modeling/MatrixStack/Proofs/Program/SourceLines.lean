/-
The lines of a program text, sorted by their kind.

A line that starts with `s` is a declaration, one that starts with a number sign is a comment, and
every other line is a row, the empty line included.  To read the lines is to read the rows and the
declarations, each kind in its own order (`Layout.read_eq_ok_iff`), and the rows alone decide the
size of the grid (`extent_gridOf_of_read`).
-/
import MatrixStack.Proofs.Program.Loaded

namespace MatrixStack

variable {conv : Converters} {line : List Char} {lines : List (List Char)}

/-! ## Reading kind by kind -/

namespace Program

theorem Layout.read_cons_eq_ok_iff {layout : Layout} :
    Layout.read conv (line :: lines) = .ok layout ↔
      ∃ l tail, Line.read conv line = .ok l ∧ Layout.read conv lines = .ok tail ∧
        layout = ⟨l.row?.toList ++ tail.rows, l.declaration?.toList ++ tail.declarations⟩ := by
  constructor
  · intro h
    obtain ⟨ls, hls, hlayout⟩ := Outcome.bind_eq_ok_iff.mp h
    obtain ⟨l, ls, hl, hrest, rfl⟩ := Outcome.mapM_cons_eq_ok_iff.mp hls
    cases hlayout
    refine ⟨l, _, hl, Outcome.bind_eq_ok_iff.mpr ⟨ls, hrest, rfl⟩, ?_⟩
    cases l <;> rfl
  · rintro ⟨l, tail, hl, htail, rfl⟩
    obtain ⟨ls, hls, hlayout⟩ := Outcome.bind_eq_ok_iff.mp htail
    cases hlayout
    have hcons := Outcome.mapM_cons_eq_ok_iff.mpr ⟨l, ls, hl, hls, rfl⟩
    refine Outcome.bind_eq_ok_iff.mpr ⟨l :: ls, hcons, ?_⟩
    cases l <;> rfl

theorem Layout.read_eq_ok_iff {layout : Layout} :
    Layout.read conv lines = .ok layout ↔
      (lines.filter Line.isRow).mapM Line.readRow = .ok layout.rows ∧
      (lines.filter Line.isDeclaration).mapM (Declaration.read conv) = .ok layout.declarations := by
  -- By the kind of the first line: at most one of the two selections has it.
  induction lines generalizing layout with
  | nil =>
    obtain ⟨rows, ds⟩ := layout
    constructor
    · intro h
      cases h
      exact ⟨rfl, rfl⟩
    · rintro ⟨hrows, hds⟩
      cases hrows
      cases hds
      rfl
  | cons line rest ih =>
    obtain ⟨rows, ds⟩ := layout
    rw [Layout.read_cons_eq_ok_iff]
    by_cases hrow : Line.isRow line = true
    · rw [List.filter_cons_of_pos hrow,
        List.filter_cons_of_neg (Line.not_isDeclaration_of_isRow hrow), Line.read_of_isRow hrow,
        Outcome.mapM_cons_eq_ok_iff]
      constructor
      · rintro ⟨_, tail, hl, htail, heq⟩
        obtain ⟨row, hread, rfl⟩ := Outcome.map_eq_ok_iff.mp hl
        cases heq
        exact ⟨⟨row, tail.rows, hread, (ih.mp htail).1, rfl⟩, (ih.mp htail).2⟩
      · rintro ⟨⟨row, rows', hread, hrows, rfl⟩, hds⟩
        exact ⟨.row row, ⟨rows', ds⟩, Outcome.map_eq_ok_iff.mpr ⟨row, hread, rfl⟩,
          ih.mpr ⟨hrows, hds⟩, rfl⟩
    rw [List.filter_cons_of_neg hrow]
    by_cases hdecl : Line.isDeclaration line = true
    · rw [List.filter_cons_of_pos hdecl, Line.read_of_isDeclaration hdecl,
        Outcome.mapM_cons_eq_ok_iff]
      constructor
      · rintro ⟨_, tail, hl, htail, heq⟩
        obtain ⟨d, hread, rfl⟩ := Outcome.map_eq_ok_iff.mp hl
        cases heq
        exact ⟨(ih.mp htail).1, d, tail.declarations, hread, (ih.mp htail).2, rfl⟩
      · rintro ⟨hrows, d, ds', hread, hds, rfl⟩
        exact ⟨.declaration d, ⟨rows, ds'⟩, Outcome.map_eq_ok_iff.mpr ⟨d, hread, rfl⟩,
          ih.mpr ⟨hrows, hds⟩, rfl⟩
    · rw [List.filter_cons_of_neg hdecl, Line.read_of_isComment hrow hdecl]
      constructor
      · rintro ⟨_, tail, hl, htail, heq⟩
        cases hl
        cases heq
        exact ih.mp htail
      · intro h
        exact ⟨.comment, ⟨rows, ds⟩, rfl, ih.mpr h, rfl⟩

/-! ## The rows of a text -/

/-- The rows among the lines, each up to its first number sign. -/
def rowsOf (lines : List (List Char)) : List (List Char) :=
  (lines.filter Line.isRow).map Line.rowChars

/-- As wide as the longest row, and with a line for every row. -/
def extentOf {α : Type} (rows : List (List α)) : Extent :=
  ⟨((rows.map List.length).max?.getD 0 : Nat), rows.length⟩

theorem mapM_rowsOf {layout : Layout} (h : Layout.read conv lines = .ok layout) :
    (rowsOf lines).mapM (fun row => row.mapM Line.readInstruction) = .ok layout.rows := by
  rw [rowsOf, List.mapM_map]
  exact (Layout.read_eq_ok_iff.mp h).1

theorem longest_eq {α : Type} (rows : List (List α)) :
    RowPlane.longest rows = (rows.map List.length).max?.getD 0 := by
  have hfold : RowPlane.longest rows = (rows.map List.length).foldl max 0 :=
    List.foldl_map.symm
  rw [hfold]
  cases rows.map List.length with
  | nil => rfl
  | cons n ns =>
    show ns.foldl max (max 0 n) = ns.foldl max n
    rw [Nat.zero_max]

theorem extent_gridOf (rows : List (List Instruction)) : (gridOf rows).extent = extentOf rows := by
  show (RowPlane.padded _ blankCell).extent = _
  rw [RowPlane.extent_padded, longest_eq, List.length_map, List.map_map]
  simp only [Function.comp_def, List.length_map]
  rfl

theorem extentOf_congr {α β : Type} {rows : List (List α)} {rows' : List (List β)}
    (h : rows.map List.length = rows'.map List.length) : extentOf rows = extentOf rows' := by
  have hlen : rows.length = rows'.length := by
    have := congrArg List.length h
    rwa [List.length_map, List.length_map] at this
  rw [extentOf, extentOf, h, hlen]

theorem rowsFit_extentOf (rows : List (List Instruction)) : RowsFit (extentOf rows) rows := by
  rw [rowsFit_iff]
  intro y row hrow _
  have hlen := List.mem_map_of_mem (f := List.length) (List.mem_of_getElem? hrow)
  have hmax : row.length ≤ (rows.map List.length).max?.getD 0 := List.le_max?_getD_of_mem hlen
  have hy := (List.getElem?_eq_some_iff.mp hrow).1
  simp only [extentOf]
  omega

theorem length_eq_of_mapM {rows : List (List Char)} {rows' : List (List Instruction)}
    (h : rows.mapM (fun row => row.mapM Line.readInstruction) = .ok rows') :
    rows'.map List.length = rows.map List.length := by
  rw [Outcome.mapM_eq_ok_iff] at h
  induction h with
  | nil => rfl
  | cons hrow _ ih =>
    rw [List.map_cons, List.map_cons, ih, (Outcome.mapM_eq_ok_iff.mp hrow).length_eq]

theorem extent_gridOf_of_read {layout : Layout} (h : Layout.read conv lines = .ok layout) :
    (gridOf layout.rows).extent = extentOf (rowsOf lines) := by
  rw [extent_gridOf]
  exact extentOf_congr (length_eq_of_mapM (mapM_rowsOf h))

/-! ## The lines that a text is loaded from -/

/-- The lines of a text without the carriage returns at their ends. -/
def sourceLines (source : String) : List (List Char) :=
  (Text.splitLines source.toList).map (Text.trimEndWhere (· = '\r'))

theorem dropWhile_lineEnd_eq {cs : List Char} (h : '\n' ∉ cs) :
    cs.dropWhile (fun c => c = '\r' ∨ c = '\n') = cs.dropWhile (· = '\r') := by
  induction cs with
  | nil => rfl
  | cons c rest ih =>
    have hc : c ≠ '\n' := fun e => h (e ▸ List.mem_cons_self ..)
    have hrest := ih fun hmem => h (List.mem_cons_of_mem c hmem)
    simp only [List.dropWhile_cons, hc, or_false, hrest]

theorem dropLineEnd_eq (h : '\n' ∉ line) :
    Text.dropLineEnd line = Text.trimEndWhere (· = '\r') line := by
  rw [Text.dropLineEnd, Text.trimEndWhere, dropWhile_lineEnd_eq (mt List.mem_reverse.mp h)]
  rfl

theorem not_mem_of_mem_sourceLines (source : String) :
    ∀ line ∈ sourceLines source, '\n' ∉ line := by
  intro line hline
  obtain ⟨whole, hwhole, rfl⟩ := List.mem_map.mp hline
  intro hmem
  refine Text.not_mem_of_mem_splitLines hwhole (List.mem_reverse.mp ?_)
  exact (List.dropWhile_sublist _).mem (List.mem_reverse.mp hmem)

theorem load_eq (conv : Converters) (type : NumberType) (source : String) :
    load conv type source = Layout.read conv (sourceLines source) >>= ofLayout type := by
  have hlines : sourceLines source = (Text.splitLines source.toList).map Text.dropLineEnd := by
    refine List.map_congr_left fun line hline => ?_
    exact (dropLineEnd_eq (Text.not_mem_of_mem_splitLines hline)).symm
  rw [hlines]
  rfl

/-- Where no line ends in a carriage return, the lines are loaded as they are. -/
theorem load_of_no_return {type : NumberType} {source : String}
    (h : ∀ line ∈ Text.splitLines source.toList, line.getLast? ≠ some '\r') :
    load conv type source =
      Layout.read conv (Text.splitLines source.toList) >>= ofLayout type := by
  have hlines : (Text.splitLines source.toList).map Text.dropLineEnd =
      Text.splitLines source.toList := by
    refine Eq.trans (List.map_congr_left fun line hline => ?_) (List.map_id _)
    exact Text.dropLineEnd_of_getLast? (Text.not_mem_of_mem_splitLines hline) (h line hline)
  rw [load, ofLines, hlines]

end Program
end MatrixStack
