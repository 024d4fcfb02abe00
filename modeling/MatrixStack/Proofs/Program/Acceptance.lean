/-
Which texts can be built on a grid of fixed size.

`Accommodates` tells the lines that a grid has room for: all of them can be read, the rows that are
not empty lie within the grid, and so do the blocks of the declared stacks.  Empty rows may go on
below the last line of the grid.  The builder takes exactly these texts (`exists_build_iff`), and
where it refuses one for its size, it is for the first instruction outside the grid
(`build_eq_outOfRange_iff`).
-/
import MatrixStack.Proofs.Program.Rejections
import MatrixStack.Proofs.Stack.Likeness

namespace MatrixStack

open Outcome

namespace Program

variable {conv : Converters} {t type : NumberType} {e extent : Extent} {f : Frame} {m : Machine}
  {lines : List (List Char)} {source : String} {layout : Layout}

/-- Every line can be read, and the grid has room for the rows and a stack for every declaration. -/
structure Accommodates (conv : Converters) (e : Extent) (lines : List (List Char)) : Prop where
  reads : ∀ line ∈ lines, ∃ l, Line.read conv line = .ok l
  rows : RowsWithin e (rowsOf lines)
  blocks : ∀ line ∈ lines, ∀ d, Line.read conv line = .ok (.declaration d) →
    e.blocks.contains d.block = true

/-! ## Layouts -/

theorem rowsFit_iff_of_read (h : Layout.read conv lines = .ok layout) :
    RowsFit e layout.rows ↔ RowsWithin e (rowsOf lines) := by
  rw [rowsFit_iff, rowsWithin_iff_lengths, rowsWithin_iff_lengths,
    length_eq_of_mapM (mapM_rowsOf h)]

theorem mem_declarations_iff_of_read (h : Layout.read conv lines = .ok layout) {d : Declaration} :
    d ∈ layout.declarations ↔ ∃ line ∈ lines, Line.read conv line = .ok (.declaration d) := by
  obtain ⟨ls, hls, heq⟩ := bind_eq_ok_iff.mp h
  cases heq
  rw [List.mem_filterMap]
  constructor
  · rintro ⟨l, hl, hd⟩
    cases l with
    | comment => cases hd
    | row instructions => cases hd
    | declaration d' =>
      cases hd
      exact exists_mem_of_mapM_eq_ok hls hl
  · rintro ⟨line, hline, hread⟩
    exact ⟨.declaration d, mem_of_mapM_eq_ok hls hline hread, rfl⟩

theorem accommodates_iff : Accommodates conv e lines ↔
    ∃ layout, Layout.read conv lines = .ok layout ∧ RowsFit e layout.rows ∧
      ∀ d ∈ layout.declarations, e.blocks.contains d.block = true := by
  constructor
  · rintro ⟨hreads, hrows, hblocks⟩
    obtain ⟨ls, hls⟩ := exists_mapM_eq_ok hreads
    have hread : Layout.read conv lines =
        .ok ⟨ls.filterMap Line.row?, ls.filterMap Line.declaration?⟩ :=
      bind_eq_ok_iff.mpr ⟨ls, hls, rfl⟩
    refine ⟨_, hread, (rowsFit_iff_of_read hread).mpr hrows, fun d hd => ?_⟩
    obtain ⟨line, hline, hd⟩ := (mem_declarations_iff_of_read hread).mp hd
    exact hblocks line hline d hd
  · rintro ⟨layout, hread, hrows, hblocks⟩
    obtain ⟨ls, hls, -⟩ := bind_eq_ok_iff.mp hread
    refine ⟨fun line hline => exists_of_mapM_eq_ok hls hline, ?_, fun line hline d hd => ?_⟩
    · exact (rowsFit_iff_of_read hread).mp hrows
    · exact hblocks d ((mem_declarations_iff_of_read hread).mpr ⟨line, hline, hd⟩)

theorem exists_build_iff (hw : 0 ≤ f.extent.width) (hh : 0 ≤ f.extent.height)
    (hcapacity : 1 ≤ f.capacity) : (∃ m, build conv type f source = .ok m) ↔
      Accommodates conv f.extent (Text.splitLines source.toList) := by
  rw [accommodates_iff]
  constructor
  · rintro ⟨m, hm⟩
    obtain ⟨layout, hread, hfits, -⟩ := laidOut_of_build hm
    exact ⟨layout, hread, hfits.rows, hfits.blocks⟩
  · rintro ⟨layout, hread, hrows, hblocks⟩
    exact exists_build hread ⟨hw, hh, fun _ => hcapacity, hrows, hblocks⟩

theorem startsWith_of_build (hm : build conv type f source = .ok m) (hcapacity : 1 ≤ f.capacity) :
    ∃ layout, Layout.read conv (Text.splitLines source.toList) = .ok layout ∧
      StartsWith layout f.extent (fun values => values.drop (values.length - f.capacity.toNat))
        type m := by
  obtain ⟨layout, hread, -, hlaid, hextent⟩ := laidOut_of_build hm
  refine ⟨layout, hread, hlaid.startsWith hextent fun b _ => ?_⟩
  exact Stack.items_pushAll_ring (by omega) _

/-! ## Errors of size -/

theorem no_error_iff_accommodates (hw : 0 ≤ extent.width) (hh : 0 ≤ extent.height)
    (hlines : ∀ line ∈ lines, '\n' ∉ line) :
    (∀ e, ¬FirstError (OffenceAfter t (some extent)) lines e) ↔
      Accommodates (.ofType t) extent lines := by
  obtain ⟨s, hs⟩ := exists_site (f := ⟨extent, 1⟩) hw hh fun _ => Int.le_refl 1
  obtain ⟨hblank, hrings⟩ := site_eq_ok hs
  have huniform := (uniform_emptyRings hrings).1
  have hfold (e : LoadError) : lines.foldlM (Site.place (.ofType t)) s = .error e ↔
      FirstError (OffenceAfter t (some extent)) lines e :=
    (at_of_site hs).foldlM_place_eq_error_iff hlines
  simp only [← hfold]
  show (∀ e, _ ≠ _) ↔ _
  rw [← exists_ok_iff, exists_foldlM_place_iff hblank, accommodates_iff]
  simp only [huniform.isSome_iff]

/-- The first thing in the text that the grid has no room for is the instruction of a character in
a row, and the text before it can be built.  The column is counted from one. -/
def FirstMisfit (conv : Converters) (e : Extent) (lines : List (List Char)) (p : Pointer)
    (c : Char) : Prop :=
  ∃ before line after pre post, lines = before ++ line :: after ∧
    Line.isRow line = true ∧ Line.rowChars line = pre ++ c :: post ∧
    Accommodates conv e (before ++ [pre]) ∧ (∃ i, Instruction.ofChar? c = some i) ∧
    e.contains ⟨pre.length, (rowsOf before).length⟩ = false ∧
    p = ⟨pre.length + 1, (rowsOf before).length⟩

theorem lineOffence_outOfRange_iff {size : Option Extent} {y : Nat} {line : List Char} {p : Pointer}
    {c : Char} : LineOffence t size y line (.instructionOutOfRange p c) ↔
      Line.isRow line = true ∧ FirstError (fun before c => CharOffence size y before.length c)
        (Line.rowChars line) (.instructionOutOfRange p c) := by
  constructor
  · intro h
    cases h with
    | row hrow h => exact ⟨hrow, h⟩
    | declaration _ h =>
      cases h with
      | value _ _ _ h =>
        obtain ⟨_, _, -, -, h⟩ := h.exists
        cases h
    | stack _ h =>
      obtain ⟨_, -, -, h⟩ := h
      cases h
  · rintro ⟨hrow, h⟩
    exact .row hrow h

theorem not_mem_of_mem_before {text line pre post : List Char} {before after : List (List Char)}
    (hlines : Text.splitLines text = before ++ line :: after)
    (hchars : Line.rowChars line = pre ++ post) : ∀ l ∈ before ++ [pre], '\n' ∉ l := by
  have hnewline : ∀ l ∈ before ++ line :: after, '\n' ∉ l := fun l hl =>
    Text.not_mem_of_mem_splitLines (hlines ▸ hl)
  intro l hl hmem
  rcases List.mem_append.mp hl with hl | hl
  · exact hnewline l (List.mem_append_left _ hl) hmem
  · rw [List.mem_singleton.mp hl] at hmem
    refine hnewline line (List.mem_append_right _ (List.mem_cons_self ..)) ?_
    refine (List.takeWhile_sublist (· ≠ '#')).mem ?_
    show '\n' ∈ Line.rowChars line
    rw [hchars]
    exact List.mem_append_left _ hmem

/-- The text before a place in a row can be built if nothing is wrong with the lines before the row
and with the characters before the place. -/
theorem accommodates_before_iff (hw : 0 ≤ extent.width) (hh : 0 ≤ extent.height)
    {text line pre post : List Char} {before after : List (List Char)}
    (hlines : Text.splitLines text = before ++ line :: after) (hrow : Line.isRow line = true)
    (hchars : Line.rowChars line = pre ++ post) :
    Accommodates (.ofType t) extent (before ++ [pre]) ↔
      (∀ e, ¬FirstError (OffenceAfter t (some extent)) before e) ∧
      ∀ e, ¬FirstError (fun done c => CharOffence (some extent) (rowsOf before).length done.length c)
        pre e := by
  -- The characters before the place make a row of their own, without a comment.
  obtain ⟨hrow', hchars'⟩ := Line.isRow_of_rowChars hrow hchars
  have hpre (e : LoadError) : OffenceAfter t (some extent) before pre e ↔
      FirstError (fun done c => CharOffence (some extent) (rowsOf before).length done.length c)
        pre e := by
    rw [OffenceAfter, lineOffence_iff_of_isRow hrow', hchars']
  rw [← no_error_iff_accommodates hw hh (not_mem_of_mem_before hlines hchars)]
  simp only [firstError_concat_iff, hpre, not_or, not_and, forall_and]
  exact and_congr_right fun hnone => forall_congr' fun _ => ⟨fun h => h hnone, fun h _ => h⟩

theorem build_eq_outOfRange_iff (hw : 0 ≤ f.extent.width) (hh : 0 ≤ f.extent.height)
    (hcapacity : 1 ≤ f.capacity) {p : Pointer} {c : Char} :
    build (.ofType t) type f source = .error (.instructionOutOfRange p c) ↔
      FirstMisfit (.ofType t) f.extent (Text.splitLines source.toList) p c := by
  rw [build_eq_error_iff hw hh hcapacity, firstError_iff_exists]
  constructor
  · rintro ⟨before, line, after, hlines, hoffence, hnone⟩
    obtain ⟨hrow, hfirst⟩ := lineOffence_outOfRange_iff.mp hoffence
    obtain ⟨pre, c', post, hchars, hchar, hpre⟩ := firstError_iff_exists.mp hfirst
    have hbefore := (accommodates_before_iff hw hh hlines hrow hchars).mpr ⟨hnone, hpre⟩
    cases hchar with
    | outOfRange hsize hi hout =>
      cases hsize
      exact ⟨before, line, after, pre, post, hlines, hrow, hchars, hbefore, ⟨_, hi⟩, hout, rfl⟩
  · rintro ⟨before, line, after, pre, post, hlines, hrow, hchars, hbefore, ⟨i, hi⟩, hout, rfl⟩
    obtain ⟨hnone, hpre⟩ := (accommodates_before_iff hw hh hlines hrow hchars).mp hbefore
    refine ⟨before, line, after, hlines, lineOffence_outOfRange_iff.mpr ⟨hrow, ?_⟩, hnone⟩
    exact firstError_iff_exists.mpr ⟨pre, c, post, hchars, .outOfRange rfl hi hout, hpre⟩

/-! ## Accepted texts -/

/-- The builder takes a text exactly where the grid accommodates it, whatever the order of its
lines, and makes of it what its rows and declarations say.  Where it refuses one for its size, it
names the first instruction outside the grid.  The lines are those that the growable loader reads,
unless one of them has a carriage return left at its end. -/
theorem accepts_what_fits (t : NumberType) (source : String) (f : Frame)
    (hw : 0 ≤ f.extent.width) (hh : 0 ≤ f.extent.height) (hcapacity : 1 ≤ f.capacity) :
    let lines := Text.splitLines source.toList
    ((∃ m, build (.ofType t) t f source = .ok m) ↔ Accommodates (.ofType t) f.extent lines) ∧
    (∀ m, build (.ofType t) t f source = .ok m →
      ∃ layout, Layout.read (.ofType t) lines = .ok layout ∧
        StartsWith layout f.extent (fun values => values.drop (values.length - f.capacity.toNat))
          t m) ∧
    (∀ p c, build (.ofType t) t f source = .error (.instructionOutOfRange p c) ↔
      FirstMisfit (.ofType t) f.extent lines p c) ∧
    ((∀ line ∈ lines, line.getLast? ≠ some '\r') →
      load (.ofType t) t source = Layout.read (.ofType t) lines >>= ofLayout t) := by
  refine ⟨exists_build_iff hw hh hcapacity, fun m hm => ?_, fun p c => ?_, load_of_no_return⟩
  · exact startsWith_of_build hm hcapacity
  · exact build_eq_outOfRange_iff hw hh hcapacity

theorem accepts_what_fits_with_blank_row_below :
    let byte := NumberType.signed .bits8
    let source := "s 0 0 1 2 3\n.p # note\n\n"
    let f : Frame := ⟨⟨3, 1⟩, 2⟩
    0 ≤ f.extent.width ∧ 0 ≤ f.extent.height ∧ 1 ≤ f.capacity ∧
      (∃ m layout, build (.ofType byte) byte f source = .ok m ∧
        StartsWith layout f.extent (fun values => values.drop (values.length - 2)) byte m) ∧
      Accommodates (.ofType byte) f.extent (Text.splitLines source.toList) ∧
      FirstMisfit (.ofType byte) ⟨2, 1⟩ (Text.splitLines source.toList) ⟨3, 0⟩ ' ' := by
  intro byte source f
  have hw : 0 ≤ f.extent.width := by decide
  have hh : 0 ≤ f.extent.height := by decide
  have hcapacity : 1 ≤ f.capacity := by decide
  have hbuild : (build (.ofType byte) byte f source).isOk = true := by decide
  obtain ⟨m, hm⟩ := exists_of_isOk hbuild
  obtain ⟨haccepts, hcontents, -, -⟩ := accepts_what_fits byte source f hw hh hcapacity
  obtain ⟨layout, -, hlayout⟩ := hcontents m hm
  -- One column less, and the blank before the comment is refused.
  obtain ⟨-, -, hrefuses, -⟩ := accepts_what_fits byte source ⟨⟨2, 1⟩, 2⟩ (by decide) hh hcapacity
  have hrefused : build (.ofType byte) byte ⟨⟨2, 1⟩, 2⟩ source =
      .error (.instructionOutOfRange ⟨3, 0⟩ ' ') := by decide
  exact ⟨hw, hh, hcapacity, ⟨m, layout, hm, hlayout⟩, haccepts.mp ⟨m, hm⟩,
    (hrefuses ⟨3, 0⟩ ' ').mp hrefused⟩

end Program
end MatrixStack
