/-
Which texts are rejected, and with which error.

A loader ends in the error of the first line that is wrong (`Layout.read_eq_error_iff`,
`build_eq_error_iff`).  On a grid of fixed size the stack of a declaration is looked for at once; on
a grid that grows only after the last line, so that the error of a stack comes after the errors of
all lines (`load_eq_error_iff`).
-/
import MatrixStack.Proofs.Program.Offences

namespace MatrixStack

open Outcome

namespace Program

variable {conv : Converters} {t type : NumberType} {line : List Char} {lines : List (List Char)}
  {e : LoadError} {extent blocks : Extent}

/-! ## Declared stacks -/

/-- There is a stack for every block of the extent, and no other. -/
structure Covers (plane : StackPlane) (blocks : Extent) : Prop where
  extent : plane.extent = blocks
  isSome_iff : ∀ b, (plane.get? b).join.isSome ↔ blocks.contains b = true

theorem Uniform.covers {plane : StackPlane} {s : Stack Number} (h : Uniform plane blocks s) :
    Covers plane blocks where
  extent := h.extent
  isSome_iff := h.isSome_iff

theorem Covers.declare {before after : StackPlane} (h : Covers before blocks) {d : Declaration}
    (hd : declare before d = .ok after) : Covers after blocks where
  extent := (declare_eq_ok hd).1.trans h.extent
  isSome_iff b := by
    rw [(declare_eq_ok hd).2, Option.isSome_map]
    exact h.isSome_iff b

theorem Covers.declare_eq_error_iff {plane : StackPlane} (h : Covers plane blocks)
    {d : Declaration} : Program.declare plane d = .error e ↔
      blocks.contains d.block = false ∧ e = .stackOutOfRange d.block := by
  have hblock := h.isSome_iff d.block
  unfold Program.declare
  cases hs : (plane.get? d.block).join with
  | none =>
    rw [hs] at hblock
    have hout : blocks.contains d.block = false :=
      Bool.eq_false_iff.mpr fun hc => nomatch hblock.mpr hc
    simp [hout, eq_comm]
  | some s =>
    rw [hs] at hblock
    simp [hblock.mp rfl]

theorem Covers.foldlM_declare_eq_error_iff {plane : StackPlane} (h : Covers plane blocks)
    {ds : List Declaration} : ds.foldlM Program.declare plane = .error e ↔
      FirstError (fun _ d e => blocks.contains d.block = false ∧ e = .stackOutOfRange d.block)
        ds e := by
  refine foldlM_eq_error_iff (fun _ plane => Covers plane blocks) ?_ ?_ h
  · exact fun _ _ h _ _ _ => h.declare_eq_error_iff
  · exact fun _ _ h _ _ _ hd => h.declare hd

/-! ## Rows -/

theorem extent_of_placeRow {grid grid' : Plane Cell} {y x : Nat} {cs : List Char}
    (h : Site.placeRow grid y x cs = .ok grid') : grid'.extent = grid.extent := by
  induction cs generalizing grid x with
  | nil =>
    cases h
    rfl
  | cons c rest ih =>
    rw [Site.placeRow] at h
    split at h
    case h_1 => cases h
    case h_2 =>
      split at h
      case h_1 => cases h
      case h_2 mid hset => exact (ih h).trans (Plane.extent_of_set? hset)

theorem placeRow_eq_error_iff {grid : Plane Cell} (hext : grid.extent = extent) {y x : Nat}
    {cs : List Char} : Site.placeRow grid y x cs = .error e ↔
      FirstError (fun before c => CharOffence (some extent) y (x + before.length) c) cs e := by
  -- The first character decides, unless it can be written; then the rest goes one column further.
  induction cs generalizing grid x with
  | nil => exact iff_of_false (fun h => nomatch h) not_firstError_nil
  | cons c rest ih =>
    have hset? (i : Instruction) := Plane.set?_isSome_iff (p := grid) (q := ⟨x, y⟩)
      (a := .instruction i)
    rw [hext] at hset?
    rw [Site.placeRow, Line.readInstruction]
    cases hc : Instruction.ofChar? c with
    | none =>
      rw [firstError_cons_of_wrong fun e => charOffence_of_unknown hc]
      simp [eq_comm]
    | some i =>
      simp only
      cases hset : grid.set? ⟨x, y⟩ (.instruction i) with
      | none =>
        have hout : extent.contains ⟨x, y⟩ = false := by
          simpa [hset] using hset? i
        have hwrong (e : LoadError) : CharOffence (some extent) y x c e ↔
            e = .instructionOutOfRange ⟨x + 1, y⟩ c := by
          rw [charOffence_of_known hc]
          simp [hout]
        rw [firstError_cons_of_wrong hwrong, Instruction.char_of_ofChar? hc]
        simp [eq_comm]
      | some mid =>
        have hin : extent.contains ⟨x, y⟩ = true := by
          simpa [hset] using hset? i
        have hright (e : LoadError) : ¬CharOffence (some extent) y x c e := by
          rw [charOffence_of_known hc]
          simp [hin]
        rw [firstError_cons_of_right hright]
        simp only [ih ((Plane.extent_of_set? hset).trans hext), List.length_cons,
          Nat.add_assoc, Nat.add_comm 1]

/-! ## Sites -/

theorem length_rowsOf_of_isRow (before : List (List Char)) (h : Line.isRow line = true) :
    (rowsOf (before ++ [line])).length = (rowsOf before).length + 1 := by
  simp [rowsOf, h]

theorem length_rowsOf_of_not_isRow (before : List (List Char)) (h : ¬Line.isRow line = true) :
    (rowsOf (before ++ [line])).length = (rowsOf before).length := by
  simp [rowsOf, h]

namespace Site

variable {before : List (List Char)} {s s' : Site}

/-- The site is of the given extent, and its next row goes below those of the lines before. -/
structure At (extent : Extent) (before : List (List Char)) (s : Site) : Prop where
  grid : s.grid.extent = extent
  y : s.y = (rowsOf before).length
  covers : Covers s.stackPlane extent.blocks

theorem At.place (h : s.At extent before) (hplace : s.place conv line = .ok s') :
    s'.At extent (before ++ [line]) := by
  by_cases hrow : Line.isRow line = true
  · rw [place_of_isRow hrow] at hplace
    obtain ⟨grid, hgrid, rfl⟩ := map_eq_ok_iff.mp hplace
    refine ⟨(extent_of_placeRow hgrid).trans h.grid, ?_, h.covers⟩
    rw [length_rowsOf_of_isRow before hrow, ← h.y]
  by_cases hdecl : Line.isDeclaration line = true
  · rw [place_of_isDeclaration hdecl] at hplace
    obtain ⟨d, -, hrest⟩ := bind_eq_ok_iff.mp hplace
    obtain ⟨plane, hd, rfl⟩ := map_eq_ok_iff.mp hrest
    refine ⟨h.grid, ?_, h.covers.declare hd⟩
    rw [length_rowsOf_of_not_isRow before hrow]
    exact h.y
  · rw [place_of_isComment hrow hdecl] at hplace
    cases hplace
    refine ⟨h.grid, ?_, h.covers⟩
    rw [length_rowsOf_of_not_isRow before hrow]
    exact h.y

theorem At.place_eq_error_iff (h : s.At extent before) (hline : '\n' ∉ line) :
    s.place (.ofType t) line = .error e ↔
      OffenceAfter t (some extent) before line e := by
  rw [OffenceAfter, ← h.y]
  by_cases hrow : Line.isRow line = true
  · rw [place_of_isRow hrow, map_eq_error_iff, placeRow_eq_error_iff h.grid,
      lineOffence_iff_of_isRow hrow]
    simp only [Nat.zero_add]
  by_cases hdecl : Line.isDeclaration line = true
  · rw [place_of_isDeclaration hdecl, bind_eq_error_iff, Declaration.read_eq_error_iff hline,
      lineOffence_iff_of_isDeclaration hdecl]
    simp only [map_eq_error_iff, h.covers.declare_eq_error_iff, stackOffence_iff hline, hdecl,
      Option.some.injEq, exists_eq_left', true_and]
  · rw [place_of_isComment hrow hdecl]
    exact iff_of_false (fun h => nomatch h) (not_lineOffence_of_isComment hrow hdecl)

theorem At.foldlM_place_eq_error_iff (h : s.At extent []) (hlines : ∀ line ∈ lines, '\n' ∉ line) :
    lines.foldlM (Site.place (.ofType t)) s = .error e ↔
      FirstError (OffenceAfter t (some extent)) lines e := by
  refine foldlM_eq_error_iff (Site.At extent) (fun before s h line hline e => ?_) ?_ h
  · exact h.place_eq_error_iff (hlines line hline)
  · exact fun _ _ h _ _ _ hplace => h.place hplace

end Site

theorem at_of_site {f : Frame} {s : Site} (h : f.site = .ok s) : s.At f.extent [] := by
  obtain ⟨hblank, hrings⟩ := site_eq_ok h
  exact ⟨hblank.grid.extent, hblank.y, (uniform_emptyRings hrings).1.covers⟩

/-- A machine of a size that exists is refused in the error of the first wrong line. -/
theorem build_eq_error_iff {f : Frame} {source : String} (hw : 0 ≤ f.extent.width)
    (hh : 0 ≤ f.extent.height) (hcapacity : 1 ≤ f.capacity) :
    build (.ofType t) type f source = .error e ↔
      FirstError (OffenceAfter t (some f.extent)) (Text.splitLines source.toList) e := by
  obtain ⟨s, hs⟩ := exists_site hw hh fun _ => hcapacity
  have hat := at_of_site hs
  rw [← hat.foldlM_place_eq_error_iff fun line hline => Text.not_mem_of_mem_splitLines hline,
    build, hs, ok_bind, bind_eq_error_iff]
  -- The plane of stacks has kept the size that the grid asks for, so assembling cannot fail.
  refine or_iff_left ?_
  rintro ⟨done, hdone, h⟩
  have hlast : done.At f.extent ([] ++ Text.splitLines source.toList) :=
    good_of_foldlM (Site.At f.extent) (fun _ _ h _ _ _ hplace => h.place hplace) hat hdone
  rw [assemble_eq_ok (hlast.covers.extent.trans (congrArg Extent.blocks hlast.grid.symm))] at h
  cases h

/-! ## Texts for a grid that grows -/

theorem Layout.read_eq_error_iff (hlines : ∀ line ∈ lines, '\n' ∉ line) :
    Layout.read (.ofType t) lines = .error e ↔
      FirstError (OffenceAfter t none) lines e := by
  have hmapM : Layout.read (.ofType t) lines = .error e ↔
      lines.mapM (Line.read (.ofType t)) = .error e := by
    rw [Layout.read, bind_eq_error_iff]
    refine or_iff_left ?_
    rintro ⟨ls, -, h⟩
    cases h
  rw [hmapM, mapM_eq_error_iff]
  exact FirstError.congr fun _ line hline _ => Line.read_eq_error_iff (hlines line hline)

theorem Layout.exists_read_iff (hlines : ∀ line ∈ lines, '\n' ∉ line) :
    (∃ layout, Layout.read (.ofType t) lines = .ok layout) ↔ ∀ line ∈ lines, ¬Line.Bad t line := by
  constructor
  · rintro ⟨layout, hread⟩ line hline hbad
    obtain ⟨ls, hls, -⟩ := bind_eq_ok_iff.mp hread
    obtain ⟨e, he⟩ := (Line.bad_iff (hlines line hline)).mp hbad
    exact exists_ok_iff.mp (exists_of_mapM_eq_ok hls hline) e he
  · intro hgood
    have hread : ∀ line ∈ lines, ∃ l, Line.read (.ofType t) line = .ok l := by
      intro line hline
      refine exists_ok_iff.mpr fun e he => hgood line hline ?_
      exact (Line.bad_iff (hlines line hline)).mpr ⟨e, he⟩
    obtain ⟨ls, hls⟩ := exists_mapM_eq_ok hread
    exact ⟨_, bind_eq_ok_iff.mpr ⟨ls, hls, rfl⟩⟩

theorem ofLayout_eq_error_iff {layout : Layout} : ofLayout type layout = .error e ↔
    FirstError (fun _ d e => (gridOf layout.rows).extent.blocks.contains d.block = false ∧
      e = .stackOutOfRange d.block) layout.declarations e := by
  have hheight : 0 ≤ (gridOf layout.rows).extent.blocks.height :=
    blocksCovering_nonneg (Int.natCast_nonneg _)
  have hcovers := (uniform_emptyStacks hheight).covers
  rw [ofLayout, bind_eq_error_iff, ← hcovers.foldlM_declare_eq_error_iff]
  refine or_iff_left ?_
  rintro ⟨plane, hplane, h⟩
  rw [assemble_eq_ok ((foldlM_declare hplane).1.trans hcovers.extent)] at h
  cases h

/-- Where every line can be read, a text is refused for the first declaration without a stack. -/
theorem load_eq_error_iff (t type : NumberType) (source : String) (e : LoadError) :
    load (.ofType t) type source = .error e ↔
      FirstError (OffenceAfter t none) (sourceLines source) e ∨
      (∀ line ∈ sourceLines source, ¬Line.Bad t line) ∧
        FirstError (fun _ => StackOffence t (extentOf (rowsOf (sourceLines source))).blocks)
          (sourceLines source) e := by
  have hlines := not_mem_of_mem_sourceLines source
  rw [load_eq, bind_eq_error_iff, Layout.read_eq_error_iff hlines, ← Layout.exists_read_iff hlines]
  -- The declarations of the layout are those of the lines, so the first without a stack is, too.
  have hstacks {layout : Layout}
      (hread : Layout.read (.ofType t) (sourceLines source) = .ok layout) :
      ofLayout type layout = .error e ↔
        FirstError (fun _ => StackOffence t (extentOf (rowsOf (sourceLines source))).blocks)
          (sourceLines source) e := by
    rw [ofLayout_eq_error_iff, extent_gridOf_of_read hread,
      firstError_mapM_iff (Layout.read_eq_ok_iff.mp hread).2, firstError_filter_iff]
    exact FirstError.congr fun _ line hline _ => (stackOffence_iff (hlines line hline)).symm
  refine or_congr_right ⟨?_, ?_⟩
  · rintro ⟨layout, hread, hlayout⟩
    exact ⟨⟨layout, hread⟩, (hstacks hread).mp hlayout⟩
  · rintro ⟨⟨layout, hread⟩, hfirst⟩
    exact ⟨layout, hread, (hstacks hread).mpr hfirst⟩

theorem exists_load_error_iff (t type : NumberType) (source : String) :
    (∃ e, load (.ofType t) type source = .error e) ↔
      (∃ line ∈ sourceLines source, Line.Bad t line) ∨
        ∃ line ∈ sourceLines source, ∃ b, Line.Declares t line b ∧
          (extentOf (rowsOf (sourceLines source))).blocks.contains b = false := by
  have hlines := not_mem_of_mem_sourceLines source
  have hbad : (∃ e, FirstError (OffenceAfter t none) (sourceLines source) e) ↔
      ∃ line ∈ sourceLines source, Line.Bad t line := by
    simp only [← Layout.read_eq_error_iff hlines]
    rw [← not_iff_not, not_exists, ← exists_ok_iff, Layout.exists_read_iff hlines]
    simp only [not_exists, not_and]
  have hstacks (blocks : Extent) : (∃ e, FirstError (fun _ => StackOffence t blocks)
      (sourceLines source) e) ↔
      ∃ line ∈ sourceLines source, ∃ b, Line.Declares t line b ∧ blocks.contains b = false := by
    rw [exists_firstError_iff]
    refine exists_congr fun line => and_congr_right fun _ => ?_
    constructor
    · rintro ⟨e, b, hb, hout, -⟩
      exact ⟨b, hb, hout⟩
    · rintro ⟨b, hb, hout⟩
      exact ⟨_, b, hb, hout, rfl⟩
  simp only [load_eq_error_iff, exists_or, exists_and_left, hbad, hstacks]
  constructor
  · rintro (h | ⟨-, h⟩)
    · exact .inl h
    · exact .inr h
  · rintro (h | h)
    · exact .inl h
    · by_cases hany : ∃ line ∈ sourceLines source, Line.Bad t line
      · exact .inl hany
      · exact .inr ⟨fun line hline hbad => hany ⟨line, hline, hbad⟩, h⟩

/-! ## Rejected texts -/

theorem ofText_of_load {source : String} (h : load (.ofType t) t source = .error e) :
    e.ofText = true := by
  rcases (load_eq_error_iff t t source e).mp h with hline | ⟨-, hstack⟩
  · obtain ⟨_, _, -, h⟩ := hline.exists
    exact h.ofText
  · obtain ⟨_, _, -, h⟩ := hstack.exists
    exact h.ofText

/-- A text is rejected exactly where a line of it is wrong or a declared stack is not there, and the
error is the first one in the text, except that a grid that grows is searched for stacks last.  The
error is always a fault of the text, which the refusal of the tokenizer is not. -/
theorem rejects_with_first_offence (t : NumberType) (source : String) :
    let lines := sourceLines source
    let blocks := (extentOf (rowsOf lines)).blocks
    ((∃ e, load (.ofType t) t source = .error e) ↔
      (∃ line ∈ lines, Line.Bad t line) ∨
        ∃ line ∈ lines, ∃ b, Line.Declares t line b ∧ blocks.contains b = false) ∧
    (∀ e, load (.ofType t) t source = .error e ↔
      FirstError (OffenceAfter t none) lines e ∨
      (∀ line ∈ lines, ¬Line.Bad t line) ∧
        FirstError (fun _ => StackOffence t blocks) lines e) ∧
    (∀ e, load (.ofType t) t source = .error e → e.ofText = true) ∧
    ∀ f : Frame, 0 ≤ f.extent.width → 0 ≤ f.extent.height → 1 ≤ f.capacity → ∀ e,
      (build (.ofType t) t f source = .error e ↔
        FirstError (OffenceAfter t (some f.extent)) (Text.splitLines source.toList) e) ∧
      (build (.ofType t) t f source = .error e → e.ofText = true) := by
  refine ⟨exists_load_error_iff t t source, load_eq_error_iff t t source,
    fun e he => ofText_of_load he,
    fun f hw hh hcapacity e => ⟨build_eq_error_iff hw hh hcapacity, fun he => ?_⟩⟩
  obtain ⟨_, _, -, h⟩ := ((build_eq_error_iff hw hh hcapacity).mp he).exists
  exact h.ofText

theorem rejects_with_first_offence_before_a_stack :
    let byte := NumberType.signed .bits8
    let source := "s 9 0 1\n>x\n"
    let f : Frame := ⟨⟨4, 1⟩, 1⟩
    load (.ofType byte) byte source = .error (.unknownInstruction "x") ∧
      0 ≤ f.extent.width ∧ 0 ≤ f.extent.height ∧ 1 ≤ f.capacity ∧
      build (.ofType byte) byte f source = .error (.stackOutOfRange ⟨9, 0⟩) ∧
      FirstError (OffenceAfter byte (some f.extent)) (Text.splitLines source.toList)
        (.stackOutOfRange ⟨9, 0⟩) := by
  intro byte source f
  have hload : load (.ofType byte) byte source = .error (.unknownInstruction "x") := by decide
  have hbuild : build (.ofType byte) byte f source = .error (.stackOutOfRange ⟨9, 0⟩) := by
    decide
  have hrejects := (rejects_with_first_offence byte source).2.2.2 f (by decide) (by decide)
    (by decide) (.stackOutOfRange ⟨9, 0⟩)
  exact ⟨hload, by decide, by decide, by decide, hbuild, hrejects.1.mp hbuild⟩

end Program
end MatrixStack
