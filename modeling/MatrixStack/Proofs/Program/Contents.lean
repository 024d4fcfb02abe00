/-
What is in a machine on a grid that grows.

`Contents` tells the machine from the lines of its text: the rows decide the size of the grid and
its cells, and the stack of a block holds the numbers of the declarations for it, in their order
(`contents_of_read`).  Nothing else matters, so declarations and comments may be moved about
between the rows as long as the declarations for one stack stay in order (`ofLayout_congr`).
-/
import Mathlib.Data.Rat.Floor
import MatrixStack.Proofs.Plane.Full
import MatrixStack.Proofs.Program.SourceLines

namespace MatrixStack

theorem blocksCovering_eq_ceil (n : Int) : blocksCovering n = ⌈(n : ℚ) / 4⌉ :=
  (Rat.ceil_intCast_div_natCast n 4).symm

namespace Program

variable {conv : Converters} {type : NumberType} {lines lines' : List (List Char)}
  {layout layout' : Layout} {m m' : Machine}

/-! ## Cells -/

/-- The character at a pointer, if its row is that long. -/
def charAt? (rows : List (List Char)) (p : Pointer) : Option Char :=
  rows[p.y.toNat]?.bind fun row => row[p.x.toNat]?

theorem cellAt_of_charAt? (h : Layout.read conv lines = .ok layout) (p : Pointer) :
    match charAt? (rowsOf lines) p with
    | some c => ∃ i, Instruction.ofChar? c = some i ∧ cellAt layout.rows p = .instruction i
    | none => cellAt layout.rows p = blankCell := by
  have hrows := mapM_rowsOf h
  unfold cellAt charAt?
  rw [Outcome.getElem?_of_mapM_eq_ok hrows]
  cases hline : (rowsOf lines)[p.y.toNat]? with
  | none => rfl
  | some cs =>
    obtain ⟨row, hrow⟩ := Outcome.exists_of_mapM_eq_ok hrows (List.mem_of_getElem? hline)
    simp only [Option.bind_some, hrow, Except.toOption]
    rw [Outcome.getElem?_of_mapM_eq_ok hrow]
    cases hc : cs[p.x.toNat]? with
    | none => rfl
    | some c =>
      obtain ⟨i, hi⟩ := Outcome.exists_of_mapM_eq_ok hrow (List.mem_of_getElem? hc)
      refine ⟨i, Line.readInstruction_eq_ok_iff.mp hi, ?_⟩
      simp only [Option.bind_some, hi, Except.toOption, Option.map_some, Option.getD_some]

/-! ## Contents -/

/-- The machine starts with the cells of the rows, and with the numbers of the declarations on the
stacks. -/
structure Contents (conv : Converters) (type : NumberType) (lines : List (List Char))
    (m : Machine) (ds : List Declaration) : Prop where
  fresh : m = Machine.fresh m.grid m.stackPlane type
  extent : m.grid.extent = extentOf (rowsOf lines)
  cells : ∀ p, m.grid.extent.contains p = true →
    match charAt? (rowsOf lines) p with
    | some c => ∃ i, Instruction.ofChar? c = some i ∧ m.grid.get? p = some (.instruction i)
    | none => m.grid.get? p = some blankCell
  stackExtent : m.stackPlane.extent =
    ⟨⌈(m.grid.extent.width : ℚ) / 4⌉, ⌈(m.grid.extent.height : ℚ) / 4⌉⟩
  declarations : (lines.filter Line.isDeclaration).mapM (Declaration.read conv) = .ok ds
  blocks : ∀ d ∈ ds, m.stackPlane.extent.contains d.block = true
  items : ∀ b, (m.stackAt? b).map Stack.items =
    if m.stackPlane.extent.contains b then
      some ((ds.filter (·.block = b)).flatMap Declaration.values)
    else none

theorem contents_of_read (h : Layout.read conv lines = .ok layout)
    (hm : ofLayout type layout = .ok m) : Contents conv type lines m layout.declarations := by
  obtain ⟨hlaid, hgrid⟩ := laidOut_of_ofLayout hm
  exact {
    fresh := hlaid.fresh
    extent := by rw [hgrid, extent_gridOf_of_read h]
    cells := fun p hp => by
      have hcell := cellAt_of_charAt? h p
      rw [hlaid.grid.get?, if_pos hp]
      cases hc : charAt? (rowsOf lines) p with
      | none =>
        rw [hc] at hcell
        exact congrArg some hcell
      | some c =>
        rw [hc] at hcell
        obtain ⟨i, hi, heq⟩ := hcell
        exact ⟨i, hi, congrArg some heq⟩
    stackExtent := by
      rw [hlaid.extent, Extent.blocks, blocksCovering_eq_ceil, blocksCovering_eq_ceil]
    declarations := (Layout.read_eq_ok_iff.mp h).2
    blocks := by
      rw [hlaid.extent, hgrid]
      exact exists_ofLayout_iff.mp ⟨m, hm⟩
    items := fun b => by
      rw [hlaid.stackAt, hlaid.extent]
      split
      · rw [Option.map_some, Stack.empty, Stack.items_pushAll_growable, valuesAt_eq]
        rfl
      · rfl }

/-! ## Planes of stacks -/

/-- A plane of rows of full length, without holes in it. -/
def FullRows (plane : StackPlane) : Prop :=
  ∃ p : RowPlane (Option (Stack Number)), plane = .rows p ∧ p.Full ∧ p.default = none

theorem FullRows.ext {plane plane' : StackPlane} (h : FullRows plane) (h' : FullRows plane')
    (hext : plane.extent = plane'.extent)
    (hstacks : ∀ b, (plane.get? b).join = (plane'.get? b).join) : plane = plane' := by
  obtain ⟨p, rfl, hp, hdefault⟩ := h
  obtain ⟨p', rfl, hp', hdefault'⟩ := h'
  refine congrArg Plane.rows (hp.ext hp' (hdefault.trans hdefault'.symm) hext fun b => ?_)
  have hsome : (p.get? b).isSome ↔ (p'.get? b).isSome := by
    rw [RowPlane.get?_isSome_iff, RowPlane.get?_isSome_iff]
    show (Plane.rows p).extent.contains b = true ↔ (Plane.rows p').extent.contains b = true
    rw [hext]
  have hjoin : (p.get? b).join = (p'.get? b).join := hstacks b
  cases hs : p.get? b <;> cases hs' : p'.get? b <;> simp_all

theorem fullRows_emptyStacks {e : Extent} (hw : 0 ≤ e.width) : FullRows (emptyStacks e) :=
  ⟨_, rfl, RowPlane.full_generate hw none _, rfl⟩

theorem FullRows.set {plane : StackPlane} (h : FullRows plane) (b : Pointer) (s : Stack Number) :
    FullRows (plane.set b (some s)) := by
  obtain ⟨p, rfl, hp, hdefault⟩ := h
  show FullRows (((p.set? b (some s)).map Plane.rows).getD (.rows p))
  cases hset : p.set? b (some s) with
  | none => exact ⟨p, rfl, hp, hdefault⟩
  | some r => exact ⟨r, rfl, hp.of_set? hset, (RowPlane.default_of_set? hset).trans hdefault⟩

theorem FullRows.declare {before after : StackPlane} (h : FullRows before) {d : Declaration}
    (hd : declare before d = .ok after) : FullRows after := by
  unfold Program.declare at hd
  split at hd
  case h_1 => cases hd
  case h_2 s _ =>
    cases hd
    exact h.set d.block _

theorem FullRows.foldlM_declare {before after : StackPlane} (h : FullRows before)
    {ds : List Declaration} (hds : ds.foldlM Program.declare before = .ok after) :
    FullRows after := by
  induction ds generalizing before with
  | nil =>
    cases hds
    exact h
  | cons d ds ih =>
    obtain ⟨mid, hd, hrest⟩ := Outcome.foldlM_cons_eq_ok_iff.mp hds
    exact ih (h.declare hd) hrest

/-- Layouts with the same rows and the same numbers for every stack make the same machine. -/
theorem ofLayout_congr (hrows : layout'.rows = layout.rows)
    (hvalues : ∀ b, valuesAt layout'.declarations b = valuesAt layout.declarations b)
    (h : ofLayout type layout = .ok m) (h' : ofLayout type layout' = .ok m') : m' = m := by
  obtain ⟨plane, hplane, hm⟩ := Outcome.bind_eq_ok_iff.mp h
  obtain ⟨plane', hplane', hm'⟩ := Outcome.bind_eq_ok_iff.mp h'
  rw [hrows] at hplane' hm'
  have hwidth : 0 ≤ (gridOf layout.rows).extent.blocks.width :=
    blocksCovering_nonneg (Int.natCast_nonneg _)
  -- Both planes have grown from the same empty one, and a full plane is told by its stacks.
  have hempty := fullRows_emptyStacks hwidth
  have hsame : plane' = plane := by
    refine (hempty.foldlM_declare hplane').ext (hempty.foldlM_declare hplane) ?_ fun b => ?_
    · rw [(foldlM_declare hplane').1, (foldlM_declare hplane).1]
    · rw [(foldlM_declare hplane').2, (foldlM_declare hplane).2, hvalues]
  rw [hsame] at hm'
  exact Except.ok.inj (hm'.symm.trans hm)

/-! ## Moving lines -/

/-- The block of a declaration line. -/
def block? (conv : Converters) (line : List Char) : Option Pointer :=
  if Line.isDeclaration line then (Declaration.read conv line).toOption.map Declaration.block
  else none

/-- The same lines in another order, in which the rows have kept their order, and so have the
declarations for each stack. -/
structure Rearranged (conv : Converters) (lines lines' : List (List Char)) : Prop where
  perm : lines'.Perm lines
  rows : lines'.filter Line.isRow = lines.filter Line.isRow
  declarations : ∀ b, lines'.filter (block? conv · = some b) = lines.filter (block? conv · = some b)

theorem mapM_filter_block {ds : List Declaration}
    (h : (lines.filter Line.isDeclaration).mapM (Declaration.read conv) = .ok ds) (b : Pointer) :
    (lines.filter (block? conv · = some b)).mapM (Declaration.read conv) =
      .ok (ds.filter (·.block = b)) := by
  let declares : List Char → Bool := fun line =>
    (Declaration.read conv line).toOption.map Declaration.block = some b
  have hfilter : lines.filter (block? conv · = some b) =
      (lines.filter Line.isDeclaration).filter declares := by
    rw [List.filter_filter]
    refine List.filter_congr fun line _ => ?_
    unfold block?
    by_cases hdecl : Line.isDeclaration line = true
    · rw [if_pos hdecl, hdecl, Bool.and_true]
    · rw [if_neg hdecl, Bool.eq_false_iff.mpr hdecl, Bool.and_false]
      rfl
  rw [hfilter]
  refine Outcome.mapM_filter_eq_ok (fun line d hd => ?_) h
  show decide (d.block = b) =
    decide ((Declaration.read conv line).toOption.map Declaration.block = some b)
  simp only [hd, Except.toOption, Option.map_some, Option.some.injEq]

theorem Rearranged.exists_read (h : Rearranged conv lines lines')
    (hread : Layout.read conv lines = .ok layout) :
    ∃ layout', Layout.read conv lines' = .ok layout' ∧ layout'.rows = layout.rows ∧
      (∀ d ∈ layout'.declarations, d ∈ layout.declarations) ∧
      ∀ b, valuesAt layout'.declarations b = valuesAt layout.declarations b := by
  obtain ⟨hrows, hds⟩ := Layout.read_eq_ok_iff.mp hread
  have hperm := h.perm.filter Line.isDeclaration
  obtain ⟨ds', hds'⟩ := Outcome.exists_mapM_eq_ok fun line hline =>
    Outcome.exists_of_mapM_eq_ok hds (hperm.mem_iff.mp hline)
  refine ⟨⟨layout.rows, ds'⟩, Layout.read_eq_ok_iff.mpr ⟨?_, hds'⟩, rfl, ?_, fun b => ?_⟩
  · rw [h.rows]
    exact hrows
  · intro d hd
    obtain ⟨line, hline, hd⟩ := Outcome.exists_mem_of_mapM_eq_ok hds' hd
    exact Outcome.mem_of_mapM_eq_ok hds (hperm.mem_iff.mp hline) hd
  · -- The declarations for the block are read from the same lines in the same order.
    have hsame := mapM_filter_block hds' b
    rw [h.declarations, mapM_filter_block hds b] at hsame
    rw [valuesAt_eq, valuesAt_eq, Except.ok.inj hsame]

theorem Rearranged.load_eq_ok {source source' : String}
    (h : Rearranged conv (sourceLines source) (sourceLines source'))
    (hm : load conv type source = .ok m) : load conv type source' = .ok m := by
  rw [load_eq] at hm ⊢
  obtain ⟨layout, hread, hlayout⟩ := Outcome.bind_eq_ok_iff.mp hm
  obtain ⟨layout', hread', hrows, hmem, hvalues⟩ := h.exists_read hread
  have hexists : ∃ m', ofLayout type layout' = .ok m' := by
    refine exists_ofLayout_iff.mpr fun d hd => ?_
    rw [hrows]
    exact exists_ofLayout_iff.mp ⟨m, hlayout⟩ d (hmem d hd)
  obtain ⟨m', hm'⟩ := hexists
  obtain rfl := ofLayout_congr hrows hvalues hlayout hm'
  exact Outcome.bind_eq_ok_iff.mpr ⟨layout', hread', hm'⟩

/-- The growable loader makes of a text what the rows and declarations in it say, in whatever order
the two kinds of lines stand. -/
theorem contents_of_load (conv : Converters) (type : NumberType) (source : String) (m : Machine)
    (hm : load conv type source = .ok m) :
    (∃ ds, Contents conv type (sourceLines source) m ds) ∧
    ∀ source', Rearranged conv (sourceLines source) (sourceLines source') →
      load conv type source' = .ok m := by
  refine ⟨?_, fun source' h => h.load_eq_ok hm⟩
  rw [load_eq] at hm
  obtain ⟨layout, hread, hlayout⟩ := Outcome.bind_eq_ok_iff.mp hm
  exact ⟨layout.declarations, contents_of_read hread hlayout⟩

theorem contents_of_load_declared_between_rows :
    let byte := NumberType.signed .bits8
    let conv := Converters.ofType byte
    let source := "s 0 0 5 -7\r\n>+  # right\n# note\n\ns 0 0 9\n,p"
    let source' := ">+  # right\ns 0 0 5 -7\ns 0 0 9\n\n,p\n# note"
    ∃ m, load conv byte source = .ok m ∧ (∃ ds, Contents conv byte (sourceLines source) m ds) ∧
      Rearranged conv (sourceLines source) (sourceLines source') ∧
      load conv byte source' = .ok m := by
  intro byte conv source source'
  have hload : (load conv byte source).isOk = true := by decide
  obtain ⟨m, hm⟩ := Outcome.exists_of_isOk hload
  have hmoved : Rearranged conv (sourceLines source) (sourceLines source') := by
    refine ⟨by decide, by decide, fun b => ?_⟩
    by_cases hb : b = .origin
    · subst hb
      decide
    · have hblocks : ∀ line ∈ sourceLines source ++ sourceLines source',
          ∀ b' ∈ block? conv line, b' = .origin := by decide
      have hnone : ∀ line ∈ sourceLines source ++ sourceLines source',
          ¬decide (block? conv line = some b) = true := by
        intro line hline hdec
        exact hb (hblocks line hline b (of_decide_eq_true hdec))
      rw [List.filter_eq_nil_iff.mpr fun line h => hnone line (List.mem_append_right _ h),
        List.filter_eq_nil_iff.mpr fun line h => hnone line (List.mem_append_left _ h)]
  obtain ⟨hcontents, hrearranged⟩ := contents_of_load conv byte source m hm
  exact ⟨m, hm, hcontents, hmoved, hrearranged source' hmoved⟩

end Program
end MatrixStack
