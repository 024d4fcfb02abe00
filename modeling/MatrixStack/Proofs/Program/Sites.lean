/-
Carrying out a program text line by line.

A site carries a layout when its grid shows the rows of the layout and the numbers of its
declarations are on the stacks.  Placing a line adds what the line reads as to the layout that the
site carries (`Site.Carries.place`), and so for all lines of a text (`carries_of_foldlM_place`).
The lines are taken exactly where each can be read, the rows fit, and the declared stacks are there
(`exists_foldlM_place_iff`).
-/
import MatrixStack.Proofs.Program.Rows

namespace MatrixStack
namespace Program

/-- The layout with one more line at its end. -/
def Layout.add (layout : Layout) : Line → Layout
  | .comment => layout
  | .declaration d => { layout with declarations := layout.declarations ++ [d] }
  | .row row => { layout with rows := layout.rows ++ [row] }

theorem Layout.foldl_add (layout : Layout) (ls : List Line) :
    ls.foldl Layout.add layout =
      ⟨layout.rows ++ ls.filterMap Line.row?,
        layout.declarations ++ ls.filterMap Line.declaration?⟩ := by
  induction ls generalizing layout with
  | nil =>
    show layout = ⟨layout.rows ++ [], layout.declarations ++ []⟩
    rw [List.append_nil, List.append_nil]
  | cons l ls ih =>
    rw [List.foldl_cons, ih]
    cases l with
    | comment => rfl
    | declaration d =>
      show Layout.mk _ ((layout.declarations ++ [d]) ++ _) = ⟨_, layout.declarations ++ d :: _⟩
      rw [List.append_assoc]
      rfl
    | row row =>
      show Layout.mk ((layout.rows ++ [row]) ++ _) _ = ⟨layout.rows ++ row :: _, _⟩
      rw [List.append_assoc]
      rfl

variable {conv : Converters} {e : Extent} {before : StackPlane} {layout : Layout} {s t : Site}

/-- The layout has been carried out: its rows are in the grid, the next row goes below them, and
its declarations are on the stacks. -/
structure Site.Carries (e : Extent) (before : StackPlane) (layout : Layout) (s : Site) : Prop where
  grid : Shows s.grid e layout.rows
  y : s.y = layout.rows.length
  declared : layout.declarations.foldlM declare before = .ok s.stackPlane
  fits : RowsFit e layout.rows

namespace Site

variable {line : List Char}

theorem place_of_isRow (h : Line.isRow line = true) (s : Site) : s.place conv line =
    (placeRow s.grid s.y 0 (Line.rowChars line)).map fun grid =>
      { s with grid := grid, y := s.y + 1 } := by
  have hhead := of_decide_eq_true h
  unfold place
  split
  case h_1 => exact absurd rfl hhead.1
  case h_2 => exact absurd rfl hhead.2
  case h_3 => rfl

theorem place_of_isDeclaration (h : Line.isDeclaration line = true) (s : Site) :
    s.place conv line = Declaration.read conv line >>= fun d =>
      (declare s.stackPlane d).map fun plane => { s with stackPlane := plane } := by
  obtain ⟨rest, rfl⟩ := Line.exists_of_isDeclaration h
  rfl

theorem place_of_isComment (hrow : ¬Line.isRow line = true)
    (hdecl : ¬Line.isDeclaration line = true) (s : Site) : s.place conv line = .ok s := by
  obtain ⟨rest, rfl⟩ := Line.exists_of_isComment hrow hdecl
  rfl

theorem Carries.row (h : s.Carries e before layout) {grid : Plane Cell}
    (hplace : placeRow s.grid s.y 0 (Line.rowChars line) = .ok grid) :
    ∃ row, Line.readRow line = .ok row ∧
      Carries e before (layout.add (.row row)) { s with grid := grid, y := s.y + 1 } := by
  rw [h.y] at hplace
  obtain ⟨row, hread, hfits, hshows⟩ := placeRow_eq_ok h.grid.concat_nil hplace
  refine ⟨row, hread, hshows, ?_, h.declared, h.fits.concat hfits⟩
  show s.y + 1 = (layout.rows ++ [row]).length
  rw [h.y, List.length_append, List.length_singleton]

theorem Carries.place (h : s.Carries e before layout) (hplace : s.place conv line = .ok t) :
    ∃ l, Line.read conv line = .ok l ∧ t.Carries e before (layout.add l) := by
  by_cases hrow : Line.isRow line = true
  · rw [place_of_isRow hrow] at hplace
    obtain ⟨grid, hgrid, rfl⟩ := Outcome.map_eq_ok_iff.mp hplace
    obtain ⟨row, hread, hcarries⟩ := h.row hgrid
    refine ⟨.row row, ?_, hcarries⟩
    rw [Line.read_of_isRow hrow]
    exact Outcome.map_eq_ok_iff.mpr ⟨row, hread, rfl⟩
  by_cases hdecl : Line.isDeclaration line = true
  · rw [place_of_isDeclaration hdecl] at hplace
    obtain ⟨d, hread, hrest⟩ := Outcome.bind_eq_ok_iff.mp hplace
    obtain ⟨after, hd, rfl⟩ := Outcome.map_eq_ok_iff.mp hrest
    refine ⟨.declaration d, ?_, h.grid, h.y, foldlM_declare_concat h.declared hd, h.fits⟩
    rw [Line.read_of_isDeclaration hdecl]
    exact Outcome.map_eq_ok_iff.mpr ⟨d, hread, rfl⟩
  · rw [place_of_isComment hrow hdecl] at hplace
    cases hplace
    exact ⟨.comment, Line.read_of_isComment hrow hdecl, h⟩

/-- A site that carries a layout takes one more line if that fits and finds its stack. -/
theorem Carries.exists_place (h : s.Carries e before layout) {l : Line}
    (hread : Line.read conv line = .ok l) (hfits : RowsFit e (layout.add l).rows)
    (hstacks : ∀ d ∈ (layout.add l).declarations, (before.get? d.block).join.isSome) :
    ∃ t, s.place conv line = .ok t := by
  by_cases hrow : Line.isRow line = true
  · rw [Line.read_of_isRow hrow] at hread
    obtain ⟨row, hchars, rfl⟩ := Outcome.map_eq_ok_iff.mp hread
    have hlast : FitsAt e s.y 0 row := by
      rw [h.y]
      exact RowsFit.last hfits
    obtain ⟨grid, hgrid, -⟩ := exists_placeRow h.grid.extent hchars hlast
    refine ⟨{ s with grid := grid, y := s.y + 1 }, ?_⟩
    rw [place_of_isRow hrow]
    exact Outcome.map_eq_ok_iff.mpr ⟨grid, hgrid, rfl⟩
  by_cases hdecl : Line.isDeclaration line = true
  · rw [Line.read_of_isDeclaration hdecl] at hread
    obtain ⟨d, hd, rfl⟩ := Outcome.map_eq_ok_iff.mp hread
    obtain ⟨after, hafter⟩ := exists_foldlM_declare_iff.mpr hstacks
    have hsplit : (layout.declarations ++ [d]).foldlM declare before = .ok after := hafter
    rw [List.foldlM_append] at hsplit
    obtain ⟨mid, hmid, hlast⟩ := Outcome.bind_eq_ok_iff.mp hsplit
    obtain rfl : s.stackPlane = mid := Except.ok.inj (h.declared.symm.trans hmid)
    obtain ⟨last, hdeclare, -⟩ := Outcome.foldlM_cons_eq_ok_iff.mp hlast
    refine ⟨{ s with stackPlane := last }, ?_⟩
    rw [place_of_isDeclaration hdecl]
    refine Outcome.bind_eq_ok_iff.mpr ⟨d, hd, ?_⟩
    exact Outcome.map_eq_ok_iff.mpr ⟨last, hdeclare, rfl⟩
  · exact ⟨s, place_of_isComment hrow hdecl s⟩

theorem Carries.foldlM_place (h : s.Carries e before layout) {lines : List (List Char)}
    (hplace : lines.foldlM (Site.place conv) s = .ok t) :
    ∃ ls, lines.mapM (Line.read conv) = .ok ls ∧
      t.Carries e before (ls.foldl Layout.add layout) := by
  induction lines generalizing s layout with
  | nil =>
    cases hplace
    exact ⟨[], rfl, h⟩
  | cons line rest ih =>
    obtain ⟨mid, hfirst, hrest⟩ := Outcome.foldlM_cons_eq_ok_iff.mp hplace
    obtain ⟨l, hl, hmid⟩ := h.place hfirst
    obtain ⟨ls, hls, hlast⟩ := ih hmid hrest
    exact ⟨l :: ls, Outcome.mapM_cons_eq_ok_iff.mpr ⟨l, ls, hl, hls, rfl⟩, hlast⟩

theorem Carries.exists_foldlM_place (h : s.Carries e before layout) {lines : List (List Char)}
    {ls : List Line} (hread : lines.mapM (Line.read conv) = .ok ls)
    (hfits : RowsFit e (ls.foldl Layout.add layout).rows)
    (hstacks : ∀ d ∈ (ls.foldl Layout.add layout).declarations,
      (before.get? d.block).join.isSome) :
    ∃ t, lines.foldlM (Site.place conv) s = .ok t := by
  rw [Outcome.mapM_eq_ok_iff] at hread
  induction hread generalizing s layout with
  | nil => exact ⟨s, rfl⟩
  | @cons line l rest ls hl _ ih =>
    rw [List.foldl_cons, Layout.foldl_add] at hfits hstacks
    obtain ⟨mid, hmid⟩ := h.exists_place hl hfits.of_append fun d hd =>
      hstacks d (List.mem_append_left _ hd)
    obtain ⟨l', hl', hcarries⟩ := h.place hmid
    obtain rfl : l = l' := Except.ok.inj (hl.symm.trans hl')
    rw [← Layout.foldl_add] at hfits hstacks
    obtain ⟨t, ht⟩ := ih hcarries hfits hstacks
    exact ⟨t, Outcome.foldlM_cons_eq_ok_iff.mpr ⟨mid, hmid, ht⟩⟩

end Site

/-- A blank site takes the lines of a text exactly where all of them can be read, the rows fit, and
every declared stack is there. -/
theorem exists_foldlM_place_iff (h : s.Carries e before ⟨[], []⟩) {lines : List (List Char)} :
    (∃ t, lines.foldlM (Site.place conv) s = .ok t) ↔
      ∃ layout, Layout.read conv lines = .ok layout ∧ RowsFit e layout.rows ∧
        ∀ d ∈ layout.declarations, (before.get? d.block).join.isSome := by
  constructor
  · rintro ⟨t, ht⟩
    obtain ⟨ls, hls, hcarries⟩ := h.foldlM_place ht
    rw [Layout.foldl_add] at hcarries
    refine ⟨_, Outcome.bind_eq_ok_iff.mpr ⟨ls, hls, rfl⟩, hcarries.fits, ?_⟩
    exact exists_foldlM_declare_iff.mp ⟨t.stackPlane, hcarries.declared⟩
  · rintro ⟨layout, hlayout, hfits, hstacks⟩
    obtain ⟨ls, hls, heq⟩ := Outcome.bind_eq_ok_iff.mp hlayout
    cases heq
    apply h.exists_foldlM_place hls
    · rw [Layout.foldl_add]
      exact hfits
    · rw [Layout.foldl_add]
      exact hstacks

/-- What a blank site carries in the end is what its lines read as. -/
theorem carries_of_foldlM_place (h : s.Carries e before ⟨[], []⟩) {lines : List (List Char)}
    (hplace : lines.foldlM (Site.place conv) s = .ok t) :
    ∃ layout, Layout.read conv lines = .ok layout ∧ t.Carries e before layout := by
  obtain ⟨ls, hls, hcarries⟩ := h.foldlM_place hplace
  rw [Layout.foldl_add] at hcarries
  exact ⟨_, Outcome.bind_eq_ok_iff.mpr ⟨ls, hls, rfl⟩, hcarries⟩

end Program
end MatrixStack
