/-
What the two loaders make of one text.

A layout fits into its own extent and into every larger one (`Frame.fits_of_extentOf`), so a text
that loads can be built at the size of its grid as soon as the builder can read its lines.  The two
loaders do not cut the ends of lines alike: the builder drops one carriage return, the other loader
drops all of them.  A line that can be placed without its end can be placed with it, but for a row
that ends in more than one (`Site.place_append_returns`), and these are the only texts that the two
do not agree on.
-/
import MatrixStack.Proofs.Program.SourceLines

namespace MatrixStack
namespace Program

variable {conv : Converters} {type : NumberType} {source : String} {layout : Layout} {f : Frame}
  {g b : Machine}

theorem Frame.fits_of_extentOf (hw : (extentOf layout.rows).width ≤ f.extent.width)
    (hh : (extentOf layout.rows).height ≤ f.extent.height)
    (hcapacity : (∃ b, f.extent.blocks.contains b = true) → 1 ≤ f.capacity)
    (hblocks : ∀ d ∈ layout.declarations,
      (extentOf layout.rows).blocks.contains d.block = true) : f.Fits layout where
  width_nonneg := Int.le_trans (Int.natCast_nonneg _) hw
  height_nonneg := Int.le_trans (Int.natCast_nonneg _) hh
  capacity_pos := hcapacity
  rows := (rowsFit_extentOf layout.rows).enlarge hw hh
  blocks d hd := Extent.contains_blocks_mono hw hh (hblocks d hd)

/-! ## Lines with their ends -/

namespace Site

theorem placeRow_append (grid : Plane Cell) (y x : Nat) (cs more : List Char) :
    placeRow grid y x (cs ++ more) =
      placeRow grid y x cs >>= fun grid => placeRow grid y (x + cs.length) more := by
  induction cs generalizing grid x with
  | nil => rfl
  | cons c rest ih =>
    have hlen : x + (c :: rest).length = x + 1 + rest.length := by
      rw [List.length_cons]
      omega
    rw [List.cons_append, placeRow, placeRow, hlen]
    cases Line.readInstruction c with
    | error e => rfl
    | ok i =>
      simp only
      cases grid.set? ⟨x, y⟩ (.instruction i) with
      | none => rfl
      | some grid => exact ih grid (x + 1)

/-- A line that can be placed without its end can be placed with it, or it is a row and the first
carriage return left in it is refused. -/
theorem place_append_returns {cs : List Char} (h : '\n' ∉ cs) (n : Nat) {s t : Site}
    (hplace : s.place conv cs = .ok t) :
    s.place conv (cs ++ List.replicate n '\r') = .ok t ∨
      s.place conv (cs ++ List.replicate n '\r') = .error (.unknownInstruction "\r") := by
  have hkind := Line.isRow_append_returns cs n
  have hkind' := Line.isDeclaration_append_returns cs n
  by_cases hrow : Line.isRow cs = true
  · rw [place_of_isRow hrow] at hplace
    rw [place_of_isRow (hkind.trans hrow)]
    -- A comment hides the carriage returns; without one, the first of them is taken for an
    -- instruction.
    rcases Line.rowChars_append_returns cs n with heq | ⟨more, heq⟩
    · left
      rw [heq, hplace]
    · right
      obtain ⟨grid, hgrid, -⟩ := Outcome.map_eq_ok_iff.mp hplace
      rw [heq, placeRow_append, hgrid]
      rfl
  left
  have hrow' : ¬Line.isRow (cs ++ List.replicate n '\r') = true := by rwa [hkind]
  by_cases hdecl : Line.isDeclaration cs = true
  · rw [place_of_isDeclaration hdecl] at hplace
    rw [place_of_isDeclaration (hkind'.trans hdecl)]
    obtain ⟨d, hd, hrest⟩ := Outcome.bind_eq_ok_iff.mp hplace
    have hd' := (Line.readDeclaration_append_returns hdecl h n).mpr hd
    exact Outcome.bind_eq_ok_iff.mpr ⟨d, hd', hrest⟩
  · have hdecl' : ¬Line.isDeclaration (cs ++ List.replicate n '\r') = true := by rwa [hkind']
    rw [place_of_isComment hrow hdecl] at hplace
    rw [place_of_isComment hrow' hdecl', hplace]

theorem foldlM_place_of_dropLineEnd {lines : List (List Char)}
    (hlines : ∀ line ∈ lines, '\n' ∉ line) {s t : Site}
    (hplace : (lines.map Text.dropLineEnd).foldlM (place conv) s = .ok t) :
    lines.foldlM (place conv) s = .ok t ∨
      lines.foldlM (place conv) s = .error (.unknownInstruction "\r") := by
  induction lines generalizing s with
  | nil => exact .inl hplace
  | cons line rest ih =>
    obtain ⟨mid, hfirst, hrest⟩ := Outcome.foldlM_cons_eq_ok_iff.mp hplace
    obtain ⟨hline, hlines⟩ := List.forall_mem_cons.mp hlines
    obtain ⟨n, hn⟩ := Text.exists_returns hline
    have hends := place_append_returns (Text.not_mem_dropLineEnd hline) n hfirst
    rw [← hn] at hends
    rw [List.foldlM_cons]
    rcases hends with hok | herror
    · rw [hok]
      exact ih hlines hrest
    · right
      rw [herror]
      rfl

end Site

/-! ## Texts that both loaders read -/

theorem build_eq_ok_or_error
    (hread : Layout.read conv ((Text.splitLines source.toList).map Text.dropLineEnd) = .ok layout)
    (hfits : f.Fits layout) :
    (∃ b, build conv type f source = .ok b) ∨
      build conv type f source = .error (.unknownInstruction "\r") := by
  -- Without their ends, the lines can be placed.
  obtain ⟨s, t, hs, ht⟩ := exists_placed hread hfits
  have hends := Site.foldlM_place_of_dropLineEnd
    (fun line hline => Text.not_mem_of_mem_splitLines hline) ht
  rcases hends with hok | herror
  · left
    obtain ⟨layout', hread', -⟩ := carries_of_foldlM_place (site_eq_ok hs).1 hok
    obtain ⟨hsame, -⟩ := Layout.read_splitLines_iff.mp hread'
    obtain rfl : layout = layout' := Except.ok.inj (hread.symm.trans hsame)
    exact exists_build hread' hfits
  · right
    rw [build, hs, Outcome.ok_bind, herror]
    rfl

/-- A text that loads can be built at the size of its grid, and then it has the same cells, unless a
row has a carriage return left after one has been dropped at the end of each line; that carriage
return is refused. -/
theorem built_at_loaded_size (conv : Converters) (type : NumberType) (source : String)
    (capacity : Int) (hcapacity : 1 ≤ capacity) (g : Machine)
    (hg : load conv type source = .ok g) :
    ((∀ line ∈ Text.splitLines source.toList, Line.ReturnFree line) →
      ∃ b, build conv type ⟨g.grid.extent, capacity⟩ source = .ok b ∧
        b.grid.extent = g.grid.extent ∧ ∀ q, b.grid.get? q = g.grid.get? q) ∧
    ((∃ line ∈ Text.splitLines source.toList, ¬Line.ReturnFree line) →
      build conv type ⟨g.grid.extent, capacity⟩ source = .error (.unknownInstruction "\r")) := by
  obtain ⟨layout, hread, hlayout⟩ := Outcome.bind_eq_ok_iff.mp hg
  obtain ⟨hlaid, hgrid⟩ := laidOut_of_ofLayout hlayout
  have hfits : Frame.Fits ⟨g.grid.extent, capacity⟩ layout := by
    have hblocks := exists_ofLayout_iff.mp ⟨g, hlayout⟩
    rw [extent_gridOf] at hblocks
    rw [hgrid, extent_gridOf]
    exact Frame.fits_of_extentOf (Int.le_refl _) (Int.le_refl _) (fun _ => hcapacity) hblocks
  refine ⟨fun hfree => ?_, ?_⟩
  · have hbuild : ∃ b, build conv type ⟨g.grid.extent, capacity⟩ source = .ok b :=
      exists_build (Layout.read_splitLines_iff.mpr ⟨hread, hfree⟩) hfits
    obtain ⟨b, hb⟩ := hbuild
    obtain ⟨layout', hread', -, hlaid', hsize⟩ := laidOut_of_build hb
    obtain ⟨hsame, -⟩ := Layout.read_splitLines_iff.mp hread'
    obtain rfl : layout = layout' := Except.ok.inj (hread.symm.trans hsame)
    refine ⟨b, hb, hsize, fun q => ?_⟩
    rw [hlaid'.grid.get?, hlaid.grid.get?, hsize]
  · rintro ⟨line, hline, hreturn⟩
    refine (build_eq_ok_or_error hread hfits).resolve_left ?_
    rintro ⟨b, hb⟩
    obtain ⟨layout', hread', -⟩ := laidOut_of_build hb
    exact hreturn ((Layout.read_splitLines_iff.mp hread').2 line hline)

theorem built_at_loaded_size_with_return_in_comment :
    let byte := NumberType.unsigned .bits8
    let source := "s 0 0 7\r\r\n.p#\r\r\n"
    ∃ g, load (.ofType byte) byte source = .ok g ∧ 1 ≤ (1 : Int) ∧
      (∀ line ∈ Text.splitLines source.toList, Line.ReturnFree line) ∧
      ∃ b, build (.ofType byte) byte ⟨g.grid.extent, 1⟩ source = .ok b ∧
        b.grid.extent = g.grid.extent ∧ ∀ q, b.grid.get? q = g.grid.get? q := by
  intro byte source
  have hload : (load (.ofType byte) byte source).isOk = true := by decide
  obtain ⟨g, hg⟩ := Outcome.exists_of_isOk hload
  have hfree : ∀ line ∈ Text.splitLines source.toList, Line.ReturnFree line := by decide
  have hcapacity : 1 ≤ (1 : Int) := by decide
  have hbuilt := built_at_loaded_size (.ofType byte) byte source 1 hcapacity g hg
  exact ⟨g, hg, hcapacity, hfree, hbuilt.1 hfree⟩

/-- Of two carriage returns at the end of a row, only one loader drops both. -/
theorem two_returns_load_but_are_not_built :
    ∃ g, load (.ofType .unbounded) .unbounded " \r\r" = .ok g ∧ g.grid.extent = ⟨1, 1⟩ ∧
      build (.ofType .unbounded) .unbounded ⟨g.grid.extent, 1⟩ " \r\r" =
        .error (.unknownInstruction "\r") := by
  have hload : (load (.ofType .unbounded) .unbounded " \r\r").isOk = true := by decide
  obtain ⟨g, hg⟩ := Outcome.exists_of_isOk hload
  have hgrid : ∀ g ∈ (load (.ofType .unbounded) .unbounded " \r\r").toOption,
      g.grid.extent = ⟨1, 1⟩ := by decide
  rw [hg] at hgrid
  have hextent := hgrid g rfl
  have hbuild : build (.ofType .unbounded) .unbounded ⟨⟨1, 1⟩, 1⟩ " \r\r" =
      .error (.unknownInstruction "\r") := by decide
  rw [← hextent] at hbuild
  exact ⟨g, hg, hextent, hbuild⟩

end Program
end MatrixStack
