/-
What the two loaders make of a program text.

Both loaders put the rows of a text onto a blank grid and push the declared numbers onto empty
stacks; `LaidOut` says so of a machine, whichever kind of plane and stack it has.  A grid that grows
takes every layout that declares numbers for its own blocks (`laidOut_of_load`), a fixed one those
that fit (`laidOut_of_build`, `exists_build`).
-/
import MatrixStack.Proofs.Program.Sites

namespace MatrixStack
namespace Program

variable {conv : Converters} {type : NumberType} {m : Machine} {f : Frame} {source : String}

/-! ## Empty stacks -/

/-- A plane that holds the same stack in every cell. -/
structure Uniform (plane : StackPlane) (e : Extent) (s : Stack Number) : Prop where
  extent : plane.extent = e
  get? : ∀ b, (plane.get? b).join = if e.contains b then some s else none

theorem uniform_emptyStacks {e : Extent} (hh : 0 ≤ e.height) :
    Uniform (emptyStacks e) e .empty where
  extent := RowPlane.extent_generate hh _ _
  get? b := by
    show ((RowPlane.generate e none fun _ => some Stack.empty).get? b).join = _
    rw [RowPlane.get?_generate_const hh]
    split <;> rfl

theorem createRing_eq_ok {capacity : Int} {s : Stack Number}
    (h : Stack.createRing capacity = .ok s) :
    1 ≤ capacity ∧ s = .ring (Ring.empty capacity.toNat) := by
  unfold Stack.createRing at h
  split at h
  case isTrue => cases h
  case isFalse hcap =>
    cases h
    exact ⟨by omega, rfl⟩

theorem uniform_emptyRings {plane : StackPlane} (h : f.emptyRings = .ok plane) :
    Uniform plane f.extent.blocks (.ring (Ring.empty f.capacity.toNat)) ∧
      ((∃ b, f.extent.blocks.contains b = true) → 1 ≤ f.capacity) := by
  unfold Frame.emptyRings at h
  simp only at h
  split at h
  case isTrue hempty =>
    obtain ⟨p, hp, heq⟩ := Outcome.bind_eq_ok_iff.mp h
    cases heq
    obtain ⟨hext, hget⟩ := FixedPlane.create_eq_ok (Outcome.mapError_eq_ok_iff.mp hp)
    have hnone := Extent.contains_of_pointers_isEmpty hempty
    refine ⟨⟨hext, fun b => ?_⟩, ?_⟩
    · show (p.get? b).join = _
      rw [hget, hnone b]
      rfl
    · rintro ⟨b, hb⟩
      rw [hnone b] at hb
      cases hb
  case isFalse =>
    obtain ⟨s, hs, hrest⟩ := Outcome.bind_eq_ok_iff.mp h
    obtain ⟨p, hp, heq⟩ := Outcome.bind_eq_ok_iff.mp hrest
    cases heq
    obtain ⟨hext, hget⟩ := FixedPlane.create_eq_ok (Outcome.mapError_eq_ok_iff.mp hp)
    obtain ⟨hcap, rfl⟩ := createRing_eq_ok (Outcome.mapError_eq_ok_iff.mp hs)
    refine ⟨⟨hext, fun b => ?_⟩, fun _ => hcap⟩
    show (p.get? b).join = _
    rw [hget]
    split <;> rfl

theorem exists_emptyRings (hw : 0 ≤ f.extent.width) (hh : 0 ≤ f.extent.height)
    (hcap : (∃ b, f.extent.blocks.contains b = true) → 1 ≤ f.capacity) :
    ∃ plane, f.emptyRings = .ok plane := by
  have hw' : 0 ≤ f.extent.blocks.width := blocksCovering_nonneg hw
  have hh' : 0 ≤ f.extent.blocks.height := blocksCovering_nonneg hh
  unfold Frame.emptyRings
  simp only
  split
  case isTrue =>
    obtain ⟨p, hp⟩ := FixedPlane.exists_create hw' hh' fun _ => (none : Option (Stack Number))
    refine ⟨.fixed p, Outcome.bind_eq_ok_iff.mpr ⟨p, ?_, rfl⟩⟩
    exact Outcome.mapError_eq_ok_iff.mpr hp
  case isFalse hne =>
    let ring : Stack Number := .ring (Ring.empty f.capacity.toNat)
    obtain ⟨p, hp⟩ := FixedPlane.exists_create hw' hh' fun _ => some ring
    have hcapacity : 1 ≤ f.capacity := by
      apply hcap
      rw [List.isEmpty_iff] at hne
      obtain ⟨b, hb⟩ := List.exists_mem_of_ne_nil _ hne
      exact ⟨b, Extent.mem_pointers_iff.mp hb⟩
    rw [Stack.createRing, if_neg (by omega)]
    refine ⟨.fixed p, Outcome.bind_eq_ok_iff.mpr ⟨ring, rfl, ?_⟩⟩
    exact Outcome.bind_eq_ok_iff.mpr ⟨p, Outcome.mapError_eq_ok_iff.mpr hp, rfl⟩

/-! ## The blank site -/

theorem carries_blank {grid : Plane Cell} {plane : StackPlane} {e : Extent}
    (hext : grid.extent = e)
    (hget : ∀ q, grid.get? q = if e.contains q then some blankCell else none) :
    Site.Carries e plane ⟨[], []⟩ ⟨grid, plane, 0⟩ where
  grid := ⟨hext, hget⟩
  y := rfl
  declared := rfl
  fits := rowsFit_nil e

theorem site_eq_ok {s : Site} (h : f.site = .ok s) :
    s.Carries f.extent s.stackPlane ⟨[], []⟩ ∧ f.emptyRings = .ok s.stackPlane := by
  obtain ⟨p, hp, hrest⟩ := Outcome.bind_eq_ok_iff.mp h
  obtain ⟨plane, hplane, heq⟩ := Outcome.bind_eq_ok_iff.mp hrest
  cases heq
  obtain ⟨hext, hget⟩ := FixedPlane.create_eq_ok (Outcome.mapError_eq_ok_iff.mp hp)
  exact ⟨carries_blank hext hget, hplane⟩

theorem nonneg_of_site {s : Site} (h : f.site = .ok s) :
    0 ≤ f.extent.width ∧ 0 ≤ f.extent.height := by
  obtain ⟨p, hp, -⟩ := Outcome.bind_eq_ok_iff.mp h
  have hext := (FixedPlane.create_eq_ok (Outcome.mapError_eq_ok_iff.mp hp)).1
  rw [← hext]
  exact ⟨Int.natCast_nonneg _, Int.natCast_nonneg _⟩

theorem exists_site (hw : 0 ≤ f.extent.width) (hh : 0 ≤ f.extent.height)
    (hcap : (∃ b, f.extent.blocks.contains b = true) → 1 ≤ f.capacity) :
    ∃ s, f.site = .ok s := by
  obtain ⟨plane, hplane⟩ := exists_emptyRings hw hh hcap
  obtain ⟨p, hp⟩ := FixedPlane.exists_create hw hh fun _ => blankCell
  refine ⟨⟨.fixed p, plane, 0⟩, Outcome.bind_eq_ok_iff.mpr ⟨p, ?_, ?_⟩⟩
  · exact Outcome.mapError_eq_ok_iff.mpr hp
  · exact Outcome.bind_eq_ok_iff.mpr ⟨plane, hplane, rfl⟩

/-! ## Laying out -/

/-- A fresh machine with the rows of a layout as its grid, and in every block the declared numbers
pushed onto an empty stack. -/
structure LaidOut (layout : Layout) (empty : Stack Number) (type : NumberType) (m : Machine) :
    Prop where
  fresh : m = Machine.fresh m.grid m.stackPlane type
  grid : Shows m.grid m.grid.extent layout.rows
  extent : m.stackPlane.extent = m.grid.extent.blocks
  stackAt : ∀ b, m.stackAt? b =
    if m.grid.extent.blocks.contains b then
      some (empty.pushAll (valuesAt layout.declarations b))
    else none

/-- What can be seen of a machine that has been laid out: its cells are those of the rows, and the
items on every stack are what it has kept of the numbers declared for it. -/
structure StartsWith (layout : Layout) (e : Extent) (kept : List Number → List Number)
    (type : NumberType) (m : Machine) : Prop where
  fresh : m = Machine.fresh m.grid m.stackPlane type
  extent : m.grid.extent = e
  cells : ∀ q, e.contains q = true → m.grid.get? q = some (cellAt layout.rows q)
  stackExtent : m.stackPlane.extent = e.blocks
  items : ∀ b, (m.stackAt? b).map Stack.items =
    if e.blocks.contains b then some (kept (valuesAt layout.declarations b)) else none

theorem LaidOut.startsWith {layout : Layout} {empty : Stack Number}
    {kept : List Number → List Number} {e : Extent} (h : LaidOut layout empty type m)
    (hextent : m.grid.extent = e)
    (hkept : ∀ b, e.blocks.contains b = true →
      (empty.pushAll (valuesAt layout.declarations b)).items =
        kept (valuesAt layout.declarations b)) :
    StartsWith layout e kept type m where
  fresh := h.fresh
  extent := hextent
  cells q hq := by
    rw [h.grid.get?, hextent, if_pos hq]
  stackExtent := by
    rw [h.extent, hextent]
  items b := by
    rw [h.stackAt, hextent]
    by_cases hb : e.blocks.contains b = true
    · rw [if_pos hb, if_pos hb, Option.map_some, hkept b hb]
    · rw [if_neg hb, if_neg hb]
      rfl

theorem assemble_eq_ok {grid : Plane Cell} {plane : StackPlane}
    (h : plane.extent = grid.extent.blocks) :
    assemble type grid plane = .ok (Machine.fresh grid plane type) := by
  rw [assemble, Machine.create, if_pos h]
  rfl

theorem laidOut_fresh {layout : Layout} {empty : Stack Number} {grid : Plane Cell}
    {before after : StackPlane} (hgrid : Shows grid grid.extent layout.rows)
    (hbefore : Uniform before grid.extent.blocks empty)
    (hafter : layout.declarations.foldlM declare before = .ok after) :
    LaidOut layout empty type (Machine.fresh grid after type) where
  fresh := rfl
  grid := hgrid
  extent := (foldlM_declare hafter).1.trans hbefore.extent
  stackAt b := by
    show (after.get? b).join = _
    rw [(foldlM_declare hafter).2, hbefore.get?]
    show _ = if grid.extent.blocks.contains b then _ else _
    split <;> rfl

theorem laidOut_of_ofLayout {layout : Layout} (h : ofLayout type layout = .ok m) :
    LaidOut layout .empty type m ∧ m.grid = gridOf layout.rows := by
  obtain ⟨plane, hplane, hm⟩ := Outcome.bind_eq_ok_iff.mp h
  have hheight : 0 ≤ (gridOf layout.rows).extent.blocks.height :=
    blocksCovering_nonneg (Int.natCast_nonneg _)
  have huniform := uniform_emptyStacks hheight
  rw [assemble_eq_ok ((foldlM_declare hplane).1.trans huniform.extent)] at hm
  cases hm
  exact ⟨laidOut_fresh (shows_gridOf layout.rows) huniform hplane, rfl⟩

theorem laidOut_of_load (h : load conv type source = .ok m) :
    ∃ layout, Layout.read conv ((Text.splitLines source.toList).map Text.dropLineEnd) = .ok layout ∧
      LaidOut layout .empty type m ∧ m.grid = gridOf layout.rows := by
  obtain ⟨layout, hlayout, hm⟩ := Outcome.bind_eq_ok_iff.mp h
  exact ⟨layout, hlayout, laidOut_of_ofLayout hm⟩

theorem Uniform.isSome_iff {plane : StackPlane} {e : Extent} {s : Stack Number}
    (h : Uniform plane e s) (b : Pointer) : (plane.get? b).join.isSome ↔ e.contains b = true := by
  rw [h.get?]
  by_cases hb : e.contains b = true
  · rw [if_pos hb]
    exact ⟨fun _ => hb, fun _ => rfl⟩
  · rw [if_neg hb]
    exact ⟨fun hn => Bool.noConfusion hn, fun hc => absurd hc hb⟩

/-- A layout becomes a machine exactly where it declares numbers for its own blocks only. -/
theorem exists_ofLayout_iff {layout : Layout} :
    (∃ m, ofLayout type layout = .ok m) ↔
      ∀ d ∈ layout.declarations, (gridOf layout.rows).extent.blocks.contains d.block = true := by
  have hheight : 0 ≤ (gridOf layout.rows).extent.blocks.height :=
    blocksCovering_nonneg (Int.natCast_nonneg _)
  have huniform := uniform_emptyStacks hheight
  constructor
  · rintro ⟨m, hm⟩ d hd
    obtain ⟨plane, hplane, -⟩ := Outcome.bind_eq_ok_iff.mp hm
    exact (huniform.isSome_iff d.block).mp (exists_foldlM_declare_iff.mp ⟨plane, hplane⟩ d hd)
  · intro hblocks
    obtain ⟨plane, hplane⟩ := exists_foldlM_declare_iff.mpr fun d hd =>
      (huniform.isSome_iff d.block).mpr (hblocks d hd)
    refine ⟨Machine.fresh (gridOf layout.rows) plane type, ?_⟩
    refine Outcome.bind_eq_ok_iff.mpr ⟨plane, hplane, ?_⟩
    exact assemble_eq_ok ((foldlM_declare hplane).1.trans huniform.extent)

/-- The frame has a size that exists and room for the layout. -/
structure Frame.Fits (f : Frame) (layout : Layout) : Prop where
  width_nonneg : 0 ≤ f.extent.width
  height_nonneg : 0 ≤ f.extent.height
  capacity_pos : (∃ b, f.extent.blocks.contains b = true) → 1 ≤ f.capacity
  rows : RowsFit f.extent layout.rows
  blocks : ∀ d ∈ layout.declarations, f.extent.blocks.contains d.block = true

theorem laidOut_of_build (h : build conv type f source = .ok m) :
    ∃ layout, Layout.read conv (Text.splitLines source.toList) = .ok layout ∧ f.Fits layout ∧
      LaidOut layout (.ring (Ring.empty f.capacity.toNat)) type m ∧ m.grid.extent = f.extent := by
  obtain ⟨s, hs, hrest⟩ := Outcome.bind_eq_ok_iff.mp h
  obtain ⟨t, ht, hm⟩ := Outcome.bind_eq_ok_iff.mp hrest
  obtain ⟨hblank, hrings⟩ := site_eq_ok hs
  obtain ⟨huniform, hcap⟩ := uniform_emptyRings hrings
  obtain ⟨layout, hlayout, hcarries⟩ := carries_of_foldlM_place hblank ht
  have hext := hcarries.grid.extent
  have hfits : f.Fits layout := by
    obtain ⟨hwidth, hheight⟩ := nonneg_of_site hs
    refine ⟨hwidth, hheight, hcap, hcarries.fits, fun d hd => ?_⟩
    have hfound := exists_foldlM_declare_iff.mp ⟨_, hcarries.declared⟩ d hd
    exact (huniform.isSome_iff d.block).mp hfound
  rw [← hext] at huniform
  rw [assemble_eq_ok ((foldlM_declare hcarries.declared).1.trans huniform.extent)] at hm
  cases hm
  have hgrid : Shows t.grid t.grid.extent layout.rows := by
    rw [hext]
    exact hcarries.grid
  exact ⟨layout, hlayout, hfits, laidOut_fresh hgrid huniform hcarries.declared, hext⟩

theorem exists_placed {layout : Layout} {lines : List (List Char)}
    (hlayout : Layout.read conv lines = .ok layout) (hfits : f.Fits layout) :
    ∃ s t, f.site = .ok s ∧ lines.foldlM (Site.place conv) s = .ok t := by
  obtain ⟨s, hs⟩ := exists_site hfits.width_nonneg hfits.height_nonneg hfits.capacity_pos
  obtain ⟨hblank, hrings⟩ := site_eq_ok hs
  have huniform := (uniform_emptyRings hrings).1
  have hfound : ∀ d ∈ layout.declarations, (s.stackPlane.get? d.block).join.isSome :=
    fun d hd => (huniform.isSome_iff d.block).mpr (hfits.blocks d hd)
  obtain ⟨t, ht⟩ := (exists_foldlM_place_iff hblank).mpr ⟨layout, hlayout, hfits.rows, hfound⟩
  exact ⟨s, t, hs, ht⟩

theorem exists_build {layout : Layout}
    (hlayout : Layout.read conv (Text.splitLines source.toList) = .ok layout)
    (hfits : f.Fits layout) : ∃ m, build conv type f source = .ok m := by
  obtain ⟨s, t, hs, ht⟩ := exists_placed hlayout hfits
  obtain ⟨hblank, hrings⟩ := site_eq_ok hs
  have huniform := (uniform_emptyRings hrings).1
  obtain ⟨_, _, hcarries⟩ := carries_of_foldlM_place hblank ht
  have hext : t.stackPlane.extent = t.grid.extent.blocks := by
    rw [(foldlM_declare hcarries.declared).1, huniform.extent, hcarries.grid.extent]
  refine ⟨Machine.fresh t.grid t.stackPlane type, ?_⟩
  refine Outcome.bind_eq_ok_iff.mpr ⟨s, hs, Outcome.bind_eq_ok_iff.mpr ⟨t, ht, ?_⟩⟩
  exact assemble_eq_ok hext

/-! ## Loaded machines -/

/-- The machine is what a loader of either kind makes of some text. -/
inductive Loaded (conv : Converters) (type : NumberType) (m : Machine) : Prop where
  | grown (source : String) (h : load conv type source = .ok m)
  | built (f : Frame) (source : String) (h : build conv type f source = .ok m)

theorem Loaded.laidOut (h : Loaded conv type m) :
    ∃ lines layout empty, Layout.read conv lines = .ok layout ∧
      (empty = .empty ∨ ∃ n, empty = .ring (Ring.empty n)) ∧ LaidOut layout empty type m := by
  cases h with
  | grown source h =>
    obtain ⟨layout, hread, hlaid, -⟩ := laidOut_of_load h
    exact ⟨_, layout, .empty, hread, .inl rfl, hlaid⟩
  | built f source h =>
    obtain ⟨layout, hread, -, hlaid, -⟩ := laidOut_of_build h
    exact ⟨_, layout, _, hread, .inr ⟨_, rfl⟩, hlaid⟩

end Program
end MatrixStack
