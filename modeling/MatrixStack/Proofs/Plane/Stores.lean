/-
Planes as stores of cells.

A store is used by reading and writing cells, by asking whether a pointer is inside, and by listing
its cells or its size.  Every plane keeps a cell for each pointer inside its extent and for no other
(`keeps_extent`), whatever it has been used for.  Two planes of one extent that read alike answer
every sequence of uses alike (`Alike.replies`), so it makes no difference whether a row is as long as
the plane is wide, shorter, or longer, or whether the cells stand in one block.
-/
import MatrixStack.Proofs.Plane.Generated

namespace MatrixStack

/-- The first pointer comes before the second one, row by row. -/
def Pointer.RowMajor (q s : Pointer) : Prop := q.y < s.y ∨ q.y = s.y ∧ q.x < s.x

theorem Extent.pairwise_pointers (e : Extent) : e.pointers.Pairwise Pointer.RowMajor := by
  unfold pointers
  refine List.pairwise_flatMap.mpr ⟨fun y _ => ?_, ?_⟩
  · refine List.pairwise_map.mpr (List.pairwise_lt_range.imp fun hx => .inr ⟨rfl, ?_⟩)
    exact Int.ofNat_lt.mpr hx
  · refine List.pairwise_lt_range.imp fun hy q hq s hs => .inl ?_
    obtain ⟨x, -, rfl⟩ := List.mem_map.mp hq
    obtain ⟨x', -, rfl⟩ := List.mem_map.mp hs
    exact Int.ofNat_lt.mpr hy

namespace Plane

variable {α : Type}

/-! ## Uses -/

inductive Use (α : Type) where
  | get (q : Pointer)
  | set (q : Pointer) (a : α)
  | contains (q : Pointer)
  | cells
  | size

inductive Reply (α : Type) where
  | cell (found : Option α)
  | yes (b : Bool)
  | cells (found : List (Pointer × α))
  | size (e : Extent)
  deriving DecidableEq

/-- What a plane replies to a use. -/
def reply (p : Plane α) : Use α → Reply α
  | .get q => .cell (p.get? q)
  | .set q a => .yes (p.set? q a).isSome
  | .contains q => .yes (p.extent.contains q)
  | .cells => .cells p.cells
  | .size => .size p.extent

/-- What a use makes of a plane. -/
def used (p : Plane α) : Use α → Plane α
  | .set q a => p.set q a
  | .get _ | .contains _ | .cells | .size => p

/-- The plane after a sequence of uses. -/
def after (p : Plane α) (uses : List (Use α)) : Plane α := uses.foldl used p

/-- The replies to a sequence of uses. -/
def replies (p : Plane α) : List (Use α) → List (Reply α)
  | [] => []
  | u :: uses => p.reply u :: (p.used u).replies uses

/-! ## Planes that read alike -/

structure Alike (p p' : Plane α) : Prop where
  extent : p.extent = p'.extent
  get? : ∀ q, p.get? q = p'.get? q

variable {p p' : Plane α}

theorem Alike.reply (h : p.Alike p') (u : Use α) : p.reply u = p'.reply u := by
  cases u with
  | get q => exact congrArg Reply.cell (h.get? q)
  | set q a =>
    have hsome : (p.set? q a).isSome = (p'.set? q a).isSome := by
      rw [Bool.eq_iff_iff, set?_isSome_iff, set?_isSome_iff, h.extent]
    exact congrArg Reply.yes hsome
  | contains q => exact congrArg (fun e => Reply.yes (Extent.contains e q)) h.extent
  | cells =>
    have hcells : p.cells = p'.cells := by
      simp only [cells, h.extent, h.get?]
    exact congrArg Reply.cells hcells
  | size => exact congrArg Reply.size h.extent

theorem Alike.used (h : p.Alike p') (u : Use α) : (p.used u).Alike (p'.used u) := by
  cases u with
  | set q a =>
    refine ⟨?_, fun s => ?_⟩
    · show (p.set q a).extent = (p'.set q a).extent
      rw [extent_set, extent_set, h.extent]
    · show (p.set q a).get? s = (p'.set q a).get? s
      rw [get?_set, get?_set, h.extent, h.get?]
  | get | contains | cells | size => exact h

theorem Alike.replies (h : p.Alike p') (uses : List (Use α)) :
    p.replies uses = p'.replies uses := by
  induction uses generalizing p p' with
  | nil => rfl
  | cons u uses ih =>
    show _ :: _ = _ :: _
    rw [h.reply u, ih (h.used u)]

/-! ## What every plane keeps -/

/-- The plane has a cell for each pointer of the extent and for no other, a write inside changes the
one cell that it names, a write outside changes nothing, and the cells are listed row by row. -/
structure Keeps (p : Plane α) (e : Extent) : Prop where
  size : p.extent = e
  contains : ∀ q, p.extent.contains q = true ↔
    (0 ≤ q.x ∧ q.x < e.width) ∧ (0 ≤ q.y ∧ q.y < e.height)
  get_outside : ∀ q, p.extent.contains q = false → p.get? q = none
  set_inside : ∀ q a, p.extent.contains q = true → (p.set? q a).isSome = true ∧
    (p.set q a).get? q = some a ∧ ∀ s, s ≠ q → (p.set q a).get? s = p.get? s
  set_outside : ∀ q a, p.extent.contains q = false → (p.set? q a).isSome = false ∧ p.set q a = p
  cells_once : (p.cells.map Prod.fst).Pairwise Pointer.RowMajor
  cells_all : ∀ q, q ∈ p.cells.map Prod.fst ↔ p.extent.contains q = true
  cells_current : ∀ q a, (q, a) ∈ p.cells → p.get? q = some a

theorem map_fst_cells (p : Plane α) : p.cells.map Prod.fst = p.extent.pointers := by
  have hinside : ∀ q ∈ p.extent.pointers, ∃ a, p.get? q = some a := fun q hq =>
    Option.isSome_iff_exists.mp (get?_isSome_iff.mpr (Extent.mem_pointers_iff.mp hq))
  unfold cells
  generalize p.extent.pointers = qs at hinside
  induction qs with
  | nil => rfl
  | cons q qs ih =>
    obtain ⟨⟨a, ha⟩, hrest⟩ := List.forall_mem_cons.mp hinside
    simp only [List.filterMap_cons, ha, Option.map_some, List.map_cons, ih hrest]

theorem keeps_extent (p : Plane α) : p.Keeps p.extent where
  size := rfl
  contains q := by rw [Extent.contains_iff, and_assoc]
  get_outside q hq := get?_eq_none_iff.mpr hq
  set_inside q a hq := by
    refine ⟨set?_isSome_iff.mpr hq, ?_, fun s hs => ?_⟩
    · rw [get?_set, if_pos ⟨rfl, hq⟩]
    · rw [get?_set, if_neg fun h => hs h.1]
  set_outside q a hq := by
    have hnone : p.set? q a = none := by
      rw [← Option.not_isSome_iff_eq_none, set?_isSome_iff, hq]
      exact Bool.false_ne_true
    rw [set, hnone]
    exact ⟨rfl, rfl⟩
  cells_once := by
    rw [map_fst_cells]
    exact p.extent.pairwise_pointers
  cells_all q := by rw [map_fst_cells, Extent.mem_pointers_iff]
  cells_current q a h := by
    obtain ⟨s, -, hs⟩ := List.mem_filterMap.mp h
    obtain ⟨a', ha', heq⟩ := Option.map_eq_some_iff.mp hs
    cases heq
    exact ha'

theorem extent_after (p : Plane α) (uses : List (Use α)) : (p.after uses).extent = p.extent := by
  induction uses generalizing p with
  | nil => rfl
  | cons u uses ih =>
    refine (ih (p.used u)).trans ?_
    cases u with
    | set q a => exact extent_set p q a
    | get | contains | cells | size => rfl

theorem keeps_after (p : Plane α) (uses : List (Use α)) : (p.after uses).Keeps p.extent := by
  have hkeeps := keeps_extent (p.after uses)
  rwa [extent_after] at hkeeps

end Plane

/-! ## Planes over the same cells -/

variable {α : Type}

namespace FixedPlane

/-- The pointer to the cell of a number, counted row by row. -/
def pointerTo (width k : Nat) : Pointer := ⟨(k % width : Nat), (k / width : Nat)⟩

theorem pointerTo_slot {w h : Nat} {q : Pointer} (hq : (Extent.mk w h).contains q = true) :
    pointerTo w (slot w q) = q := by
  have hq' := Extent.contains_iff.mp hq
  simp only at hq'
  have hx : q.x.toNat < w := by omega
  have hmod : slot w q % w = q.x.toNat := by
    rw [slot, Nat.mul_add_mod_of_lt hx]
  have hdiv : slot w q / w = q.y.toNat := by
    rw [slot, Nat.mul_comm, Nat.mul_add_div (by omega), Nat.div_eq_of_lt hx, Nat.add_zero]
  rw [pointerTo, hmod, hdiv, Int.toNat_of_nonneg hq'.1, Int.toNat_of_nonneg hq'.2.2.1]

end FixedPlane

/-- The cell of a number in a plane, counted row by row. -/
def Plane.numbered (p : Plane α) (default : α) (k : Nat) : α :=
  (p.get? (FixedPlane.pointerTo p.extent.width.toNat k)).getD default

theorem Plane.alike_of_create {p : Plane α} {default : α} {f : FixedPlane α}
    (h : FixedPlane.create p.extent (p.numbered default) = .ok f) :
    (Plane.fixed f).Alike p := by
  obtain ⟨hext, hget⟩ := FixedPlane.create_eq_ok h
  refine ⟨hext, fun q => (hget q).trans ?_⟩
  by_cases hq : p.extent.contains q = true
  · have hq' := Extent.contains_iff.mp hq
    have hsize := Extent.ofNat_toNat (e := p.extent) (by omega) (by omega)
    obtain ⟨a, ha⟩ := Option.isSome_iff_exists.mp (get?_isSome_iff.mpr hq)
    rw [if_pos hq, numbered, FixedPlane.pointerTo_slot (hsize.symm ▸ hq), ha]
    rfl
  · rw [if_neg hq, get?_eq_none_iff.mpr (Bool.not_eq_true _ ▸ hq)]

namespace RowPlane

/-- The plane over some rows, as wide as the longest of them where no width is given. -/
def ofRows (rows : List (List α)) (default : α) (width : Option Nat) : RowPlane α :=
  ⟨rows, default, (width.getD (longest rows) : Nat)⟩

theorem alike_padded (rows : List (List α)) (default : α) :
    (Plane.rows (padded rows default)).Alike (.rows (ragged rows default)) := by
  have hext := extent_padded rows default
  refine ⟨hext, fun q => (get?_padded rows default q).trans ?_⟩
  show _ = if (Extent.mk (longest rows) rows.length).contains q = true then _ else _
  rw [hext, cellOf]
  cases hrow : rows[q.y.toNat]? with
  | none => simp [ragged, hrow]
  | some row => simp [ragged, hrow]

end RowPlane

/-- A plane over rows of any lengths, the same rows filled up, and one block of the same cells give
the same replies, whatever the sequence of uses. -/
theorem Plane.rows_padded_fixed_interchangeable (rows : List (List α)) (default : α)
    (width : Option Nat) :
    let e : Extent := ⟨(width.getD (RowPlane.longest rows) : Nat), rows.length⟩
    let p := Plane.rows (RowPlane.ofRows rows default width)
    let padded := Plane.rows (RowPlane.padded rows default)
    ∃ f, FixedPlane.create e (p.numbered default) = .ok f ∧ ∀ uses,
      ((Plane.fixed f).replies uses = p.replies uses ∧
        ((Plane.fixed f).after uses).Keeps e ∧ (p.after uses).Keeps e) ∧
      (width = none → padded.replies uses = p.replies uses ∧ (padded.after uses).Keeps e) := by
  intro e p padded
  obtain ⟨f, hf⟩ := FixedPlane.exists_create (e := e) (Int.natCast_nonneg _) (Int.natCast_nonneg _)
    (p.numbered default)
  have hfixed : (Plane.fixed f).Alike p := alike_of_create hf
  refine ⟨f, hf, fun uses => ⟨⟨hfixed.replies uses, ?_, keeps_after p uses⟩, ?_⟩⟩
  · have hkeeps := keeps_after (.fixed f) uses
    rwa [hfixed.extent] at hkeeps
  · rintro rfl
    -- Without a width the plane over the rows is the ragged one.
    have hpadded : padded.Alike p := RowPlane.alike_padded rows default
    refine ⟨hpadded.replies uses, ?_⟩
    have hkeeps := keeps_after padded uses
    rwa [hpadded.extent] at hkeeps

/-- A write into a short row, in all three planes over two rows. -/
theorem Plane.interchangeable_over_a_short_row :
    let uses : List (Use Nat) := [.set ⟨2, 1⟩ 9, .get ⟨1, 1⟩, .get ⟨-1, 0⟩, .set ⟨3, 0⟩ 5, .cells]
    let replies : List (Reply Nat) := [.yes true, .cell (some 0), .cell none, .yes false,
      .cells [(⟨0, 0⟩, 1), (⟨1, 0⟩, 2), (⟨2, 0⟩, 3), (⟨0, 1⟩, 4), (⟨1, 1⟩, 0), (⟨2, 1⟩, 9)]]
    let p := Plane.rows (RowPlane.ofRows [[1, 2, 3], [4]] 0 none)
    ∃ f, FixedPlane.create ⟨3, 2⟩ (p.numbered 0) = .ok f ∧ p.replies uses = replies ∧
      (Plane.fixed f).replies uses = replies ∧
      (Plane.rows (RowPlane.padded [[1, 2, 3], [4]] 0)).replies uses = replies := by
  intro uses replies p
  obtain ⟨f, hf, hall⟩ := rows_padded_fixed_interchangeable [[1, 2, 3], [4]] 0 none
  obtain ⟨⟨hfixed, -, -⟩, hnone⟩ := hall uses
  have hp : p.replies uses = replies := by decide
  exact ⟨f, hf, hp, hfixed.trans hp, (hnone rfl).1.trans hp⟩

end MatrixStack
