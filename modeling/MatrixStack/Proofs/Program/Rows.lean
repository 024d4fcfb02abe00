/-
The cells that the rows of a program text put into a grid.

`cellAt` reads a cell off the rows.  A grid that grows is made of the rows at once (`shows_gridOf`)
and a fixed one is written cell by cell (`Shows.set`); either way its cells are those of the rows.
A row is written without an error exactly where it can be read and fits (`placeRow_eq_ok`,
`exists_placeRow`).
-/
import MatrixStack.Program.Fixed
import MatrixStack.Proofs.Plane.Generated
import MatrixStack.Proofs.Program.Declarations
import MatrixStack.Proofs.Program.Lines

namespace MatrixStack
namespace Program

/-- The cell that the rows have at a pointer: blank where they have no instruction. -/
def cellAt (rows : List (List Instruction)) (q : Pointer) : Cell :=
  ((rows[q.y.toNat]?.bind fun row => row[q.x.toNat]?).map Cell.instruction).getD blankCell

theorem exists_cellAt (rows : List (List Instruction)) (q : Pointer) :
    ∃ i, cellAt rows q = .instruction i := by
  unfold cellAt
  cases rows[q.y.toNat]?.bind fun row => row[q.x.toNat]? with
  | none => exact ⟨.blank, rfl⟩
  | some i => exact ⟨i, rfl⟩

/-- The grid has the given extent, and in it the cells of the rows. -/
structure Shows (grid : Plane Cell) (e : Extent) (rows : List (List Instruction)) : Prop where
  extent : grid.extent = e
  get? : ∀ q, grid.get? q = if e.contains q then some (cellAt rows q) else none

theorem shows_gridOf (rows : List (List Instruction)) :
    Shows (gridOf rows) (gridOf rows).extent rows where
  extent := rfl
  get? q := by
    show RowPlane.get? _ q = _
    rw [RowPlane.get?_padded]
    show (if (gridOf rows).extent.contains q then _ else none) = _
    congr 2
    unfold cellAt
    rw [List.getElem?_map, Option.map_bind, Option.bind_map]
    congr 2
    funext row
    exact List.getElem?_map

/-! ## Writing a row -/

variable {grid grid' : Plane Cell} {e : Extent} {rows : List (List Instruction)}

theorem cellAt_of_lt {q : Pointer} (hq : q.y.toNat < rows.length) (row : List Instruction) :
    cellAt (rows ++ [row]) q = cellAt rows q := by
  rw [cellAt, List.getElem?_append_left hq]
  rfl

theorem cellAt_of_eq {q : Pointer} (hq : q.y.toNat = rows.length) (row : List Instruction) :
    cellAt (rows ++ [row]) q = (row[q.x.toNat]?.map Cell.instruction).getD blankCell := by
  rw [cellAt, List.getElem?_append_right (by omega), hq, Nat.sub_self]
  rfl

theorem cellAt_of_gt {q : Pointer} (hq : rows.length < q.y.toNat) (row : List Instruction) :
    cellAt (rows ++ [row]) q = blankCell := by
  have hlen : (rows ++ [row]).length ≤ q.y.toNat := by
    rw [List.length_append, List.length_singleton]
    omega
  rw [cellAt, List.getElem?_eq_none hlen]
  rfl

theorem cellAt_of_le {q : Pointer} (hq : rows.length ≤ q.y.toNat) : cellAt rows q = blankCell := by
  rw [cellAt, List.getElem?_eq_none hq]
  rfl

theorem Shows.concat_nil (h : Shows grid e rows) : Shows grid e (rows ++ [[]]) where
  extent := h.extent
  get? q := by
    rw [h.get?]
    congr 2
    rcases Nat.lt_trichotomy q.y.toNat rows.length with hlt | heq | hgt
    · rw [cellAt_of_lt hlt]
    · rw [cellAt_of_eq heq, cellAt_of_le (Nat.le_of_eq heq.symm)]
      rfl
    · rw [cellAt_of_gt hgt, cellAt_of_le (Nat.le_of_lt hgt)]

/-- The cells after one more instruction at the end of the last row. -/
theorem cellAt_concat (rows : List (List Instruction)) (row : List Instruction) (i : Instruction)
    {q : Pointer} (hx : 0 ≤ q.x) (hy : 0 ≤ q.y) :
    cellAt (rows ++ [row ++ [i]]) q =
      if q = ⟨(row.length : Nat), (rows.length : Nat)⟩ then .instruction i
      else cellAt (rows ++ [row]) q := by
  have hiff : q = ⟨(row.length : Nat), (rows.length : Nat)⟩ ↔
      q.x.toNat = row.length ∧ q.y.toNat = rows.length := by
    obtain ⟨x, y⟩ := q
    rw [Pointer.mk.injEq]
    show x = _ ∧ y = _ ↔ x.toNat = _ ∧ y.toNat = _
    simp only at hx hy
    omega
  rcases Nat.lt_trichotomy q.y.toNat rows.length with hlt | heq | hgt
  · rw [if_neg fun hq => by have := (hiff.mp hq).2; omega, cellAt_of_lt hlt, cellAt_of_lt hlt]
  · rw [cellAt_of_eq heq, cellAt_of_eq heq]
    rcases Nat.lt_trichotomy q.x.toNat row.length with hltx | heqx | hgtx
    · rw [if_neg fun hq => by have := (hiff.mp hq).1; omega, List.getElem?_append_left hltx]
    · rw [if_pos (hiff.mpr ⟨heqx, heq⟩), List.getElem?_append_right (by omega), heqx,
        Nat.sub_self]
      rfl
    · have hlen : (row ++ [i]).length ≤ q.x.toNat := by
        rw [List.length_append, List.length_singleton]
        omega
      rw [if_neg fun hq => by have := (hiff.mp hq).1; omega, List.getElem?_eq_none hlen,
        List.getElem?_eq_none (by omega)]
  · rw [if_neg fun hq => by have := (hiff.mp hq).2; omega, cellAt_of_gt hgt, cellAt_of_gt hgt]

theorem Shows.set (h : Shows grid e (rows ++ [row])) {i : Instruction}
    (hset : grid.set? ⟨(row.length : Nat), (rows.length : Nat)⟩ (.instruction i) = some grid') :
    Shows grid' e (rows ++ [row ++ [i]]) where
  extent := (Plane.extent_of_set? hset).trans h.extent
  get? q := by
    rw [Plane.get?_of_set? hset, h.get?]
    by_cases hq : e.contains q = true
    · have hq' := Extent.contains_iff.mp hq
      rw [cellAt_concat rows row i hq'.1 hq'.2.2.1, if_pos hq, if_pos hq]
      split <;> rfl
    · have hin := Plane.set?_isSome_iff.mp (Option.isSome_of_eq_some hset)
      rw [h.extent] at hin
      have hne : q ≠ ⟨(row.length : Nat), (rows.length : Nat)⟩ := fun heq => hq (heq ▸ hin)
      rw [if_neg hne, if_neg hq, if_neg hq]

/-- The row lies within the extent where it is written from a column of a line on. -/
def FitsAt (e : Extent) (y x : Nat) (row : List Instruction) : Prop :=
  ∀ k, k < row.length → e.contains ⟨(x + k : Nat), (y : Nat)⟩ = true

theorem FitsAt.cons {y x : Nat} {row : List Instruction}
    (hfirst : e.contains ⟨(x : Nat), (y : Nat)⟩ = true) (h : FitsAt e y (x + 1) row)
    (i : Instruction) : FitsAt e y x (i :: row) := by
  intro k hk
  cases k with
  | zero => exact hfirst
  | succ k =>
    have hrest := h k (Nat.lt_of_succ_lt_succ hk)
    rwa [show x + 1 + k = x + (k + 1) by omega] at hrest

theorem FitsAt.head {y x : Nat} {i : Instruction} {row : List Instruction}
    (h : FitsAt e y x (i :: row)) : e.contains ⟨(x : Nat), (y : Nat)⟩ = true :=
  h 0 (Nat.succ_pos _)

theorem FitsAt.tail {y x : Nat} {i : Instruction} {row : List Instruction}
    (h : FitsAt e y x (i :: row)) : FitsAt e y (x + 1) row := by
  intro k hk
  have hnext := h (k + 1) (by rw [List.length_cons]; omega)
  rwa [show x + (k + 1) = x + 1 + k by omega] at hnext

/-- A row without instructions fits anywhere, below the last line of the grid too. -/
theorem fitsAt_zero_iff {y : Nat} {row : List Instruction} :
    FitsAt e y 0 row ↔ row ≠ [] → (y : Int) < e.height ∧ (row.length : Int) ≤ e.width := by
  constructor
  · intro h hne
    have hlen := List.length_pos_iff.mpr hne
    have hlast := Extent.contains_iff.mp (h (row.length - 1) (by omega))
    simp only at hlast
    omega
  · intro h k hk
    obtain ⟨hy, hx⟩ := h (List.ne_nil_of_length_pos (Nat.zero_lt_of_lt hk))
    rw [Extent.contains_iff]
    simp only
    omega

theorem placeRow_eq_ok {row : List Instruction} {cs : List Char}
    (h : Shows grid e (rows ++ [row]))
    (hplace : Site.placeRow grid rows.length row.length cs = .ok grid') :
    ∃ more, cs.mapM Line.readInstruction = .ok more ∧ FitsAt e rows.length row.length more ∧
      Shows grid' e (rows ++ [row ++ more]) := by
  induction cs generalizing grid row with
  | nil =>
    cases hplace
    refine ⟨[], rfl, fun k hk => absurd hk (Nat.not_lt_zero k), ?_⟩
    rwa [List.append_nil]
  | cons c rest ih =>
    rw [Site.placeRow] at hplace
    cases hi : Line.readInstruction c with
    | error cause =>
      rw [hi] at hplace
      cases hplace
    | ok i =>
      rw [hi] at hplace
      simp only at hplace
      cases hset : grid.set? ⟨(row.length : Nat), (rows.length : Nat)⟩ (.instruction i) with
      | none =>
        rw [hset] at hplace
        cases hplace
      | some mid =>
        rw [hset] at hplace
        have hmid := h.set hset
        have hrest : Site.placeRow mid rows.length (row ++ [i]).length rest = .ok grid' := by
          rw [List.length_append]
          exact hplace
        obtain ⟨more, hmore, hfits, hshows⟩ := ih hmid hrest
        refine ⟨i :: more, ?_, ?_, ?_⟩
        · exact Outcome.mapM_cons_eq_ok_iff.mpr ⟨i, more, hi, hmore, rfl⟩
        · have hin := Plane.set?_isSome_iff.mp (Option.isSome_of_eq_some hset)
          rw [h.extent] at hin
          rw [List.length_append] at hfits
          exact hfits.cons hin i
        · rwa [List.append_assoc] at hshows

theorem exists_placeRow {y x : Nat} {cs : List Char} {row : List Instruction}
    (hext : grid.extent = e) (hrow : cs.mapM Line.readInstruction = .ok row)
    (hfits : FitsAt e y x row) :
    ∃ grid', Site.placeRow grid y x cs = .ok grid' ∧ grid'.extent = e := by
  rw [Outcome.mapM_eq_ok_iff] at hrow
  induction hrow generalizing grid x with
  | nil => exact ⟨grid, rfl, hext⟩
  | cons hi _ ih =>
    have hin := hfits.head
    rw [← hext] at hin
    obtain ⟨mid, hmid⟩ := Option.isSome_iff_exists.mp (Plane.set?_isSome_iff.mpr hin)
    obtain ⟨grid', hplace, hext'⟩ := ih ((Plane.extent_of_set? hmid).trans hext) hfits.tail
    refine ⟨grid', ?_, hext'⟩
    rw [Site.placeRow, hi]
    simp only
    rw [hmid]
    exact hplace

/-! ## Writing all rows -/

/-- Every row lies within the extent on the line of the grid that it goes to. -/
def RowsFit (e : Extent) (rows : List (List Instruction)) : Prop :=
  ∀ y row, rows[y]? = some row → FitsAt e y 0 row

/-- Every row that is not empty has a line of the grid, and ends before the line does. -/
def RowsWithin {α : Type} (e : Extent) (rows : List (List α)) : Prop :=
  ∀ (y : Nat) row, rows[y]? = some row → row ≠ [] →
    (y : Int) < e.height ∧ (row.length : Int) ≤ e.width

theorem rowsFit_iff : RowsFit e rows ↔ RowsWithin e rows := by
  simp only [RowsFit, RowsWithin, fitsAt_zero_iff]

theorem rowsWithin_iff_lengths {α : Type} {rows : List (List α)} : RowsWithin e rows ↔
    ∀ (y : Nat) n, (rows.map List.length)[y]? = some n → n ≠ 0 →
      (y : Int) < e.height ∧ (n : Int) ≤ e.width := by
  constructor
  · intro h y n hn hne
    rw [List.getElem?_map, Option.map_eq_some_iff] at hn
    obtain ⟨row, hrow, rfl⟩ := hn
    exact h y row hrow (List.length_pos_iff.mp (Nat.pos_of_ne_zero hne))
  · intro h y row hrow hne
    refine h y row.length ?_ fun hlen => hne (List.length_eq_zero_iff.mp hlen)
    rw [List.getElem?_map, hrow, Option.map_some]

theorem rowsFit_nil (e : Extent) : RowsFit e [] := by
  intro y row hrow
  cases hrow

theorem RowsFit.concat (h : RowsFit e rows) {row : List Instruction}
    (hlast : FitsAt e rows.length 0 row) : RowsFit e (rows ++ [row]) := by
  intro y row' hrow
  rcases Nat.lt_or_ge y rows.length with hlt | hge
  · rw [List.getElem?_append_left hlt] at hrow
    exact h y row' hrow
  · have hy : y = rows.length := by
      have hlen := (List.getElem?_eq_some_iff.mp hrow).1
      rw [List.length_append, List.length_singleton] at hlen
      omega
    rw [hy, List.getElem?_concat_length] at hrow
    cases hrow
    rwa [hy]

theorem RowsFit.enlarge {e' : Extent} (h : RowsFit e rows) (hw : e.width ≤ e'.width)
    (hh : e.height ≤ e'.height) : RowsFit e' rows := by
  intro y row hrow k hk
  exact Extent.contains_mono hw hh (h y row hrow k hk)

theorem RowsFit.of_append {more : List (List Instruction)} (h : RowsFit e (rows ++ more)) :
    RowsFit e rows := by
  intro y row' hrow
  apply h
  rw [List.getElem?_append_left (List.getElem?_eq_some_iff.mp hrow).1]
  exact hrow

theorem RowsFit.last {row : List Instruction} (h : RowsFit e (rows ++ [row])) :
    FitsAt e rows.length 0 row :=
  h _ _ List.getElem?_concat_length

end Program
end MatrixStack
