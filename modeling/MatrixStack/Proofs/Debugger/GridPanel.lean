/-
The grid panel, read back.

Every row of the grid is a line of the panel: its number and a bar, and then its cells, in which a
dot stands for a blank at the cursor or at the corner of a block.  No instruction is written as a
dot, so that undoing the dots gives the characters of the row (`rowChars_eq_undot`), and grids of
one size with the same panel have the same cells (`alike_of_gridText`), wherever the cursors are.
-/
import MatrixStack.Debugger.Panel
import MatrixStack.Proofs.Machine.WellFormed
import MatrixStack.Proofs.Plane.Stores
import MatrixStack.Proofs.Program.Outcome
import MatrixStack.Proofs.Text.Fields

namespace MatrixStack
namespace Panel

variable {t : NumberType} {m m' : Machine} {p : Pointer} {i : Instruction}

/-! ## Cells -/

/-- The blank that a dot stands for, and every other character. -/
def undot (c : Char) : Char := if c = '·' then ' ' else c

/-- The character that is shown for an instruction at a place. -/
def shownChar (m : Machine) (p : Pointer) (i : Instruction) : Char :=
  if i.char = ' ' ∧ (p = m.pointer ∨ isCorner p = true) then '·' else i.char

theorem undot_char (i : Instruction) : undot i.char = i.char := by
  refine if_neg fun hdot => ?_
  have hnone : Instruction.ofChar? '·' = some i := hdot ▸ i.ofChar?_char
  cases hnone

theorem undot_shownChar (m : Machine) (p : Pointer) (i : Instruction) :
    undot (shownChar m p i) = i.char := by
  unfold shownChar
  split
  case isTrue h => exact h.1.symm
  case isFalse => exact undot_char i

theorem newline_ne_char (i : Instruction) : '\n' ≠ i.char := by
  intro hnewline
  have hnone : Instruction.ofChar? '\n' = some i := hnewline ▸ i.ofChar?_char
  cases hnone

theorem newline_ne_shownChar (m : Machine) (p : Pointer) (i : Instruction) :
    '\n' ≠ shownChar m p i := by
  unfold shownChar
  split
  · decide
  · exact newline_ne_char i

theorem singleton_eq_iff {c d : Char} : String.singleton c = String.singleton d ↔ c = d := by
  rw [← String.toList_inj, String.toList_singleton, String.toList_singleton]
  exact List.singleton_inj

theorem text_cellPiece (h : m.grid.get? p = some (.instruction i)) :
    (cellPiece m p).text = String.singleton (shownChar m p i) := by
  have htext : ((m.grid.get? p).map cellText).getD "" = String.singleton i.char := by
    rw [h]
    rfl
  have hblank : String.singleton i.char = " " ↔ i.char = ' ' := singleton_eq_iff (d := ' ')
  unfold cellPiece shownChar
  simp only [htext, hblank, Bool.and_eq_true, decide_eq_true_eq]
  by_cases hp : p = m.pointer
  · simp only [eq_true hp, if_true, true_or, and_true]
    split <;> rfl
  · simp only [eq_false hp, if_false, false_or, and_comm]
    split <;> rfl

/-! ## Rows -/

/-- The instruction of a cell; outside the grid there is a blank. -/
def instructionAt (m : Machine) (p : Pointer) : Instruction :=
  match m.grid.get? p with
  | some (.instruction i) => i
  | _ => .blank

theorem instructionAt_eq (h : m.grid.get? p = some (.instruction i)) : instructionAt m p = i := by
  rw [instructionAt, h]

def shownRow (m : Machine) (y : Nat) : List Char :=
  (List.range m.grid.extent.width.toNat).map fun (x : Nat) =>
    shownChar m ⟨x, y⟩ (instructionAt m ⟨x, y⟩)

theorem get?_of_range (hm : m.WellFormed t) {x y : Nat}
    (hx : x ∈ List.range m.grid.extent.width.toNat) (hy : y < m.grid.extent.height.toNat) :
    m.grid.get? ⟨x, y⟩ = some (.instruction (instructionAt m ⟨x, y⟩)) := by
  have hx := List.mem_range.mp hx
  have hp : m.grid.extent.contains ⟨x, y⟩ = true := by
    rw [Extent.contains_iff]
    simp only
    omega
  obtain ⟨i, hi⟩ := hm.cells _ hp
  rw [instructionAt_eq hi, hi]

/-- The line of a row, its number and bar left out, is the row but for its dots. -/
theorem rowChars_eq_undot (hm : m.WellFormed t) {y : Nat} (hy : y < m.grid.extent.height.toNat) :
    rowChars m y = .ok ((shownRow m y).map undot) := by
  rw [rowChars, shownRow, List.map_map, Outcome.mapM_eq_ok_iff, List.forall₂_map_right_iff,
    List.forall₂_same]
  intro x hx
  rw [get?_of_range hm hx hy]
  exact congrArg Except.ok (undot_shownChar m _ _).symm

theorem toList_rowPieces (hm : m.WellFormed t) {y : Nat} (hy : y < m.grid.extent.height.toNat) :
    (textOf (rowPieces m y)).toList = ((rowLabel y).toList ++ shownRow m y) ++ ['\n'] := by
  have hcells : (List.range m.grid.extent.width.toNat).flatMap
      (fun (x : Nat) => (cellPiece m ⟨x, y⟩).text.toList) = shownRow m y := by
    rw [shownRow, List.map_eq_flatMap]
    refine List.flatMap_congr fun x hx => ?_
    rw [text_cellPiece (get?_of_range hm hx hy), String.toList_singleton]
  rw [textOf, rowPieces, String.toList_join]
  simp only [List.map_cons, List.map_append, List.map_map, List.flatMap_cons, List.flatMap_append,
    List.flatMap_map, List.map_nil, List.flatMap_nil, List.cons_append]
  simp [hcells]

/-! ## The panel -/

theorem oneLine_rowLabel (y : Nat) : Text.OneLine (rowLabel y) := by
  have hpadding : Text.OneLine (String.ofList (List.replicate (3 - y.repr.length) ' ')) := by
    simp [Text.OneLine]
  exact (hpadding.append (Decimal.oneLine_text y)).append (by decide)

theorem linesIn_gridText (hm : m.WellFormed t) (hheight : m.grid.extent.height ≠ 0) :
    Text.linesIn (gridText m) = (List.range m.grid.extent.height.toNat).map
      (fun y => (rowLabel y).toList ++ shownRow m y) ++ [[]] := by
  have hrow : ∀ y ∈ List.range m.grid.extent.height.toNat,
      (textOf (rowPieces m y)).toList = ((rowLabel y).toList ++ shownRow m y) ++ ['\n'] :=
    fun y hy => toList_rowPieces hm (List.mem_range.mp hy)
  have htext : (gridText m).toList = ((List.range m.grid.extent.height.toNat).map
      fun y => (rowLabel y).toList ++ shownRow m y).flatMap (· ++ ['\n']) := by
    rw [gridText, gridPieces, if_neg hheight, textOf, String.toList_join, List.flatMap_map,
      List.flatMap_assoc, List.flatMap_map]
    refine List.flatMap_congr fun y hy => ?_
    rw [← hrow y hy, textOf, String.toList_join, List.flatMap_map]
  rw [Text.linesIn, htext]
  refine Text.splitOn_ended fun line hline => ?_
  obtain ⟨y, -, rfl⟩ := List.mem_map.mp hline
  rw [List.mem_append, not_or]
  refine ⟨oneLine_rowLabel y, fun hnewline => ?_⟩
  obtain ⟨x, -, hx⟩ := List.mem_map.mp hnewline
  exact newline_ne_shownChar m _ _ hx.symm

/-- Every row has a line, with its number in front. -/
theorem getElem?_linesIn_gridText (hm : m.WellFormed t) {y : Nat}
    (hy : y < m.grid.extent.height.toNat) :
    (Text.linesIn (gridText m))[y]? = some ((rowLabel y).toList ++ shownRow m y) := by
  rw [linesIn_gridText hm (by omega), List.getElem?_append_left (by simpa using hy),
    List.getElem?_map, List.getElem?_range hy, Option.map_some]

theorem shownRow_eq_of_gridText {t' : NumberType} (hm : m.WellFormed t) (hm' : m'.WellFormed t')
    (hextent : m'.grid.extent = m.grid.extent) (h : gridText m' = gridText m) {y : Nat}
    (hy : y < m.grid.extent.height.toNat) : shownRow m' y = shownRow m y := by
  have hline := getElem?_linesIn_gridText hm' (hextent ▸ hy)
  rw [h, getElem?_linesIn_gridText hm hy] at hline
  exact (List.append_cancel_left (Option.some.inj hline)).symm

/-- Grids of one size with the same panel have the same cells. -/
theorem alike_of_gridText {t' : NumberType} (hm : m.WellFormed t) (hm' : m'.WellFormed t')
    (hextent : m'.grid.extent = m.grid.extent) (h : gridText m' = gridText m) :
    m'.grid.Alike m.grid := by
  refine ⟨hextent, fun p => ?_⟩
  by_cases hp : m.grid.extent.contains p = true
  · obtain ⟨hx, hxw, hy, hyh⟩ := Extent.contains_iff.mp hp
    obtain ⟨x, hpx⟩ := Int.eq_ofNat_of_zero_le hx
    obtain ⟨y, hpy⟩ := Int.eq_ofNat_of_zero_le hy
    obtain rfl : p = ⟨x, y⟩ := by
      cases p
      simp_all
    have hrow : y < m.grid.extent.height.toNat := by
      simp only at hyh
      omega
    have hcolumn : x < m.grid.extent.width.toNat := by
      simp only at hxw
      omega
    -- The two lines show the same character, and undoing the dots leaves that of the instruction.
    have hshown := congrArg (fun row => (row.map undot)[x]?)
      (shownRow_eq_of_gridText hm hm' hextent h hrow)
    simp only [shownRow, hextent, List.map_map, List.getElem?_map, List.getElem?_range hcolumn,
      Option.map_some, Option.some.injEq, Function.comp_apply, undot_shownChar] at hshown
    have hmem := List.mem_range.mpr hcolumn
    rw [get?_of_range hm hmem hrow, get?_of_range hm' (hextent ▸ hmem) (hextent ▸ hrow),
      Instruction.char_injective hshown]
  · have hnone := Plane.get?_eq_none_iff.mpr (Bool.not_eq_true _ ▸ hp)
    rw [hnone, Plane.get?_eq_none_iff, hextent]
    exact Bool.not_eq_true _ ▸ hp

end Panel
end MatrixStack
