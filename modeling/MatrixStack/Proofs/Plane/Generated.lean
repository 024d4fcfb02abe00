/-
What stands in the cells of a new plane.
-/
import MatrixStack.Plane.Basic

namespace MatrixStack

variable {α : Type}

theorem Extent.ofNat_toNat {e : Extent} (hw : 0 ≤ e.width) (hh : 0 ≤ e.height) :
    Extent.mk e.width.toNat e.height.toNat = e := by
  rw [Int.toNat_of_nonneg hw, Int.toNat_of_nonneg hh]

theorem Extent.contains_of_pointers_isEmpty {e : Extent} (h : e.pointers.isEmpty = true)
    (q : Pointer) : e.contains q = false := by
  rw [Bool.eq_false_iff]
  intro hq
  rw [← Extent.mem_pointers_iff, List.isEmpty_iff.mp h] at hq
  exact List.not_mem_nil hq

namespace RowPlane

theorem extent_generate {e : Extent} (hh : 0 ≤ e.height) (default : α) (cell : Nat → α) :
    (generate e default cell).extent = e := by
  show Extent.mk e.width ((List.range e.height.toNat).map _).length = e
  rw [List.length_map, List.length_range, Int.toNat_of_nonneg hh]

theorem get?_generate_const {e : Extent} (hh : 0 ≤ e.height) (default a : α) (q : Pointer) :
    (generate e default fun _ => a).get? q = if e.contains q then some a else none := by
  rw [get?, extent_generate hh]
  by_cases hq : e.contains q = true
  · rw [if_pos hq, if_pos hq]
    have hq' := Extent.contains_iff.mp hq
    have hx : q.x.toNat < e.width.toNat := by omega
    have hy : q.y.toNat < e.height.toNat := by omega
    simp [generate, cellOf, hx, hy]
  · rw [if_neg hq, if_neg hq]

theorem extent_padded (rows : List (List α)) (default : α) :
    (padded rows default).extent = ⟨longest rows, rows.length⟩ := by
  show Extent.mk (longest rows) ((rows.map _).length : Int) = _
  rw [List.length_map]

theorem cellOf_padRow (default : α) (length : Nat) (row : List α) (x : Nat) :
    cellOf default (padRow default length row) x = cellOf default row x := by
  unfold cellOf padRow
  by_cases hx : x < row.length
  · rw [List.getElem?_append_left hx]
  · rw [List.getElem?_append_right (by omega), List.getElem?_replicate,
      List.getElem?_eq_none (by omega)]
    split <;> rfl

/-- A cell of a padded plane comes from its row, or is the default where the row has none. -/
theorem get?_padded (rows : List (List α)) (default : α) (q : Pointer) :
    (padded rows default).get? q =
      if (padded rows default).extent.contains q then
        some ((rows[q.y.toNat]?.bind fun row => row[q.x.toNat]?).getD default)
      else none := by
  rw [get?]
  by_cases hq : (padded rows default).extent.contains q = true
  · rw [if_pos hq, if_pos hq]
    have hq' := Extent.contains_iff.mp hq
    rw [extent_padded] at hq'
    have hy : q.y.toNat < rows.length := by
      have := hq'.2.2.2
      simp only at this
      omega
    show some (cellOf default ((rows.map (padRow default (longest rows)))[q.y.toNat]?.getD [])
      q.x.toNat) = _
    rw [List.getElem?_map, List.getElem?_eq_getElem hy, Option.map_some, Option.getD_some,
      cellOf_padRow]
    rfl
  · rw [if_neg hq, if_neg hq]

end RowPlane

namespace FixedPlane

theorem get?_generate {width height : Nat} (cell : Nat → α) (q : Pointer) :
    (generate width height cell).get? q =
      if (Extent.mk width height).contains q then some (cell (slot width q)) else none := by
  show (if (Extent.mk width height).contains q then _ else none) = _
  by_cases hq : (Extent.mk width height).contains q = true
  · rw [if_pos hq, if_pos hq]
    show (Array.ofFn fun i : Fin (width * height) => cell i)[slot width q]? = _
    rw [Array.getElem?_ofFn, dif_pos (slot_lt hq)]
  · rw [if_neg hq, if_neg hq]

theorem create_eq_ok {e : Extent} {cell : Nat → α} {p : FixedPlane α} (h : create e cell = .ok p) :
    p.extent = e ∧
      ∀ q, p.get? q = if e.contains q then some (cell (slot e.width.toNat q)) else none := by
  unfold create at h
  split at h
  case isTrue => cases h
  case isFalse hneg =>
    cases h
    have he := Extent.ofNat_toNat (e := e) (by omega) (by omega)
    refine ⟨he, fun q => ?_⟩
    rw [get?_generate, he]

theorem exists_create {e : Extent} (hw : 0 ≤ e.width) (hh : 0 ≤ e.height) (cell : Nat → α) :
    ∃ p, create e cell = .ok p := by
  unfold create
  rw [if_neg (by omega)]
  exact ⟨_, rfl⟩

end FixedPlane
end MatrixStack
