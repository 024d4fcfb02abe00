/-
Planes of rows of full length.

Rows that are shorter or longer than their plane is wide make planes that answer every read alike
and are not equal.  Planes whose rows all have the width are equal as soon as they read alike
(`Full.ext`).  A generated plane is of this kind (`full_generate`) and stays so under writes
(`Full.of_set?`).
-/
import MatrixStack.Proofs.Plane.Generated

namespace MatrixStack
namespace RowPlane

variable {α : Type}

/-- Every row is as long as the plane is wide. -/
def Full (p : RowPlane α) : Prop := ∀ row ∈ p.rows, (row.length : Int) = p.width

theorem full_generate {e : Extent} (hw : 0 ≤ e.width) (default : α) (cell : Nat → α) :
    (generate e default cell).Full := by
  intro row hrow
  obtain ⟨y, -, rfl⟩ := List.mem_map.mp hrow
  rw [List.length_map, List.length_range, Int.toNat_of_nonneg hw]
  rfl

theorem length_setRow {row : List α} {x : Nat} (hx : x < row.length) (default a : α) :
    (setRow default row x a).length = row.length := by
  rw [setRow, List.length_set, padRow, List.length_append, List.length_replicate]
  omega

theorem default_of_set? {p r : RowPlane α} {q : Pointer} {a : α} (h : p.set? q a = some r) :
    r.default = p.default := by
  unfold set? at h
  split at h
  · cases h
    rfl
  · cases h

theorem Full.of_set? {p r : RowPlane α} {q : Pointer} {a : α} (hp : p.Full)
    (h : p.set? q a = some r) : r.Full := by
  have hq := Extent.contains_iff.mp (set?_isSome_iff.mp (Option.isSome_of_eq_some h))
  unfold set? at h
  split at h
  case isFalse => cases h
  case isTrue =>
    cases h
    intro row hrow
    obtain ⟨y, hy⟩ := List.mem_iff_getElem?.mp hrow
    rw [List.getElem?_modify] at hy
    obtain ⟨row₀, hrow₀, rfl⟩ := Option.map_eq_some_iff.mp hy
    have hlen := hp row₀ (List.mem_of_getElem? hrow₀)
    split
    · have hx : q.x.toNat < row₀.length := by
        have hwidth : q.x < p.width := hq.2.1
        omega
      rw [length_setRow hx]
      exact hlen
    · exact hlen

theorem Full.get?_eq {p : RowPlane α} (hp : p.Full) {y x : Nat} (hy : y < p.rows.length)
    (hx : x < p.rows[y].length) : p.get? ⟨x, y⟩ = some p.rows[y][x] := by
  have hlen := hp p.rows[y] (List.getElem_mem hy)
  have hin : p.extent.contains ⟨x, y⟩ = true := by
    rw [Extent.contains_iff]
    show 0 ≤ (x : Int) ∧ (x : Int) < p.width ∧ 0 ≤ (y : Int) ∧ (y : Int) < p.rows.length
    omega
  rw [get?, if_pos hin]
  show some (cellOf p.default (p.rows[y]?.getD []) x) = _
  rw [List.getElem?_eq_getElem hy, Option.getD_some, cellOf, List.getElem?_eq_getElem hx,
    Option.getD_some]

/-- Full planes that read alike are equal. -/
theorem Full.ext {p q : RowPlane α} (hp : p.Full) (hq : q.Full) (hdefault : p.default = q.default)
    (hext : p.extent = q.extent) (hget : ∀ r, p.get? r = q.get? r) : p = q := by
  have hwidth : p.width = q.width := congrArg Extent.width hext
  have hheight : p.rows.length = q.rows.length := by
    have : (p.rows.length : Int) = q.rows.length := congrArg Extent.height hext
    omega
  -- Rows of equal length are equal cell by cell, and no read of a full plane gives the default.
  have hrows : p.rows = q.rows := by
    refine List.ext_getElem hheight fun y hy hy' => ?_
    have hlen : p.rows[y].length = q.rows[y].length := by
      have := hp _ (List.getElem_mem hy)
      have := hq _ (List.getElem_mem hy')
      omega
    refine List.ext_getElem hlen fun x hx hx' => ?_
    have hread := hget ⟨x, y⟩
    rw [hp.get?_eq hy hx, hq.get?_eq hy' hx'] at hread
    exact Option.some.inj hread
  obtain ⟨rows, default, width⟩ := p
  obtain ⟨rows', default', width'⟩ := q
  obtain rfl : rows = rows' := hrows
  obtain rfl : default = default' := hdefault
  obtain rfl : width = width' := hwidth
  rfl

end RowPlane
end MatrixStack
