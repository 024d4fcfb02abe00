/-
The extent of a plane: its width and height, and the pointers inside it.
-/
import MatrixStack.Direction

namespace MatrixStack

structure Extent where
  width : Int
  height : Int
  deriving DecidableEq

namespace Extent

def contains (e : Extent) (p : Pointer) : Bool :=
  0 ≤ p.x && p.x < e.width && 0 ≤ p.y && p.y < e.height

theorem contains_iff {e : Extent} {p : Pointer} :
    e.contains p = true ↔ 0 ≤ p.x ∧ p.x < e.width ∧ 0 ≤ p.y ∧ p.y < e.height := by
  simp [contains, and_assoc]

theorem contains_mono {e e' : Extent} (hw : e.width ≤ e'.width) (hh : e.height ≤ e'.height)
    {p : Pointer} (hp : e.contains p = true) : e'.contains p = true := by
  rw [contains_iff] at hp ⊢
  omega

/-- Every pointer inside, row by row. -/
def pointers (e : Extent) : List Pointer :=
  (List.range e.height.toNat).flatMap fun (y : Nat) =>
    (List.range e.width.toNat).map fun (x : Nat) => ⟨x, y⟩

theorem mem_pointers_iff {e : Extent} {p : Pointer} : p ∈ e.pointers ↔ e.contains p = true := by
  obtain ⟨px, py⟩ := p
  simp only [pointers, List.mem_flatMap, List.mem_map, List.mem_range, Pointer.mk.injEq,
    contains_iff]
  constructor
  · rintro ⟨y, hy, x, hx, rfl, rfl⟩
    omega
  · rintro ⟨hx0, hx, hy0, hy⟩
    exact ⟨py.toNat, by omega, px.toNat, by omega, by omega, by omega⟩

/-- The extent of the plane of blocks over a plane of this extent. -/
def blocks (e : Extent) : Extent := ⟨blocksCovering e.width, blocksCovering e.height⟩

theorem contains_blocks_mono {e e' : Extent} (hw : e.width ≤ e'.width)
    (hh : e.height ≤ e'.height) {b : Pointer} (hb : e.blocks.contains b = true) :
    e'.blocks.contains b = true :=
  contains_mono (blocksCovering_le hw) (blocksCovering_le hh) hb

theorem contains_blocks {e : Extent} {p : Pointer} (h : e.contains p = true) :
    e.blocks.contains p.block = true := by
  rw [contains_iff] at h ⊢
  have hx := block_lt_blocksCovering h.2.1
  have hy := block_lt_blocksCovering h.2.2.2
  simp only [blocks, Pointer.block, Pointer.blockSize] at hx hy ⊢
  omega

/-- The extent as width and height with a cross between. -/
def text (e : Extent) : String := Decimal.text e.width ++ "x" ++ Decimal.text e.height

def print? (e : Extent) : Option String :=
  if Decimal.printable e.width && Decimal.printable e.height then some e.text else none

end Extent
end MatrixStack
