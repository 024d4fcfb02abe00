/-
Programs on a grid of fixed size, with stacks of fixed capacity.

The text is carried out in order: a row is written cell by cell, and a declaration pushes its
numbers at once.  The first character that is no instruction, or that falls outside the grid,
decides the error.
-/
import MatrixStack.Program.Growable

namespace MatrixStack
namespace Program

/-- The size of a machine that does not grow. -/
structure Frame where
  extent : Extent
  capacity : Int
  deriving DecidableEq

/-- A program under construction, and the line of the grid that the next row goes to. -/
structure Site where
  grid : Plane Cell
  stackPlane : StackPlane
  y : Nat
  deriving DecidableEq

namespace Frame

/-- A plane of empty rings; the capacity matters only where there is a ring. -/
def emptyRings (f : Frame) : Except LoadError StackPlane := do
  let e := f.extent.blocks
  if e.pointers.isEmpty then
    let stackPlane ← (FixedPlane.create e fun _ => none).mapError .negativeExtent
    return .fixed stackPlane
  else
    let ring ← (Stack.createRing f.capacity).mapError .noCapacity
    let stackPlane ← (FixedPlane.create e fun _ => some ring).mapError .negativeExtent
    return .fixed stackPlane

/-- The blank grid and the empty rings. -/
def site (f : Frame) : Except LoadError Site := do
  let grid ← (FixedPlane.create f.extent fun _ => blankCell).mapError .negativeExtent
  return ⟨.fixed grid, ← f.emptyRings, 0⟩

end Frame

namespace Site

/-- Write a row from a column on. -/
def placeRow (grid : Plane Cell) (y : Nat) (x : Nat) : List Char → Except LoadError (Plane Cell)
  | [] => .ok grid
  | c :: rest =>
    match Line.readInstruction c with
    | .error e => .error e
    | .ok i =>
      match grid.set? ⟨x, y⟩ (.instruction i) with
      | none => .error (.instructionOutOfRange ⟨x + 1, y⟩ i.char)
      | some grid => placeRow grid y (x + 1) rest

/-- Carry out one line. -/
def place (conv : Converters) (s : Site) (line : List Char) : Except LoadError Site :=
  match line with
  | '#' :: _ => .ok s
  | 's' :: _ => do
    let d ← Declaration.read conv line
    return { s with stackPlane := ← declare s.stackPlane d }
  | _ => do
    let grid ← placeRow s.grid s.y 0 (Line.rowChars line)
    return { s with grid := grid, y := s.y + 1 }

end Site

/-- Build a machine of the given size from a text. -/
def build (conv : Converters) (type : NumberType) (f : Frame) (source : String) :
    Except LoadError Machine := do
  let site ← f.site
  let done ← (Text.splitLines source.toList).foldlM (Site.place conv) site
  assemble type done.grid done.stackPlane

end Program
end MatrixStack
