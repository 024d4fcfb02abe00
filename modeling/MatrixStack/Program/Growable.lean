/-
Programs on a grid as large as their text.

The grid is as wide as the longest row and has a line for every row; short rows end in blanks.
Declarations are carried out once every row is known, so they may stand before the rows that make
room for their stack.
-/
import MatrixStack.Program.Line
import MatrixStack.Text.Line

namespace MatrixStack
namespace Program

/-- What a text gives, line by line: its rows, and its declarations in order. -/
structure Layout where
  rows : List (List Instruction)
  declarations : List Declaration
  deriving DecidableEq

/-- Read every line; the first that is wrong decides the error. -/
def Layout.read (conv : Converters) (lines : List (List Char)) : Except LoadError Layout := do
  let lines ← lines.mapM (Line.read conv)
  return ⟨lines.filterMap Line.row?, lines.filterMap Line.declaration?⟩

def blankCell : Cell := .instruction .blank

def gridOf (rows : List (List Instruction)) : Plane Cell :=
  .rows (RowPlane.padded (rows.map fun row => row.map Cell.instruction) blankCell)

/-- A plane of empty stacks that grow. -/
def emptyStacks (e : Extent) : StackPlane := .rows (.generate e none fun _ => some .empty)

/-- Push the numbers of a declaration onto its stack. -/
def declare (stackPlane : StackPlane) (d : Declaration) : Except LoadError StackPlane :=
  match (stackPlane.get? d.block).join with
  | none => .error (.stackOutOfRange d.block)
  | some stack => .ok (stackPlane.set d.block (some (stack.pushAll d.values)))

def assemble (type : NumberType) (grid : Plane Cell) (stackPlane : StackPlane) :
    Except LoadError Machine :=
  (Machine.create grid stackPlane type).mapError .sizeMismatch

def ofLayout (type : NumberType) (layout : Layout) : Except LoadError Machine := do
  let grid := gridOf layout.rows
  let stackPlane ← layout.declarations.foldlM declare (emptyStacks grid.extent.blocks)
  assemble type grid stackPlane

/-- Load a program from its lines, with or without their line ends. -/
def ofLines (conv : Converters) (type : NumberType) (lines : List (List Char)) :
    Except LoadError Machine := do
  ofLayout type (← Layout.read conv (lines.map Text.dropLineEnd))

/-- Load a program from a text. -/
def load (conv : Converters) (type : NumberType) (source : String) : Except LoadError Machine :=
  ofLines conv type (Text.splitLines source.toList)

end Program
end MatrixStack
