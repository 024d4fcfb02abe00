/-
The panels of the debugger, as plain text.

The grid panel shows every row with its number, the cursor, and a dot for a blank at the cursor
and at the corner of each block.  The state panel shows the register, the cursor and the counters.
The stack panel lists the stack under the cursor and every other stack that is not empty, top
first.  A panel with a number too long to be printed cannot be shown.
-/
import MatrixStack.Machine.Basic
import MatrixStack.Number.Literal

namespace MatrixStack
namespace Panel

/-- A part of a text in a style of its own, from its first character to behind its last. -/
structure Span where
  start : Nat
  stop : Nat
  style : String
  deriving DecidableEq

/-- A piece of text, and its style if it has one. -/
structure Piece where
  text : String
  style : Option String
  deriving DecidableEq

def textOf (pieces : List Piece) : String := String.join (pieces.map Piece.text)

/-- The spans of the pieces with a style, counted from an offset on. -/
def spansFrom (offset : Nat) : List Piece → List Span
  | [] => []
  | p :: rest =>
    let next := offset + p.text.length
    match p.style with
    | some style => ⟨offset, next, style⟩ :: spansFrom next rest
    | none => spansFrom next rest

/-- The text of a cell in the grid. -/
def cellText : Cell → String
  | .instruction i => String.singleton i.char
  | .foreign _ | .vacant => ""

def dot : String := "·"

def cursorStyle : String := "bold reverse"

def isCorner (p : Pointer) : Bool := p.x % Pointer.blockSize = 0 && p.y % Pointer.blockSize = 0

def cellPiece (m : Machine) (p : Pointer) : Piece :=
  let text := ((m.grid.get? p).map cellText).getD ""
  if p = m.pointer then ⟨if text = " " then dot else text, some cursorStyle⟩
  else if isCorner p && text = " " then ⟨dot, none⟩
  else ⟨text, none⟩

/-- The number of a row, right aligned in three columns, and a bar. -/
def rowLabel (y : Nat) : String :=
  let digits := y.repr
  String.ofList (List.replicate (3 - digits.length) ' ') ++ digits ++ "│ "

def rowPieces (m : Machine) (y : Nat) : List Piece :=
  let cells := (List.range m.grid.extent.width.toNat).map fun (x : Nat) => cellPiece m ⟨x, y⟩
  ⟨rowLabel y, none⟩ :: cells ++ [⟨"\n", none⟩]

def gridPieces (m : Machine) : List Piece :=
  if m.grid.extent.height = 0 then [⟨"(empty program)", none⟩]
  else (List.range m.grid.extent.height.toNat).flatMap (rowPieces m)

def gridText (m : Machine) : String := textOf (gridPieces m)

def gridSpans (m : Machine) : List Span := spansFrom 0 (gridPieces m)

/-- The character of a cell, or the cell itself if it holds no instruction. -/
def cellChar : Cell → Except Cell Char
  | .instruction i => .ok i.char
  | cell => .error cell

/-- One row of the grid as characters. -/
def rowChars (m : Machine) (y : Nat) : Except Cell (List Char) :=
  (List.range m.grid.extent.width.toNat).mapM fun (x : Nat) =>
    cellChar ((m.grid.get? ⟨x, y⟩).getD .vacant)

/-- The rows of the grid without numbers or cursor, or the first cell that has no character. -/
def gridRows (m : Machine) : Except Cell (List String) :=
  (List.range m.grid.extent.height.toNat).mapM fun (y : Nat) =>
    (rowChars m y).map String.ofList

def pointerText (m : Machine) : String :=
  m.pointer.text ++ if m.grid.extent.contains m.pointer then "" else " [outside]"

def stateText? (m : Machine) : Option String :=
  m.register.printed?.map fun register =>
    "State:     " ++ m.state.name ++ "\n" ++
    "Register:  " ++ register ++ "\n" ++
    "Pointer:   " ++ pointerText m ++ "\n" ++
    "Direction: " ++ m.direction.name ++ "\n" ++
    "Steps:     " ++ m.steps.repr ++ "\n" ++
    "Type:      " ++ m.numberType.name ++ "\n" ++
    "Grid:      " ++ m.grid.extent.text ++ "  Stacks: " ++ m.stackPlane.extent.text

/-- The line of one stack, or nothing to show; the outer option is about printing. -/
def stackLine? (m : Machine) (p : Pointer) (items : List Number) : Option (List String) :=
  let current := p = m.pointer.block
  if items.isEmpty && !current then some []
  else
    (items.reverse.mapM Number.printed?).map fun numerals =>
      let values := if numerals.isEmpty then "(empty)" else " ".intercalate numerals
      [(if current then "▸" else " ") ++ " " ++ p.text ++ ": " ++ values]

def stackLines? (m : Machine) : Option (List String) :=
  let lines := m.stackPlane.cells.mapM fun (p, s) => stackLine? m p ((s.map Stack.items).getD [])
  lines.map List.flatten

def stacksText? (m : Machine) : Option String :=
  (stackLines? m).map fun lines =>
    if lines.isEmpty then "(all empty)" else "\n".intercalate lines

end Panel
end MatrixStack
