/-
Directions and pointers.

A direction is two bits: one for the axis, one for the sign along it.  A pointer is a pair of
integers; moving it along a direction changes one component by one, and that component is taken
modulo two to the power of 64, so a step below zero lands on the greatest pointer and not on the
far side of a grid.
-/
import MatrixStack.Text.Decimal

namespace MatrixStack

inductive Direction where
  | right | left | down | up
  deriving DecidableEq

namespace Direction

def all : List Direction := [.right, .left, .down, .up]

def name : Direction → String
  | .right => "RIGHT"
  | .left => "LEFT"
  | .down => "DOWN"
  | .up => "UP"

def vertical : Direction → Bool
  | .right | .left => false
  | .down | .up => true

def decreasing : Direction → Bool
  | .right | .down => false
  | .left | .up => true

/-- The axis as bit 1 and the sign as bit 0. -/
def code (d : Direction) : Nat := 2 * d.vertical.toNat + d.decreasing.toNat

/-- The other sign along the same axis. -/
def reverse : Direction → Direction
  | .right => .left
  | .left => .right
  | .down => .up
  | .up => .down

/-- The same sign along the other axis. -/
def transpose : Direction → Direction
  | .right => .down
  | .left => .up
  | .down => .right
  | .up => .left

def clockwise : Direction → Direction
  | .right => .down
  | .down => .left
  | .left => .up
  | .up => .right

def counterClockwise : Direction → Direction
  | .right => .up
  | .up => .left
  | .left => .down
  | .down => .right

theorem code_injective {d d' : Direction} (h : d.code = d'.code) : d = d' := by
  cases d <;> cases d' <;> first | rfl | cases h

theorem code_reverse (d : Direction) : d.reverse.code = d.code ^^^ 0b01 := by cases d <;> rfl

theorem code_transpose (d : Direction) : d.transpose.code = d.code ^^^ 0b10 := by cases d <;> rfl

/-- A turn changes the axis, and the sign too where the axis was vertical. -/
theorem code_clockwise (d : Direction) :
    d.clockwise.code = d.code ^^^ 0b10 ^^^ ((d.code >>> 1) &&& 0b01) := by
  cases d <;> rfl

theorem code_counterClockwise (d : Direction) :
    d.counterClockwise.code = d.code ^^^ 0b10 ^^^ 0b01 ^^^ ((d.code >>> 1) &&& 0b01) := by
  cases d <;> rfl

@[simp] theorem reverse_reverse (d : Direction) : d.reverse.reverse = d := by cases d <;> rfl

@[simp] theorem transpose_transpose (d : Direction) : d.transpose.transpose = d := by
  cases d <;> rfl

@[simp] theorem counterClockwise_clockwise (d : Direction) :
    d.clockwise.counterClockwise = d := by
  cases d <;> rfl

@[simp] theorem clockwise_counterClockwise (d : Direction) :
    d.counterClockwise.clockwise = d := by
  cases d <;> rfl

end Direction

structure Pointer where
  x : Int
  y : Int
  deriving DecidableEq

namespace Pointer

def origin : Pointer := ⟨0, 0⟩

/-- Pointer components are taken modulo this number after a move. -/
def modulus : Nat := 0x10000000000000000

def text (p : Pointer) : String :=
  "(" ++ Decimal.text p.x ++ ", " ++ Decimal.text p.y ++ ")"

def printable (p : Pointer) : Bool := Decimal.printable p.x && Decimal.printable p.y

def print? (p : Pointer) : Option String := if p.printable then some p.text else none

def advance (p : Pointer) (d : Direction) : Pointer :=
  let delta : Int := if d.decreasing then -1 else 1
  if d.vertical then ⟨p.x, (p.y + delta) % modulus⟩ else ⟨(p.x + delta) % modulus, p.y⟩

/-- Cells share a stack in square blocks of this size. -/
def blockSize : Nat := 4

/-- The block that a cell belongs to. -/
def block (p : Pointer) : Pointer := ⟨p.x / blockSize, p.y / blockSize⟩

end Pointer

/-- The number of blocks that cover a length of cells. -/
def blocksCovering (length : Int) : Int := -(-length / Pointer.blockSize)

theorem block_lt_blocksCovering {i n : Int} (h : i < n) :
    i / Pointer.blockSize < blocksCovering n := by
  simp only [blocksCovering, Pointer.blockSize]
  omega

theorem blocksCovering_le {m n : Int} (h : m ≤ n) : blocksCovering m ≤ blocksCovering n := by
  simp only [blocksCovering, Pointer.blockSize]
  omega

theorem blocksCovering_nonneg {n : Int} (h : 0 ≤ n) : 0 ≤ blocksCovering n := by
  simp only [blocksCovering, Pointer.blockSize]
  omega

end MatrixStack
