/-
The machine: a cursor on a grid of instructions, a register, and a stack for each block of cells.

`step` executes the instruction under the cursor and moves the cursor; outside the grid it stops
the machine.  A step that faults has counted itself and changed nothing else, except that a
refused arithmetic has taken its operand from the stack.  A fault of the machine has a message with
the cell or the cursor in it, and where that message cannot be made there is another fault instead.
`input` answers a request for a number.
-/
import MatrixStack.Machine.Effect
import MatrixStack.Plane.Basic

namespace MatrixStack

/-- An object that is no instruction.  All that is ever asked of it is to be written, which it may
refuse with a message of its own. -/
inductive Foreign where
  | written (text : String)
  | refusing (message : String)
  deriving DecidableEq

/-- What a cell of the grid holds: an instruction, an object that is none, or nothing. -/
inductive Cell where
  | instruction (i : Instruction)
  | foreign (o : Foreign)
  | vacant
  deriving DecidableEq

inductive State where
  | running | stopped | inputWaiting
  deriving DecidableEq

def State.name : State → String
  | .running => "running"
  | .stopped => "stopped"
  | .inputWaiting => "input_waiting"

/-- Why a step cannot be executed. -/
inductive Fault where
  | noStack (p : Pointer)
  | notInstruction (text : String)
  | arithmetic (cause : NumberError)
  /-- The cursor is in a block without a stack, and too far out to be told where. -/
  | unprintable
  /-- The object in the cell refuses to be written. -/
  | unwritten (message : String)
  deriving DecidableEq

namespace Fault

def message : Fault → String
  | .noStack p => "no stack for pointer " ++ p.text
  | .notInstruction text => "not an instruction: " ++ text
  | .arithmetic cause => cause.message
  | .unprintable => Decimal.unprintableMessage
  | .unwritten message => message

/-- The fault is one of the machine itself.  The others come up while an operand or a message is
worked out, and those who report the faults of a machine do not report them. -/
def ofMachine : Fault → Bool
  | .noStack _ | .notInstruction _ => true
  | .arithmetic _ | .unprintable | .unwritten _ => false

/-- The fault of an instruction that finds no stack. -/
def ofPointer (p : Pointer) : Fault := if p.printable then .noStack p else .unprintable

/-- The fault of a cell that holds no instruction. -/
def ofForeign : Foreign → Fault
  | .written text => .notInstruction text
  | .refusing message => .unwritten message

end Fault

/-- The plane of stacks; a cell without a stack is a hole. -/
abbrev StackPlane := Plane (Option (Stack Number))

structure Machine where
  grid : Plane Cell
  stackPlane : StackPlane
  numberType : NumberType
  state : State
  register : Number
  pointer : Pointer
  direction : Direction
  steps : Nat
  outputs : Nat
  inputs : Nat
  deriving DecidableEq

/-- A plane of stacks that does not cover the grid block by block. -/
structure SizeMismatch where
  stackExtent : Extent
  gridExtent : Extent
  deriving DecidableEq

def SizeMismatch.message (e : SizeMismatch) : String :=
  Decimal.messageWith do
    let actual ← e.stackExtent.print?
    let expected ← e.gridExtent.blocks.print?
    let grid ← e.gridExtent.print?
    return "stack plane is " ++ actual ++ ", expected " ++ expected ++ " for a " ++ grid ++
      " program"

namespace Machine

/-- A machine before its first step. -/
def fresh (grid : Plane Cell) (stackPlane : StackPlane) (type : NumberType) : Machine where
  grid := grid
  stackPlane := stackPlane
  numberType := type
  state := .running
  register := .zero type
  pointer := .origin
  direction := .right
  steps := 0
  outputs := 0
  inputs := 0

def create (grid : Plane Cell) (stackPlane : StackPlane) (type : NumberType) :
    Except SizeMismatch Machine :=
  if stackPlane.extent = grid.extent.blocks then .ok (fresh grid stackPlane type)
  else .error ⟨stackPlane.extent, grid.extent⟩

/-- The cell under the cursor, if there is anything in it. -/
def current? (m : Machine) : Option Cell :=
  match m.grid.get? m.pointer with
  | none | some .vacant => none
  | some cell => some cell

def stackAt? (m : Machine) (block : Pointer) : Option (Stack Number) :=
  (m.stackPlane.get? block).join

/-- The stack of the block under the cursor. -/
def currentStack? (m : Machine) : Option (Stack Number) := m.stackAt? m.pointer.block

def setCurrentStack (m : Machine) (s : Stack Number) : Machine :=
  { m with stackPlane := m.stackPlane.set m.pointer.block (some s) }

def advance (m : Machine) : Machine := { m with pointer := m.pointer.advance m.direction }

/-- The instruction's effect, before the cursor moves. -/
def execute (m : Machine) : Instruction → Except Fault (Option Number) × Machine
  | .blank => (.ok none, m)
  | .deflector d => (.ok none, { m with direction := d.deflect m.direction })
  | .operator o =>
    match m.currentStack? with
    | none => (.error (.ofPointer m.pointer), m)
    | some stack =>
      match o.apply m.numberType m.register stack with
      | (.error cause, rest) => (.error (.arithmetic cause), m.setCurrentStack rest)
      | (.ok v, rest) => (.ok none, { m.setCurrentStack rest with register := v })
  | .comparator c =>
    match m.currentStack? with
    | none => (.error (.ofPointer m.pointer), m)
    | some stack =>
      match c.apply m.numberType m.register stack m.direction with
      | (.error cause, rest) => (.error (.arithmetic cause), m.setCurrentStack rest)
      | (.ok d, rest) => (.ok none, { m.setCurrentStack rest with direction := d })
  | .exchange e =>
    match e.apply m.register with
    | .printed v => (.ok (some v), { m with outputs := m.outputs + 1 })
    | .awaited => (.ok none, { m with state := .inputWaiting })

/-- One step: the printed number if there is one, or the fault, and the machine afterwards. -/
def step (m : Machine) : Except Fault (Option Number) × Machine :=
  if m.state ≠ .running then (.ok none, m)
  else
    match m.current? with
    | none => (.ok none, { m with state := .stopped })
    | some cell =>
      let counted := { m with steps := m.steps + 1 }
      match cell with
      | .instruction i =>
        match counted.execute i with
        | (.ok printed, after) => (.ok printed, after.advance)
        | (.error fault, after) => (.error fault, after)
      | .foreign o => (.error (.ofForeign o), counted)
      | .vacant => (.ok none, counted)

/-- Answer a request for a number; without a request nothing changes. -/
def input (m : Machine) (v : Number) : Machine :=
  if m.state = .inputWaiting then
    { m with register := v, state := .running, inputs := m.inputs + 1 }
  else m

theorem step_of_not_running {m : Machine} (h : m.state ≠ .running) : m.step = (.ok none, m) := by
  simp [step, h]

theorem step_of_current?_none {m : Machine} (h : m.state = .running) (hc : m.current? = none) :
    m.step = (.ok none, { m with state := .stopped }) := by
  simp [step, h, hc]

theorem input_of_not_waiting {m : Machine} (h : m.state ≠ .inputWaiting) (v : Number) :
    m.input v = m := by
  simp [input, h]

end Machine
end MatrixStack
