/-
The instruction set.

There are five families of instructions, and one character for each instruction.  `ofChar?` reads
a character and `char` writes it; `ofChar?_eq_some_iff` says that they are inverse to each other.
-/
import MatrixStack.Direction
import MatrixStack.Text.Quoted

namespace MatrixStack

/-- Instructions that change the direction only. -/
inductive Deflector where
  | rightArrow | leftArrow | downArrow | upArrow
  | omniMirror | forwardMirror | backMirror
  deriving DecidableEq

/-- Instructions on the register and the stack of the block. -/
inductive Operator where
  | push | pop | duplicate
  | add | subtract | multiply | divide
  | not | or | and | xor
  deriving DecidableEq

/-- Instructions that turn by the order of the register and another number. -/
inductive Comparator where
  | zero | stack
  deriving DecidableEq

/-- Instructions that exchange a number with the outside. -/
inductive Exchange where
  | print | input
  deriving DecidableEq

inductive Instruction where
  | blank
  | deflector (d : Deflector)
  | operator (o : Operator)
  | comparator (c : Comparator)
  | exchange (e : Exchange)
  deriving DecidableEq

namespace Deflector

def char : Deflector → Char
  | .rightArrow => '>'
  | .leftArrow => '<'
  | .downArrow => 'v'
  | .upArrow => '^'
  | .omniMirror => 'o'
  | .forwardMirror => '/'
  | .backMirror => '\\'

def name : Deflector → String
  | .rightArrow => "RIGHT_ARROW"
  | .leftArrow => "LEFT_ARROW"
  | .downArrow => "DOWN_ARROW"
  | .upArrow => "UP_ARROW"
  | .omniMirror => "OMNI_MIRROR"
  | .forwardMirror => "FORWARD_MIRROR"
  | .backMirror => "BACK_MIRROR"

def deflect : Deflector → Direction → Direction
  | .rightArrow, _ => .right
  | .leftArrow, _ => .left
  | .downArrow, _ => .down
  | .upArrow, _ => .up
  | .omniMirror, d => d.reverse
  | .forwardMirror, d => d.transpose.reverse
  | .backMirror, d => d.transpose

end Deflector

namespace Operator

def char : Operator → Char
  | .push => ','
  | .pop => '.'
  | .duplicate => 'd'
  | .add => '+'
  | .subtract => '-'
  | .multiply => '*'
  | .divide => '~'
  | .not => '!'
  | .or => '|'
  | .and => '&'
  | .xor => ':'

def name : Operator → String
  | .push => "PUSH"
  | .pop => "POP"
  | .duplicate => "DUPLICATE"
  | .add => "ADD"
  | .subtract => "SUBTRACT"
  | .multiply => "MULTIPLY"
  | .divide => "DIVIDE"
  | .not => "NOT"
  | .or => "OR"
  | .and => "AND"
  | .xor => "XOR"

end Operator

namespace Comparator

def char : Comparator → Char
  | .zero => 'z'
  | .stack => 'c'

def name : Comparator → String
  | .zero => "ZERO"
  | .stack => "STACK"

end Comparator

namespace Exchange

def char : Exchange → Char
  | .print => 'p'
  | .input => 'i'

def name : Exchange → String
  | .print => "PRINT"
  | .input => "INPUT"

end Exchange

namespace Instruction

def char : Instruction → Char
  | .blank => ' '
  | .deflector d => d.char
  | .operator o => o.char
  | .comparator c => c.char
  | .exchange e => e.char

def name : Instruction → String
  | .blank => "SPACE"
  | .deflector d => d.name
  | .operator o => o.name
  | .comparator c => c.name
  | .exchange e => e.name

def family : Instruction → String
  | .blank => "Blank"
  | .deflector _ => "Deflector"
  | .operator _ => "Operator"
  | .comparator _ => "Comparator"
  | .exchange _ => "IO"

def ofChar? : Char → Option Instruction
  | ' ' => some .blank
  | '>' => some (.deflector .rightArrow)
  | '<' => some (.deflector .leftArrow)
  | 'v' => some (.deflector .downArrow)
  | '^' => some (.deflector .upArrow)
  | 'o' => some (.deflector .omniMirror)
  | '/' => some (.deflector .forwardMirror)
  | '\\' => some (.deflector .backMirror)
  | ',' => some (.operator .push)
  | '.' => some (.operator .pop)
  | 'd' => some (.operator .duplicate)
  | '+' => some (.operator .add)
  | '-' => some (.operator .subtract)
  | '*' => some (.operator .multiply)
  | '~' => some (.operator .divide)
  | '!' => some (.operator .not)
  | '|' => some (.operator .or)
  | '&' => some (.operator .and)
  | ':' => some (.operator .xor)
  | 'z' => some (.comparator .zero)
  | 'c' => some (.comparator .stack)
  | 'p' => some (.exchange .print)
  | 'i' => some (.exchange .input)
  | _ => none

theorem ofChar?_char (i : Instruction) : ofChar? i.char = some i := by
  cases i with
  | blank => rfl
  | deflector d => cases d <;> rfl
  | operator o => cases o <;> rfl
  | comparator c => cases c <;> rfl
  | exchange e => cases e <;> rfl

theorem char_of_ofChar? {c : Char} {i : Instruction} (h : ofChar? c = some i) : i.char = c := by
  unfold ofChar? at h
  split at h <;> simp only [Option.some.injEq, reduceCtorEq] at h <;> subst h <;> rfl

theorem ofChar?_eq_some_iff {c : Char} {i : Instruction} : ofChar? c = some i ↔ i.char = c :=
  ⟨char_of_ofChar?, fun h => h ▸ ofChar?_char i⟩

theorem char_injective {i j : Instruction} (h : i.char = j.char) : i = j := by
  have := ofChar?_char i
  rw [h, ofChar?_char j] at this
  exact (Option.some.inj this).symm

/-- The instruction that a text of one character names. -/
def ofText? (text : String) : Option Instruction :=
  match text.toList with
  | [c] => ofChar? c
  | _ => none

/-- The message for a text that names no instruction of the asked family. -/
def notOfFamilyMessage (text family : String) : String :=
  Text.quote text ++ " is not a valid " ++ family

end Instruction
end MatrixStack
