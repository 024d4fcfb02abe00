/-
The number types of the machine.

A type is either the unbounded integers or the integers of a fixed width, with or without a sign.
`wrap` is the value that a type gives to an integer: the integer itself, or the one value of the
type's range congruent to it modulo the number of values (`holds_wrap`, `wrap_of_holds`).
-/
namespace MatrixStack

inductive Width where
  | bits8 | bits16 | bits32 | bits64
  deriving DecidableEq

def Width.bits : Width → Nat
  | .bits8 => 8
  | .bits16 => 16
  | .bits32 => 32
  | .bits64 => 64

/-- The number of values of a width. -/
def Width.values : Width → Nat
  | .bits8 => 0x100
  | .bits16 => 0x10000
  | .bits32 => 0x100000000
  | .bits64 => 0x10000000000000000

inductive NumberType where
  | unbounded
  | signed (width : Width)
  | unsigned (width : Width)
  deriving DecidableEq

namespace NumberType

/-- The name by which a type is chosen. -/
def name : NumberType → String
  | .unbounded => "int"
  | .signed w => "i" ++ w.bits.repr
  | .unsigned w => "u" ++ w.bits.repr

/-- The name of a type in messages and in the written form of its values. -/
def label : NumberType → String
  | .unbounded => "int"
  | .signed w => "I" ++ w.bits.repr
  | .unsigned w => "U" ++ w.bits.repr

def all : List NumberType :=
  [.signed .bits16, .signed .bits32, .signed .bits64, .signed .bits8, .unbounded,
    .unsigned .bits16, .unsigned .bits32, .unsigned .bits64, .unsigned .bits8]

/-- The names of all types, in alphabetical order. -/
def names : List String := all.map name

def ofName? (s : String) : Option NumberType := all.find? fun t => t.name = s

theorem mem_all (t : NumberType) : t ∈ all := by
  cases t with
  | unbounded => decide
  | signed w => cases w <;> decide
  | unsigned w => cases w <;> decide

/-- The type used where none is chosen. -/
def standard : NumberType := .signed .bits32

def wrap : NumberType → Int → Int
  | .unbounded, v => v
  | .signed w, v => v.bmod w.values
  | .unsigned w, v => v % w.values

/-- The least and the greatest value of a type of fixed width. -/
def range? : NumberType → Option (Int × Int)
  | .unbounded => none
  | .signed w => some (-(w.values / 2 : Int), w.values / 2 - 1)
  | .unsigned w => some (0, w.values - 1)

/-- The value belongs to the type. -/
def Holds (t : NumberType) (v : Int) : Prop :=
  match t.range? with
  | none => True
  | some (lo, hi) => lo ≤ v ∧ v ≤ hi

instance (t : NumberType) (v : Int) : Decidable (t.Holds v) := by
  unfold Holds
  split <;> infer_instance

@[simp] theorem wrap_unbounded (v : Int) : wrap .unbounded v = v := rfl

theorem holds_wrap (t : NumberType) (v : Int) : t.Holds (t.wrap v) := by
  cases t with
  | unbounded => trivial
  | signed w =>
    cases w <;> simp only [Holds, range?, wrap, Width.values, Int.bmod_def] <;> omega
  | unsigned w =>
    cases w <;> simp only [Holds, range?, wrap, Width.values] <;> omega

theorem wrap_of_holds {t : NumberType} {v : Int} (h : t.Holds v) : t.wrap v = v := by
  cases t with
  | unbounded => rfl
  | signed w =>
    cases w <;> simp only [Holds, range?, wrap, Width.values, Int.bmod_def] at h ⊢ <;> omega
  | unsigned w =>
    cases w <;> simp only [Holds, range?, wrap, Width.values] at h ⊢ <;> omega

@[simp] theorem wrap_wrap (t : NumberType) (v : Int) : t.wrap (t.wrap v) = t.wrap v :=
  wrap_of_holds (t.holds_wrap v)

end NumberType
end MatrixStack
