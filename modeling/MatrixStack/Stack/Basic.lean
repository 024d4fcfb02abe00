/-
Stacks: last in, first out.

A stack either grows without bound or is a ring of fixed capacity.  A pop of an empty stack finds
nothing.  `items` shows both kinds alike, bottom first.
-/
import MatrixStack.Stack.Ring
import MatrixStack.Text.Decimal

namespace MatrixStack

/-- The contents of a growable stack are held top first. -/
inductive Stack (α : Type) where
  | growable (values : List α)
  | ring (r : Ring α)
  deriving DecidableEq

/-- A ring has at least one slot. -/
structure NoCapacity where
  capacity : Int
  deriving DecidableEq

def NoCapacity.message (e : NoCapacity) : String :=
  Decimal.messageWith
    ((Decimal.print? e.capacity).map ("stack capacity must be at least 1, got " ++ ·))

namespace Stack

variable {α : Type}

def empty : Stack α := .growable []

def createRing (capacity : Int) : Except NoCapacity (Stack α) :=
  if capacity < 1 then .error ⟨capacity⟩ else .ok (.ring (Ring.empty capacity.toNat))

def push : Stack α → α → Stack α
  | .growable values, a => .growable (a :: values)
  | .ring r, a => .ring (r.push a)

def pop : Stack α → Option α × Stack α
  | .growable [] => (none, .growable [])
  | .growable (a :: values) => (some a, .growable values)
  | .ring r => (r.pop.1, .ring r.pop.2)

def pushAll (s : Stack α) (values : List α) : Stack α := values.foldl push s

/-- The contents, bottom first. -/
def items : Stack α → List α
  | .growable values => values.reverse
  | .ring r => r.items

def size (s : Stack α) : Nat := s.items.length

/-- The kind of the stack and its contents, bottom first, if each of them can be written. -/
def written? (shown : α → Option String) (s : Stack α) : Option String :=
  let kind := match s with
    | .growable _ => "ListStack"
    | .ring _ => "RingStack"
  (s.items.mapM shown).map fun texts => kind ++ "([" ++ ", ".intercalate texts ++ "])"

@[simp] theorem items_empty : (empty : Stack α).items = [] := rfl

theorem pushAll_growable (values more : List α) :
    (Stack.growable values).pushAll more = .growable (more.reverse ++ values) := by
  induction more generalizing values with
  | nil => rfl
  | cons a more ih =>
    have := ih (a :: values)
    simp only [pushAll, List.foldl_cons] at this ⊢
    simp [push, this]

theorem items_pushAll_growable (values more : List α) :
    ((Stack.growable values).pushAll more).items = (Stack.growable values).items ++ more := by
  simp [pushAll_growable, items]

end Stack
end MatrixStack
