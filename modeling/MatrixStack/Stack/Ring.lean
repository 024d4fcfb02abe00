/-
A stack of fixed capacity over a ring of slots.

The head is the slot that the next push writes.  A push into a full ring overwrites the oldest
value; a pop steps the head back and empties the slot there, also when that slot is empty already.
`items` walks back from the head to the first empty slot.

The slots are a value, which no other stack shares, and there is room for them whatever their
number.
-/
namespace MatrixStack

structure Ring (α : Type) where
  slots : Array (Option α)
  head : Nat
  deriving DecidableEq

namespace Ring

variable {α : Type}

def capacity (r : Ring α) : Nat := r.slots.size

def empty (capacity : Nat) : Ring α := ⟨Array.replicate capacity none, 0⟩

def push (r : Ring α) (a : α) : Ring α :=
  ⟨r.slots.setIfInBounds r.head (some a), (r.head + 1) % r.capacity⟩

/-- The slot a number of places behind the head, at most once around the ring. -/
def behind (r : Ring α) (k : Nat) : Nat := (r.head + r.capacity - k) % r.capacity

def pop (r : Ring α) : Option α × Ring α :=
  let last := r.behind 1
  (r.slots[last]?.join, ⟨r.slots.setIfInBounds last none, last⟩)

/-- The values met walking back from `k` places behind the head, for at most `n` slots. -/
def walkBack (r : Ring α) (k : Nat) : Nat → List α
  | 0 => []
  | n + 1 =>
    match r.slots[r.behind k]?.join with
    | none => []
    | some a => a :: r.walkBack (k + 1) n

/-- The contents, bottom first. -/
def items (r : Ring α) : List α := (r.walkBack 1 r.capacity).reverse

@[simp] theorem capacity_empty (n : Nat) : (empty n : Ring α).capacity = n := by
  simp [capacity, empty]

@[simp] theorem capacity_push (r : Ring α) (a : α) : (r.push a).capacity = r.capacity := by
  simp [capacity, push]

@[simp] theorem capacity_pop (r : Ring α) : r.pop.2.capacity = r.capacity := by
  simp [capacity, pop]

end Ring
end MatrixStack
