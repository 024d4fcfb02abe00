/-
The cursor without its modulus.

`idealStep` moves the cursor by one and never takes the result modulo anything, so its cursor can
stand beside the grid on any side.  The machine itself moves its cursor by the modulus, and a cursor
that leaves the grid to the left or above lands far to the right or below.  On a grid that is
smaller than the modulus the difference is never seen: both cursors are outside at the same time,
and outside of the grid they do not move any more.
-/
import MatrixStack.Proofs.Machine.Step

namespace MatrixStack

namespace Pointer

/-- The next pointer along a direction; its components may be negative. -/
def shift (p : Pointer) (d : Direction) : Pointer :=
  let delta : Int := if d.decreasing then -1 else 1
  if d.vertical then ⟨p.x, p.y + delta⟩ else ⟨p.x + delta, p.y⟩

/-- The pointer with both components taken modulo the modulus. -/
def wrap (p : Pointer) : Pointer := ⟨p.x % modulus, p.y % modulus⟩

variable {e : Extent} {p : Pointer}

theorem modulus_eq : (modulus : Int) = 18446744073709551616 := rfl

theorem wrap_of_contains (hw : e.width < modulus) (hh : e.height < modulus)
    (hp : e.contains p = true) : p.wrap = p := by
  have hp' := Extent.contains_iff.mp hp
  show Pointer.mk _ _ = Pointer.mk p.x p.y
  rw [Int.emod_eq_of_lt (by omega) (by omega), Int.emod_eq_of_lt (by omega) (by omega)]

theorem wrap_shift (hw : e.width < modulus) (hh : e.height < modulus)
    (hp : e.contains p = true) (d : Direction) : (p.shift d).wrap = p.advance d := by
  have hp' := Extent.contains_iff.mp hp
  have hx : p.x % modulus = p.x := Int.emod_eq_of_lt (by omega) (by omega)
  have hy : p.y % modulus = p.y := Int.emod_eq_of_lt (by omega) (by omega)
  cases d with
  | right | left =>
    show Pointer.mk _ (p.y % modulus) = Pointer.mk _ p.y
    rw [hy]
    rfl
  | down | up =>
    show Pointer.mk (p.x % modulus) _ = Pointer.mk p.x _
    rw [hx]
    rfl

/-- A pointer just beside the grid is outside of it also after the modulus. -/
theorem contains_wrap_shift (hw : e.width < modulus) (hh : e.height < modulus)
    (hp : e.contains p = true) (d : Direction) :
    e.contains (p.shift d).wrap = e.contains (p.shift d) := by
  have hp' := Extent.contains_iff.mp hp
  rw [wrap_shift hw hh hp, Bool.eq_iff_iff, Extent.contains_iff, Extent.contains_iff]
  rw [modulus_eq] at hw hh
  cases d with
  | right | left | down | up =>
    simp only [advance, shift, Direction.vertical, Direction.decreasing, modulus_eq, if_true,
      Bool.false_eq_true, if_false]
    omega

end Pointer

namespace Machine

/-- A step of a machine whose cursor moves without a modulus, and that stops outside the grid. -/
def idealStep (m : Machine) : Answer × Machine :=
  if m.state ≠ .running then (.ok none, m)
  else if m.grid.extent.contains m.pointer then
    let counted := { m with steps := m.steps + 1 }
    match m.grid.get? m.pointer with
    | some (.instruction i) =>
      match counted.execute i with
      | (.ok printed, after) =>
        (.ok printed, { after with pointer := after.pointer.shift after.direction })
      | (.error fault, after) => (.error fault, after)
    | some (.foreign o) => (.error (.ofForeign o), counted)
    | some .vacant | none => (.ok none, { m with state := .stopped })
  else (.ok none, { m with state := .stopped })

/-- The machine with its cursor taken modulo the modulus. -/
def wrapped (m : Machine) : Machine := { m with pointer := m.pointer.wrap }

variable {m r : Machine}

theorem wrapped_of_wrap_eq (h : m.pointer.wrap = m.pointer) : m.wrapped = m := by
  show { m with pointer := m.pointer.wrap } = m
  rw [h]

theorem idealStep_of_not_running (h : m.state ≠ .running) : m.idealStep = (.ok none, m) := by
  rw [idealStep, if_pos h]

theorem idealStep_of_outside (hs : m.state = .running)
    (h : m.grid.extent.contains m.pointer = false) :
    m.idealStep = (.ok none, { m with state := .stopped }) := by
  rw [idealStep, if_neg (fun hn => hn hs), if_neg (by rw [h]; decide)]

/-- The machine is the ideal one with its cursor wrapped, and the wrapped cursor is in the grid
exactly where the ideal one is. -/
structure Follows (m r : Machine) : Prop where
  wrapped : r = m.wrapped
  width_lt : m.grid.extent.width < Pointer.modulus
  height_lt : m.grid.extent.height < Pointer.modulus
  contains : m.grid.extent.contains m.pointer.wrap = m.grid.extent.contains m.pointer

theorem idealStep_of_instruction {i : Instruction} (hs : m.state = .running)
    (hp : m.grid.extent.contains m.pointer = true)
    (hi : m.grid.get? m.pointer = some (.instruction i)) :
    m.idealStep =
      match m.counted.execute i with
      | (.ok printed, after) =>
        (.ok printed, { after with pointer := after.pointer.shift after.direction })
      | (.error fault, after) => (.error fault, after) := by
  rw [idealStep, if_neg (fun hn => hn hs), if_pos hp, hi]
  rfl

theorem follows_self (hw : m.grid.extent.width < Pointer.modulus)
    (hh : m.grid.extent.height < Pointer.modulus)
    (hp : m.grid.extent.contains m.pointer = true) : Follows m m where
  wrapped := (wrapped_of_wrap_eq (Pointer.wrap_of_contains hw hh hp)).symm
  width_lt := hw
  height_lt := hh
  contains := by rw [Pointer.wrap_of_contains hw hh hp]

/-- Moved from within the grid, the cursor is the ideal one wrapped. -/
theorem follows_advance (hw : m.grid.extent.width < Pointer.modulus)
    (hh : m.grid.extent.height < Pointer.modulus)
    (hp : m.grid.extent.contains m.pointer = true) :
    Follows { m with pointer := m.pointer.shift m.direction } m.advance where
  wrapped := by
    show { m with pointer := m.pointer.advance m.direction } =
      { m with pointer := (m.pointer.shift m.direction).wrap }
    rw [Pointer.wrap_shift hw hh hp]
  width_lt := hw
  height_lt := hh
  contains := Pointer.contains_wrap_shift hw hh hp m.direction

/-- In the grid both machines have the same cursor and execute the same instruction. -/
theorem follows_step_of_inside (hs : m.state = .running)
    (hw : m.grid.extent.width < Pointer.modulus) (hh : m.grid.extent.height < Pointer.modulus)
    (hp : m.grid.extent.contains m.pointer = true) :
    m.idealStep.1 = m.step.1 ∧ Follows m.idealStep.2 m.step.2 := by
  cases hcell : m.grid.get? m.pointer with
  | none =>
    rw [Plane.get?_eq_none_iff, hp] at hcell
    cases hcell
  | some cell =>
    cases cell with
    | instruction i =>
      have hframe := execute_untouched m.counted i
      have hpointer := pointer_execute m.counted i
      rw [idealStep_of_instruction hs hp hcell, step_of_instruction hs (current?_of_get? hcell)]
      rcases hx : m.counted.execute i with ⟨answer, after⟩
      rw [hx] at hframe hpointer
      have hgrid : after.grid = m.grid := hframe.grid
      have hpointer' : after.pointer = m.pointer := hpointer
      rw [← hgrid] at hw hh hp
      rw [← hpointer'] at hp
      cases answer with
      | error fault => exact ⟨rfl, follows_self hw hh hp⟩
      | ok printed => exact ⟨rfl, follows_advance hw hh hp⟩
    | foreign o =>
      have hideal : m.idealStep = (.error (.ofForeign o), m.counted) := by
        rw [idealStep, if_neg (fun hn => hn hs), if_pos hp, hcell]
        rfl
      have hcurrent : m.current? = some (.foreign o) := by rw [current?, hcell]
      rw [hideal, step_of_foreign hs hcurrent]
      exact ⟨rfl, follows_self (m := m.counted) hw hh hp⟩
    | vacant =>
      have hideal : m.idealStep = (.ok none, { m with state := .stopped }) := by
        rw [idealStep, if_neg (fun hn => hn hs), if_pos hp, hcell]
      have hcurrent : m.current? = none := by rw [current?, hcell]
      rw [hideal, step_of_current?_none hs hcurrent]
      exact ⟨rfl, follows_self (m := { m with state := .stopped }) hw hh hp⟩

theorem Follows.step (h : Follows m r) :
    m.idealStep.1 = r.step.1 ∧ Follows m.idealStep.2 r.step.2 := by
  obtain ⟨rfl, hw, hh, hcontains⟩ := h
  by_cases hs : m.state = .running
  · cases hp : m.grid.extent.contains m.pointer with
    | false =>
      have hp' : m.grid.extent.contains m.pointer.wrap = false := hcontains.trans hp
      rw [idealStep_of_outside hs hp, step_of_outside (m := m.wrapped) hs hp']
      exact ⟨rfl, rfl, hw, hh, hcontains⟩
    | true =>
      rw [wrapped_of_wrap_eq (Pointer.wrap_of_contains hw hh hp)]
      exact follows_step_of_inside hs hw hh hp
  · rw [idealStep_of_not_running hs, step_of_not_running (m := m.wrapped) hs]
    exact ⟨rfl, rfl, hw, hh, hcontains⟩

theorem Follows.input (h : Follows m r) (v : Number) : Follows (m.input v) (r.input v) := by
  obtain ⟨rfl, hw, hh, hcontains⟩ := h
  by_cases hs : m.state = .inputWaiting
  · have hs' : m.wrapped.state = .inputWaiting := hs
    rw [input_of_waiting hs, input_of_waiting hs']
    exact ⟨rfl, hw, hh, hcontains⟩
  · rw [input_of_not_waiting hs, input_of_not_waiting (m := m.wrapped) hs]
    exact ⟨rfl, hw, hh, hcontains⟩

theorem answers_of_follows (h : Follows m r) (cs : List Call) :
    m.answersBy idealStep cs = r.answers cs ∧ Follows (m.afterBy idealStep cs) (r.after cs) := by
  refine answersBy_alike_always ?_ h
  intro n r c hn
  cases c with
  | step => exact hn.step
  | input v => exact ⟨rfl, hn.input v⟩

/-! ## Outside of the grid -/

theorem pointer_step_of_outside (h : m.grid.extent.contains m.pointer = false) :
    m.step.2.pointer = m.pointer := by
  by_cases hs : m.state = .running
  · rw [step_of_outside hs h]
  · rw [step_of_not_running hs]

theorem pointer_input (m : Machine) (v : Number) : (m.input v).pointer = m.pointer := by
  unfold Machine.input
  split <;> rfl

/-- A cursor outside of the grid stays where it is, whatever calls follow. -/
theorem pointer_after_of_outside (h : m.grid.extent.contains m.pointer = false) (cs : List Call) :
    (m.after cs).pointer = m.pointer := by
  induction cs generalizing m with
  | nil => rfl
  | cons c cs ih =>
    have hcall : (callBy Machine.step m c).2.grid = m.grid ∧
        (callBy Machine.step m c).2.pointer = m.pointer := by
      cases c with
      | step => exact ⟨(step_untouched m).grid, pointer_step_of_outside h⟩
      | input v => exact ⟨grid_input m v, pointer_input m v⟩
    have hrest := ih (m := (callBy Machine.step m c).2) (by rw [hcall.1, hcall.2]; exact h)
    exact hrest.trans hcall.2

end Machine
end MatrixStack
