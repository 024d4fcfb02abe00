/-
What the panels tell of a machine.

The grid panel gives the cells back (`alike_of_gridText`), the stack panel the values on the stacks
(`values_of_stacksText`), and the state panel, one line for each, the other fields.  The machine of
a session is well formed, whatever the session has been told (`Session.sound_afterAll`), so that its
cells are instructions and its numbers have its type.  Hence two machines of sessions that show the
same panels match in everything but the counters of inputs and outputs
(`panels_determine_machine`).
-/
import MatrixStack.Proofs.Debugger.GridPanel
import MatrixStack.Proofs.Debugger.Panels

namespace MatrixStack

/-! ## Machines of sessions -/

namespace Session

variable {t : NumberType} {s : Session}

/-- The session has a number type, and its machine is well formed for it. -/
structure Sound (t : NumberType) (s : Session) : Prop where
  numberType : s.numberType = t
  machine : ∀ m ∈ s.machine, m.WellFormed t

theorem Sound.of_machine {m : Machine} (htype : s.numberType = t) (hmachine : s.machine = some m)
    (hm : m.WellFormed t) : s.Sound t := by
  refine ⟨htype, fun m' hm' => ?_⟩
  rw [hmachine] at hm'
  cases hm'
  exact hm

theorem Sound.loadText {s' : Session} {source name : String} (h : s.Sound t)
    (hload : s.loadText source name = .ok s') : s'.Sound t := by
  obtain ⟨m, hm, heq⟩ := Outcome.bind_eq_ok_iff.mp hload
  cases heq
  rw [h.numberType] at hm
  exact .of_machine h.numberType rfl (Program.Loaded.wellFormed (.grown source hm))

theorem Sound.tick (h : s.Sound t) : s.tick.2.Sound t := by
  unfold Session.tick
  cases hmachine : s.machine with
  | none => exact h
  | some m =>
    have hstep := (Machine.step_wellFormed (h.machine m hmachine)).2
    dsimp only
    generalize m.step = answered at hstep ⊢
    rcases answered with ⟨fault | none | v, after⟩
    · exact .of_machine h.numberType rfl hstep
    · exact .of_machine h.numberType rfl hstep
    · dsimp only
      split <;> exact .of_machine h.numberType rfl hstep

theorem Sound.provide {s' : Session} {text : String} (h : s.Sound t)
    (hprovide : s.provide text = .ok s') : s'.Sound t := by
  unfold Session.provide at hprovide
  split at hprovide
  case h_1 =>
    cases hprovide
    exact h
  case h_2 m hmachine =>
    split at hprovide
    case isTrue =>
      obtain ⟨v, hv, rfl⟩ := Outcome.map_eq_ok_iff.mp hprovide
      rw [h.numberType] at hv
      have hbelongs : v.Belongs t := (Literal.read_eq_ok_iff.mp hv).2
      have hinput := Machine.input_wellFormed (h.machine m hmachine) hbelongs
      exact .of_machine h.numberType rfl hinput
    case isFalse =>
      cases hprovide
      exact h

theorem sound_settle {ε : Type} {failure : ε → Failure} {x : Except ε Session} (h : s.Sound t)
    (hx : ∀ s', x = .ok s' → s'.Sound t) : (settle failure s x).2.Sound t := by
  cases x with
  | error e => exact h
  | ok s' => exact hx s' rfl

theorem Sound.perform (h : s.Sound t) (c : Command) : (s.perform c).2.Sound t := by
  cases htext : c.text? with
  | some text =>
    rw [perform_of_text htext]
    exact sound_settle h fun s' => h.loadText
  | none =>
    cases c with
    | loadText => cases htext
    | loadFile tree file =>
      obtain ⟨e, he⟩ := exists_error_of_text?_none (s := s) htext
      rw [Session.perform, he]
      exact h
    | tick => exact h.tick
    | provide text => exact sound_settle h fun s' => h.provide

theorem sound_afterAll (t : NumberType) (cs : List Command) : ((start t).afterAll cs).Sound t := by
  induction cs using List.reverseRecOn with
  | nil =>
    refine ⟨rfl, fun m hm => ?_⟩
    cases (show none = some m from hm)
  | append_singleton cs c ih =>
    rw [afterAll_concat]
    exact ih.perform c

end Session

theorem Number.Belongs.mk_value {t : NumberType} {v : Number} (h : v.Belongs t) :
    Number.mk t v.value = v := by
  rw [← h.1]

namespace Panel

variable {t t' : NumberType} {m m' : Machine}

/-! ## All panels -/

/-- The machines have the same grid, the same values on the same stacks, and the same state but for
the numbers of inputs and outputs. -/
structure Matches (m' m : Machine) : Prop where
  grid : m'.grid.Alike m.grid
  state : m'.state = m.state
  register : m'.register = m.register
  pointer : m'.pointer = m.pointer
  direction : m'.direction = m.direction
  steps : m'.steps = m.steps
  numberType : m'.numberType = m.numberType
  stackExtent : m'.stackPlane.extent = m.stackPlane.extent
  items : ∀ b, (m'.stackAt? b).map Stack.items = (m.stackAt? b).map Stack.items

/-- Numbers of one type are told by their values. -/
theorem eq_of_values {items items' : List Number} (h : ∀ v ∈ items, v.Belongs t)
    (h' : ∀ v ∈ items', v.Belongs t) (hvalues : items'.map Number.value = items.map Number.value) :
    items' = items := by
  have htyped {vs : List Number} (hvs : ∀ v ∈ vs, v.Belongs t) :
      (vs.map Number.value).map (Number.mk t) = vs := by
    rw [List.map_map]
    exact (List.map_congr_left fun v hv => (hvs v hv).mk_value).trans (List.map_id vs)
  rw [← htyped h, ← htyped h', hvalues]

/-- The stack of a block inside, and that its numbers belong to the type. -/
theorem stackAt?_of_contains (hm : m.WellFormed t) {b : Pointer}
    (hb : m.stackPlane.extent.contains b = true) :
    (m.stackAt? b).map Stack.items = some (itemsAt m b) ∧ ∀ v ∈ itemsAt m b, v.Belongs t := by
  obtain ⟨s, hs, hall⟩ := hm.stackAt b hb
  rw [itemsAt, hs]
  exact ⟨rfl, hall.items⟩

theorem items_of_stacksText (hm : m.WellFormed t) (hm' : m'.WellFormed t) (hprint : m.Printable)
    (hprint' : m'.Printable) (hpointer : m'.pointer = m.pointer)
    (hextent : m'.stackPlane.extent = m.stackPlane.extent) (h : stacksText? m' = stacksText? m)
    (b : Pointer) : (m'.stackAt? b).map Stack.items = (m.stackAt? b).map Stack.items := by
  by_cases hb : m.stackPlane.extent.contains b = true
  · obtain ⟨hitems, hbelongs⟩ := stackAt?_of_contains hm hb
    obtain ⟨hitems', hbelongs'⟩ := stackAt?_of_contains hm' (hextent ▸ hb)
    obtain ⟨text, htext⟩ := exists_stacksText hprint
    have hvalues := values_of_stacksText hprint hprint' hpointer hextent htext (h.trans htext) hb
    rw [hitems, hitems', eq_of_values hbelongs hbelongs' hvalues]
  · have hnone {plane : StackPlane} (hplane : ¬plane.extent.contains b = true) :
        plane.get? b = none := Plane.get?_eq_none_iff.mpr (Bool.not_eq_true _ ▸ hplane)
    rw [Machine.stackAt?, Machine.stackAt?, hnone hb, hnone (hextent ▸ hb)]

theorem matches_of_panels (hm : m.WellFormed t) (hm' : m'.WellFormed t') (hprint : m.Printable)
    (hprint' : m'.Printable) (hgrid : gridText m' = gridText m)
    (hstate : stateText? m' = stateText? m) (hstacks : stacksText? m' = stacksText? m) :
    Matches m' m := by
  obtain ⟨hstate, hvalue, hpointer, hdirection, hsteps, htype, hextent⟩ :=
    fields_of_stateText? hprint hprint' hstate
  have hstackExtent : m'.stackPlane.extent = m.stackPlane.extent := by
    rw [hm'.extent, hm.extent, hextent]
  obtain rfl : t' = t := by rw [← hm'.numberType, ← hm.numberType, htype]
  exact {
    grid := alike_of_gridText hm hm' hextent hgrid
    state := hstate
    register := by rw [← hm'.register.mk_value, ← hm.register.mk_value, hvalue]
    pointer := hpointer
    direction := hdirection
    steps := hsteps
    numberType := htype
    stackExtent := hstackExtent
    items := items_of_stacksText hm hm' hprint hprint' hpointer hstackExtent hstacks }

/-- The panels of two sessions with loaded programs are the same only if their machines match.  The
line of a row in the grid panel is its number and a bar in front of its instructions, with dots for
some of the blanks, and the stack panel has one line, with all numbers top first, for every stack
with a number on it. -/
theorem panels_determine_machine (t : NumberType) (cs : List Session.Command) (m : Machine)
    (hm : ((Session.start t).afterAll cs).machine = some m) (hprint : m.Printable) :
    (∀ (t' : NumberType) (cs' : List Session.Command) (m' : Machine),
      ((Session.start t').afterAll cs').machine = some m' → m'.Printable →
      gridText m' = gridText m → stateText? m' = stateText? m → stacksText? m' = stacksText? m →
      Matches m' m) ∧
    (∀ y < m.grid.extent.height.toNat, ∃ shown,
      (Text.linesIn (gridText m))[y]? = some ((rowLabel y).toList ++ shown) ∧
      rowChars m y = .ok (shown.map undot)) ∧
    ∃ state panel, stateText? m = some state ∧ stacksText? m = some panel ∧
      ∀ b s, m.stackAt? b = some s →
        (s.items ≠ [] → entriesOf b panel = [(entry m b s.items).toList]) ∧
        (entriesOf b panel = [] → s.items = []) := by
  have hwell : m.WellFormed t := (Session.sound_afterAll t cs).machine m hm
  refine ⟨fun t' cs' m' hm' hprint' => ?_, fun y hy => ?_, ?_⟩
  · exact matches_of_panels hwell ((Session.sound_afterAll t' cs').machine m' hm') hprint hprint'
  · exact ⟨shownRow m y, getElem?_linesIn_gridText hwell hy, rowChars_eq_undot hwell hy⟩
  · obtain ⟨panel, hstacks⟩ := exists_stacksText hprint
    refine ⟨_, panel, stateText?_eq hprint, hstacks, fun b s hs => ?_⟩
    have hentries := entriesOf_stacksText hprint hstacks (Program.contains_of_join_get? hs)
    have hitems : itemsAt m b = s.items := by
      rw [itemsAt, hs]
      rfl
    rw [hentries, hitems, listed]
    by_cases hnone : s.items = []
    · exact ⟨fun hne => absurd hnone hne, fun _ => hnone⟩
    · have hlisted : ¬(s.items.isEmpty && decide (b ≠ m.pointer.block)) = true := by
        simp [hnone]
      rw [if_neg hlisted]
      exact ⟨fun _ => rfl, fun hempty => absurd hempty (List.cons_ne_nil _ _)⟩

/-- One program with its numbers declared at once, and another with them declared one by one, behind
the rows and after a text that is no program. -/
theorem panels_determine_machine_after_a_step :
    let byte := NumberType.signed .bits8
    let cs : List Session.Command := [.loadText "s 1 0 5 -7\n.   .p" "a", .tick]
    let cs' : List Session.Command :=
      [.loadText "?" "b", .loadText ".   .p\ns 1 0 5\ns 1 0 -7" "c", .tick]
    ∃ m m' panel, ((Session.start byte).afterAll cs).machine = some m ∧
      ((Session.start byte).afterAll cs').machine = some m' ∧ m.Printable ∧ m'.Printable ∧
      Matches m' m ∧ stacksText? m = some panel ∧
      entriesOf ⟨1, 0⟩ panel = ["  (1, 0): -7 5".toList] := by
  intro byte cs cs'
  have hsome : ((Session.start byte).afterAll cs).machine.isSome = true ∧
      ((Session.start byte).afterAll cs').machine.isSome = true := by decide +kernel
  obtain ⟨m, hm⟩ := Option.isSome_iff_exists.mp hsome.1
  obtain ⟨m', hm'⟩ := Option.isSome_iff_exists.mp hsome.2
  have hcheck : ∀ m ∈ ((Session.start byte).afterAll cs).machine,
      ∀ m' ∈ ((Session.start byte).afterAll cs').machine,
      gridText m' = gridText m ∧ stateText? m' = stateText? m ∧ stacksText? m' = stacksText? m ∧
      (m.stackAt? ⟨1, 0⟩).map Stack.items = some [⟨byte, 5⟩, ⟨byte, -7⟩] ∧
      m.pointer.block ≠ ⟨1, 0⟩ := by decide +kernel
  obtain ⟨hgrid, hstate, hstacks, hitems, hblock⟩ := hcheck m hm m' hm'
  have hprint : m.Printable :=
    ((Session.sound_afterAll byte cs).machine m hm).printable (by decide)
  have hprint' : m'.Printable :=
    ((Session.sound_afterAll byte cs').machine m' hm').printable (by decide)
  obtain ⟨hmatches, -, _, panel, -, htext, hentries⟩ :=
    panels_determine_machine byte cs m hm hprint
  obtain ⟨s, hs, hvalues⟩ := Option.map_eq_some_iff.mp hitems
  have hentry := (hentries _ s hs).1 (by rw [hvalues]; exact List.cons_ne_nil _ _)
  rw [hvalues, entry, if_neg hblock.symm] at hentry
  exact ⟨m, m', panel, hm, hm', hprint, hprint',
    hmatches byte cs' m' hm' hprint' hgrid hstate hstacks, htext, hentry⟩

end Panel
end MatrixStack
