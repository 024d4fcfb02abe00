/-
A program on a larger grid than it needs.

A text that can be built on a grid can be built on every larger one (`Frame.Fits.enlarge`), and the
larger machine starts with the cells and stacks of the smaller one, blanks and empty rings around
them (`together_of_laidOut`).  From there on both show the same and stop together, and the larger
machine has walked over the margin on the side where the cursor has left the smaller grid.
-/
import MatrixStack.Proofs.Machine.Padding
import MatrixStack.Proofs.Program.Loaded

namespace MatrixStack

theorem Extent.contains_origin {e : Extent} (hw : 1 ≤ e.width) (hh : 1 ≤ e.height) :
    e.contains .origin = true := by
  rw [Extent.contains_iff]
  simp only [Pointer.origin]
  omega

namespace Program

variable {conv : Converters} {type : NumberType} {source : String} {f : Frame} {e e' : Extent}
  {layout : Layout} {s l : Machine} {capacity : Nat}

theorem cellAt_of_outside {rows : List (List Instruction)} (h : RowsFit e rows) {q : Pointer}
    (hx : 0 ≤ q.x) (hy : 0 ≤ q.y) (hq : e.contains q = false) : cellAt rows q = blankCell := by
  unfold cellAt
  cases hrow : rows[q.y.toNat]? with
  | none => rfl
  | some row =>
    cases hi : row[q.x.toNat]? with
    | none => rw [Option.bind_some, hi]; rfl
    | some i =>
      have hlt := (List.getElem?_eq_some_iff.mp hi).1
      have hin := h _ row hrow _ hlt
      rw [Nat.zero_add, Int.toNat_of_nonneg hx, Int.toNat_of_nonneg hy] at hin
      exact absurd (hq.symm.trans hin) Bool.false_ne_true

theorem Frame.Fits.enlarge (h : f.Fits layout) (hw : 1 ≤ f.extent.width)
    (hh : 1 ≤ f.extent.height) (hin : f.extent.Within e') :
    Frame.Fits ⟨e', f.capacity⟩ layout where
  width_nonneg := Int.le_trans h.width_nonneg hin.width_le
  height_nonneg := Int.le_trans h.height_nonneg hin.height_le
  capacity_pos _ :=
    h.capacity_pos ⟨_, Extent.contains_blocks (Extent.contains_origin hw hh)⟩
  rows := h.rows.enlarge hin.width_le hin.height_le
  blocks d hd := Extent.contains_blocks_mono hin.width_le hin.height_le (h.blocks d hd)

theorem spread_of_laidOut (hs : LaidOut layout (.ring (Ring.empty capacity)) type s)
    (hl : LaidOut layout (.ring (Ring.empty capacity)) type l) (hse : s.grid.extent = e)
    (hle : l.grid.extent = e') (hin : e.Within e') (hcapacity : 0 < capacity)
    (hrows : RowsFit e layout.rows)
    (hblocks : ∀ d ∈ layout.declarations, e.blocks.contains d.block = true) :
    Machine.Spread e e' s l where
  extent := hse
  extent' := hle
  instructions q hq := by
    obtain ⟨i, hi⟩ := exists_cellAt layout.rows q
    exact ⟨i, by rw [hs.grid.get?, hse, if_pos hq, hi]⟩
  cells q hq := by
    rw [hs.grid.get?, hl.grid.get?, hse, hle, if_pos hq,
      if_pos (Extent.contains_mono hin.width_le hin.height_le hq)]
  blanks q hq hq' := by
    have hin' := Extent.contains_iff.mp hq'
    rw [hl.grid.get?, hle, if_pos hq', cellAt_of_outside hrows hin'.1 hin'.2.2.1 hq]
    rfl
  stackAt b hb := by
    rw [hs.stackAt, hl.stackAt, hse, hle, if_pos hb,
      if_pos (Extent.contains_blocks_mono hin.width_le hin.height_le hb)]
  further b hb t ht := by
    have hnone : valuesAt layout.declarations b = [] := by
      apply valuesAt_eq_nil
      rintro d hd rfl
      exact Bool.false_ne_true (hb.symm.trans (hblocks d hd))
    rw [hl.stackAt, hnone] at ht
    split at ht
    · cases ht
      exact (Ring.holds_empty hcapacity).items
    · cases ht

theorem together_of_laidOut (hs : LaidOut layout (.ring (Ring.empty capacity)) type s)
    (hl : LaidOut layout (.ring (Ring.empty capacity)) type l)
    (hspread : Machine.Spread e e' s l) (hw : 1 ≤ e.width) (hh : 1 ≤ e.height) :
    Machine.Together e e' s l where
  spread := hspread
  agrees := by
    rw [Machine.Agrees, hs.fresh, hl.fresh]
    rfl
  live := by
    rw [hs.fresh]
    exact State.noConfusion
  place := by
    left
    rw [hs.fresh]
    exact Extent.contains_origin hw hh

theorem together_of_build (hin : f.extent.Within e') (hw : 1 ≤ f.extent.width)
    (hh : 1 ≤ f.extent.height) (hs : build conv type f source = .ok s) :
    ∃ l, build conv type ⟨e', f.capacity⟩ source = .ok l ∧
      Machine.Together f.extent e' s l := by
  obtain ⟨layout, hread, hfits, hlaid, hextent⟩ := laidOut_of_build hs
  obtain ⟨l, hl⟩ := exists_build hread (hfits.enlarge hw hh hin)
  obtain ⟨layout', hread', -, hlaid', hextent'⟩ := laidOut_of_build hl
  obtain rfl : layout = layout' := Except.ok.inj (hread.symm.trans hread')
  have hcapacity := hfits.capacity_pos
    ⟨_, Extent.contains_blocks (Extent.contains_origin hw hh)⟩
  have hspread := spread_of_laidOut hlaid hlaid' hextent hextent' hin (by omega) hfits.rows
    hfits.blocks
  exact ⟨l, hl, together_of_laidOut hlaid hlaid' hspread hw hh⟩

/-- On a larger grid a program prints and asks for the same numbers, stops exactly where it stops on
the smaller one, and leaves the same behind; it only takes the steps more that lead over the margin
on the side where the cursor left the smaller grid. -/
theorem enlarged_grid_runs_alike (conv : Converters) (type : NumberType) (source : String)
    (f : Frame) (s : Machine) (hs : build conv type f source = .ok s) (hw : 1 ≤ f.extent.width)
    (hh : 1 ≤ f.extent.height) (e' : Extent) (hwidth : f.extent.width ≤ e'.width)
    (hheight : f.extent.height ≤ e'.height) (hwidth' : e'.width < Pointer.modulus)
    (hheight' : e'.height < Pointer.modulus) :
    ∃ l, build conv type ⟨e', f.capacity⟩ source = .ok l ∧ ∀ pending : List Number,
      (∀ n, s.events pending n = l.events pending n) ∧
      ((∃ n, (s.run pending n).machine.state = .stopped) ↔
        ∃ n, (l.run pending n).machine.state = .stopped) ∧
      ∀ n n', (s.run pending n).machine.state = .stopped →
        (l.run pending n').machine.state = .stopped →
        let small := (s.run pending n).machine
        let large := (l.run pending n').machine
        large.register = small.register ∧ large.direction = small.direction ∧
        large.inputs = small.inputs ∧ large.outputs = small.outputs ∧
        (∀ b, f.extent.blocks.contains b = true →
          (large.stackAt? b).map Stack.items = (small.stackAt? b).map Stack.items) ∧
        (∀ b, f.extent.blocks.contains b = false →
          ∀ t, large.stackAt? b = some t → t.items = []) ∧
        large.steps = small.steps + f.extent.margin e' small.direction ∧
        Pointer.Beside f.extent small.direction small.pointer := by
  have hin : f.extent.Within e' := ⟨hwidth, hheight, hwidth', hheight'⟩
  obtain ⟨l, hl, htogether⟩ := together_of_build hin hw hh hs
  have hpadded : Machine.Padded f.extent e' s l := .inl htogether
  refine ⟨l, hl, fun pending => ⟨fun n => (hpadded.run hin pending n).1, ?_, ?_⟩⟩
  · exact hpadded.stops_iff hin pending
  · intro n n' hsmall hlarge
    obtain ⟨k, rfl, hahead⟩ := hpadded.ahead_of_stopped hin hsmall hlarge
    refine ⟨hahead.register, hahead.direction, hahead.inputs, hahead.outputs, ?_,
      hahead.spread.further, hahead.steps, hahead.place⟩
    intro b hb
    rw [hahead.spread.stackAt b hb]

theorem enlarged_grid_runs_alike_to_the_right :
    let byte := NumberType.unsigned .bits8
    let pending : List Number := [⟨byte, 7⟩]
    ∃ s l, build (.ofType byte) byte ⟨⟨3, 1⟩, 1⟩ "i,p" = .ok s ∧
      build (.ofType byte) byte ⟨⟨5, 2⟩, 1⟩ "i,p" = .ok l ∧
      (s.run pending 9).machine.state = .stopped ∧ (l.run pending 9).machine.state = .stopped ∧
      (l.run pending 9).machine.steps = (s.run pending 9).machine.steps + 2 := by
  intro byte pending
  have hbuild : (build (.ofType byte) byte ⟨⟨3, 1⟩, 1⟩ "i,p").isOk = true := by decide
  obtain ⟨s, hs⟩ := Outcome.exists_of_isOk hbuild
  obtain ⟨l, hl, hrun⟩ := enlarged_grid_runs_alike _ byte "i,p" ⟨⟨3, 1⟩, 1⟩ s hs (by decide)
    (by decide) ⟨5, 2⟩ (by decide) (by decide) (by decide) (by decide)
  have hsmall : ∀ s ∈ (build (.ofType byte) byte ⟨⟨3, 1⟩, 1⟩ "i,p").toOption,
      (s.run pending 9).machine.state = .stopped ∧
        (s.run pending 9).machine.direction = .right := by decide
  have hlarge : ∀ l ∈ (build (.ofType byte) byte ⟨⟨5, 2⟩, 1⟩ "i,p").toOption,
      (l.run pending 9).machine.state = .stopped := by decide
  rw [hs] at hsmall
  rw [hl] at hlarge
  obtain ⟨hstopped, hright⟩ := hsmall s rfl
  have hstopped' := hlarge l rfl
  obtain ⟨_, _, _, _, _, _, hsteps, _⟩ := (hrun pending).2.2 9 9 hstopped hstopped'
  rw [hright] at hsteps
  exact ⟨s, l, hs, hl, hstopped, hstopped', hsteps⟩

end Program
end MatrixStack
