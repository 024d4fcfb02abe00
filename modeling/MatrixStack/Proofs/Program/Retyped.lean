/-
One text under two number types.

A text that can be loaded under a type of fixed width can be loaded for unbounded integers, and then
the two machines start alike (`exists_load_unbounded`).  What wrapping respects is respected by
their runs: a program that neither compares nor divides computes wrapped numbers whatever the
integers are, and any other program does so for as long as the integers stay in range.
-/
import Mathlib.Data.List.Infix
import MatrixStack.Proofs.Machine.Wrapped
import MatrixStack.Proofs.Program.Faultless

namespace MatrixStack

variable {t : NumberType}

/-! ## Reading a text for unbounded integers -/

theorem Literal.read_unbounded {token : String} {v : Number} (h : Literal.read t token = .ok v) :
    Literal.read .unbounded token = .ok (v.wrapTo .unbounded) := by
  obtain ⟨hvalue, -, -⟩ := Literal.read_eq_ok_iff.mp h
  exact Literal.read_eq_ok_iff.mpr ⟨hvalue, rfl, trivial⟩

namespace Converters

theorem readNumber_unbounded {token : String} {v : Number}
    (h : (ofType t).readNumber token = .ok v) :
    (ofType .unbounded).readNumber token = .ok (v.wrapTo .unbounded) := by
  rw [readNumber_eq_ok_iff, number_ofType_eq_ok_iff] at h ⊢
  exact Literal.read_unbounded h

theorem readCoordinate_unbounded {token : String} {i : Int}
    (h : (ofType t).readCoordinate token = .ok i) :
    (ofType .unbounded).readCoordinate token = .ok i := by
  obtain ⟨v, hv, hi⟩ := readCoordinate_eq_ok_iff.mp h
  rw [number_ofType_eq_ok_iff] at hv
  rw [index_ofType_eq_ok_iff] at hi
  refine readCoordinate_eq_ok_iff.mpr ⟨v.wrapTo .unbounded, ?_, ?_⟩
  · exact number_ofType_eq_ok_iff.mpr (Literal.read_unbounded hv)
  · exact index_ofType_eq_ok_iff.mpr hi

end Converters

/-- The declaration with its numbers wrapped into another type. -/
def Declaration.wrapTo (t : NumberType) (d : Declaration) : Declaration :=
  { d with values := d.values.map (Number.wrapTo t) }

theorem Declaration.read_unbounded {line : List Char} {d : Declaration}
    (h : Declaration.read (.ofType t) line = .ok d) :
    Declaration.read (.ofType .unbounded) line = .ok (d.wrapTo .unbounded) := by
  unfold Declaration.read at h ⊢
  split at h
  case h_1 => cases h
  case h_2 x y values _ =>
    obtain ⟨i, hi, hrest⟩ := Outcome.bind_eq_ok_iff.mp h
    obtain ⟨j, hj, hrest⟩ := Outcome.bind_eq_ok_iff.mp hrest
    obtain ⟨vs, hvs, heq⟩ := Outcome.bind_eq_ok_iff.mp hrest
    cases heq
    refine Outcome.bind_eq_ok_iff.mpr ⟨i, Converters.readCoordinate_unbounded hi, ?_⟩
    refine Outcome.bind_eq_ok_iff.mpr ⟨j, Converters.readCoordinate_unbounded hj, ?_⟩
    refine Outcome.bind_eq_ok_iff.mpr ⟨vs.map (Number.wrapTo .unbounded), ?_, rfl⟩
    exact Outcome.mapM_map_eq_ok (fun _ _ => Converters.readNumber_unbounded) hvs
  case h_3 => cases h

namespace Program

def Layout.wrapTo (t : NumberType) (layout : Layout) : Layout :=
  { layout with declarations := layout.declarations.map (Declaration.wrapTo t) }

theorem Layout.read_unbounded {lines : List (List Char)} {layout : Layout}
    (h : Layout.read (.ofType t) lines = .ok layout) :
    Layout.read (.ofType .unbounded) lines = .ok (layout.wrapTo .unbounded) := by
  obtain ⟨hrows, hds⟩ := Layout.read_eq_ok_iff.mp h
  refine Layout.read_eq_ok_iff.mpr ⟨hrows, ?_⟩
  exact Outcome.mapM_map_eq_ok (fun _ _ => Declaration.read_unbounded) hds

theorem valuesAt_map_wrapTo (ds : List Declaration) (b : Pointer) :
    valuesAt (ds.map (Declaration.wrapTo t)) b = (valuesAt ds b).map (Number.wrapTo t) := by
  rw [valuesAt, valuesAt, List.flatMap_map, List.map_flatMap]
  congr 1
  funext d
  show (if d.block = b then _ else _) = _
  split <;> rfl

variable {source : String} {n m : Machine}

/-- The machines that the two readings of a text give start alike. -/
theorem wrapsTo_of_laidOut {layout : Layout}
    (hbelongs : ∀ d ∈ layout.declarations, ∀ v ∈ d.values, v.Belongs t)
    (hn : LaidOut (layout.wrapTo .unbounded) .empty .unbounded n) (hm : LaidOut layout .empty t m)
    (hgrid : n.grid = m.grid) : Machine.WrapsTo t n m where
  shell := by
    rw [hn.fresh, hm.fresh, hgrid]
    show Machine.fresh m.grid m.stackPlane t =
      { Machine.fresh m.grid m.stackPlane t with register := (Number.zero .unbounded).wrapTo t }
    rw [Number.wrapTo_zero]
    rfl
  stackAt b := by
    rw [hm.stackAt, hn.stackAt, hgrid]
    by_cases hb : m.grid.extent.blocks.contains b = true
    · rw [if_pos hb, if_pos hb, Option.map_some, ← Stack.pushAll_map]
      show some (Stack.pushAll _ _) = some (Stack.pushAll .empty
        ((valuesAt (layout.declarations.map (Declaration.wrapTo .unbounded)) b).map _))
      rw [valuesAt_map_wrapTo, List.map_map]
      have hsame : ∀ v ∈ valuesAt layout.declarations b,
          (Number.wrapTo t ∘ Number.wrapTo .unbounded) v = v := by
        intro v hv
        obtain ⟨d, hd, hmem⟩ := mem_of_mem_valuesAt hv
        exact Number.wrapTo_wrapTo_unbounded (hbelongs d hd v hmem)
      rw [List.map_congr_left hsame, List.map_id']
    · rw [if_neg hb, if_neg hb, Option.map_none]

theorem exists_load_unbounded (hm : load (.ofType t) t source = .ok m) :
    ∃ n, load (.ofType .unbounded) .unbounded source = .ok n ∧ n.WellFormed .unbounded ∧
      n.grid = m.grid ∧ Machine.WrapsTo t n m := by
  obtain ⟨layout, hread, hlayout⟩ := Outcome.bind_eq_ok_iff.mp hm
  have hread' := Layout.read_unbounded hread
  have hblocks : ∀ d ∈ (layout.wrapTo .unbounded).declarations,
      (gridOf layout.rows).extent.blocks.contains d.block = true := by
    intro d hd
    obtain ⟨d', hd', rfl⟩ := List.mem_map.mp hd
    exact exists_ofLayout_iff.mp ⟨m, hlayout⟩ d' hd'
  have hexists : ∃ n, ofLayout .unbounded (layout.wrapTo .unbounded) = .ok n :=
    exists_ofLayout_iff.mpr hblocks
  obtain ⟨n, hlayout'⟩ := hexists
  have hn : load (.ofType .unbounded) .unbounded source = .ok n :=
    Outcome.bind_eq_ok_iff.mpr ⟨_, hread', hlayout'⟩
  refine ⟨n, hn, Loaded.wellFormed (.grown source hn), ?_⟩
  obtain ⟨layout₁, hread₁, hlaid, hgrid⟩ := laidOut_of_load hm
  obtain ⟨layout₂, hread₂, hlaid', hgrid'⟩ := laidOut_of_load hn
  obtain rfl : layout = layout₁ := Except.ok.inj (hread.symm.trans hread₁)
  obtain rfl : layout.wrapTo .unbounded = layout₂ := Except.ok.inj (hread'.symm.trans hread₂)
  have hsame : n.grid = m.grid := hgrid'.trans hgrid.symm
  exact ⟨hsame, wrapsTo_of_laidOut (Layout.belongs_of_read hread) hlaid' hlaid hsame⟩

/-! ## Runs -/

/-- Under any number type, a program that neither compares nor divides goes through the same run as
for unbounded integers, and its numbers are the integers wrapped into the type. -/
theorem wrapping_commutes_with_runs (t : NumberType) (source : String) (m : Machine)
    (hm : load (.ofType t) t source = .ok m)
    (hgrid : ∀ p i, m.grid.get? p = some (.instruction i) → i.char ∉ ['z', 'c', '~']) :
    ∃ n, load (.ofType .unbounded) .unbounded source = .ok n ∧
      ∀ cs : List Call, (∀ c ∈ cs, c.Belongs .unbounded) →
        let n' := n.after cs
        let m' := m.after (cs.map (Call.wrapTo t))
        m.answers (cs.map (Call.wrapTo t)) = (n.answers cs).map (Answer.wrapTo t) ∧
        m'.state = n'.state ∧ m'.pointer = n'.pointer ∧ m'.direction = n'.direction ∧
        m'.steps = n'.steps ∧ m'.outputs = n'.outputs ∧ m'.inputs = n'.inputs ∧
        m'.register = n'.register.wrapTo t ∧
        ∀ b, (m'.stackAt? b).map Stack.items =
          (n'.stackAt? b).map fun s => s.items.map (Number.wrapTo t) := by
  obtain ⟨n, hn, hwell, hsame, hinit⟩ := exists_load_unbounded hm
  refine ⟨n, hn, fun cs hcs => ?_⟩
  have hsteps : ∀ ds, ds ++ [.step] <+: cs → (n.after ds).StepCommutes t := by
    intro ds _
    apply Machine.stepCommutes_of_grid
    rw [Machine.grid_after, hsame]
    exact hgrid
  obtain ⟨hanswers, hafter⟩ := Machine.answers_wrapsTo hwell hinit hcs hsteps
  obtain ⟨hstate, hpointer, hdirection, hsteps', houtputs, hinputs, hregister⟩ := hafter.fields
  exact ⟨hanswers, hstate, hpointer, hdirection, hsteps', houtputs, hinputs, hregister,
    hafter.items⟩

theorem wrapping_commutes_with_runs_past_the_range :
    let byte := NumberType.signed .bits8
    let source := "s 0 0 100\ni+!p"
    let calls := [.step, .input ⟨.unbounded, 300⟩, .step, .step, .step]
    ∃ m n, load (.ofType byte) byte source = .ok m ∧
      (∀ p i, m.grid.get? p = some (.instruction i) → i.char ∉ ['z', 'c', '~']) ∧
      load (.ofType .unbounded) .unbounded source = .ok n ∧
      (∀ c ∈ calls, c.Belongs .unbounded) ∧
      m.answers (calls.map (Call.wrapTo byte)) = (n.answers calls).map (Answer.wrapTo byte) := by
  intro byte source calls
  have hload : (load (.ofType byte) byte source).isOk = true := by decide
  obtain ⟨m, hm⟩ := Outcome.exists_of_isOk hload
  have hcheck : ∀ m ∈ (load (.ofType byte) byte source).toOption, ∀ p ∈ m.grid.extent.pointers,
      ∀ cell ∈ m.grid.get? p, cell ∉ Cell.ofChars ['z', 'c', '~'] := by decide
  rw [hm] at hcheck
  have hgrid : ∀ p i, m.grid.get? p = some (.instruction i) → i.char ∉ ['z', 'c', '~'] :=
    not_mem_chars_of_cells (hcheck m rfl)
  have hcalls : ∀ c ∈ calls, c.Belongs .unbounded := by decide
  obtain ⟨n, hn, hruns⟩ := wrapping_commutes_with_runs byte source m hm hgrid
  exact ⟨m, n, hm, hgrid, hn, hcalls, (hruns calls hcalls).1⟩

/-! ## Runs in range -/

theorem wrapTo_wrapTo_unbounded_of_belongs {c : Call} (h : c.Belongs t) :
    (c.wrapTo .unbounded).wrapTo t = c := by
  cases c with
  | step => rfl
  | input v => exact congrArg Call.input (Number.wrapTo_wrapTo_unbounded h)

theorem belongs_wrapTo_unbounded (c : Call) : (c.wrapTo .unbounded).Belongs .unbounded := by
  cases c with
  | step => trivial
  | input v => exact ⟨rfl, trivial⟩

theorem exists_of_step_prefix {f : Call → Call} (hf : ∀ c, f c = .step → c = .step)
    {cs es : List Call} (h : es ++ [.step] <+: cs.map f) :
    ∃ ds, ds ++ [.step] <+: cs ∧ es = ds.map f := by
  obtain ⟨l, hl, heq⟩ := List.prefix_map_iff.mp h
  obtain ⟨ds, last, rfl, rfl, hlast⟩ := List.append_eq_map_iff.mp heq
  obtain ⟨c, rfl, hc⟩ := List.map_eq_singleton_iff.mp hlast
  rw [hf c hc] at hl
  exact ⟨ds, hl, rfl⟩

/-- What a machine whose register is in range prints is in range. -/
theorem wrapTo_unbounded_of_answer {n : Machine} (hwell : n.WellFormed .unbounded)
    (hrange : n.InRange t) (c : Call) :
    Answer.wrapTo .unbounded (Answer.wrapTo t (Machine.callBy Machine.step n c).1) =
      (Machine.callBy Machine.step n c).1 := by
  cases c with
  | input v => rfl
  | step =>
    show Answer.wrapTo .unbounded (Answer.wrapTo t n.step.1) = n.step.1
    cases hanswer : n.step.1 with
    | error fault => rfl
    | ok printed =>
      cases printed with
      | none => rfl
      | some v =>
        obtain rfl := Machine.eq_register_of_step hanswer
        show Except.ok (some (Number.wrapTo .unbounded (n.register.wrapTo t))) = _
        rw [Number.wrapTo, Number.wrapTo, Number.of_of_holds hrange.1]
        exact congrArg (fun v => Except.ok (some v))
          (Number.eq_of_belongs_unbounded hwell.register).symm

theorem map_value_of_inRange {values : List Number} (h : ∀ v ∈ values, t.Holds v.value) :
    (values.map (Number.wrapTo t)).map Number.value = values.map Number.value := by
  rw [List.map_map]
  exact List.map_congr_left fun v hv => NumberType.wrap_of_holds (h v hv)

/-- The calls with their numbers as unbounded integers. -/
def integerCalls (cs : List Call) : List Call := cs.map (Call.wrapTo .unbounded)

theorem belongs_of_mem_integerCalls {cs : List Call} :
    ∀ c ∈ integerCalls cs, c.Belongs .unbounded := by
  intro c hc
  obtain ⟨c', -, rfl⟩ := List.mem_map.mp hc
  exact belongs_wrapTo_unbounded c'

theorem wrapsTo_of_inRange {cs : List Call} (hwell : n.WellFormed .unbounded)
    (hinit : Machine.WrapsTo t n m) (hcs : ∀ c ∈ cs, c.Belongs t)
    (hrange : ∀ ds, ds <+: cs → (n.after (integerCalls ds)).InRange t)
    (hdiv : ∀ ds, ds ++ [.step] <+: cs → (n.after (integerCalls ds)).DividesExactOrPositive) :
    m.answers cs = (n.answers (integerCalls cs)).map (Answer.wrapTo t) ∧
      Machine.WrapsTo t (n.after (integerCalls cs)) (m.after cs) := by
  have hback : (integerCalls cs).map (Call.wrapTo t) = cs := by
    rw [integerCalls, List.map_map]
    exact (List.map_congr_left fun c hc => wrapTo_wrapTo_unbounded_of_belongs (hcs c hc)).trans
      (List.map_id' cs)
  have hsteps : ∀ es, es ++ [.step] <+: integerCalls cs → (n.after es).StepCommutes t := by
    intro es hes
    obtain ⟨ds, hds, rfl⟩ := exists_of_step_prefix (fun c hc => by cases c <;> trivial) hes
    have hprefix : ds <+: cs := (List.prefix_append ds [.step]).trans hds
    exact Machine.stepCommutes_of_inRange (hrange ds hprefix) (hdiv ds hds)
  have hruns := Machine.answers_wrapsTo hwell hinit belongs_of_mem_integerCalls hsteps
  rwa [hback] at hruns

theorem answers_integerCalls {cs : List Call} (hwell : n.WellFormed .unbounded)
    (hrange : ∀ ds, ds <+: cs → (n.after (integerCalls ds)).InRange t) :
    ((n.answers (integerCalls cs)).map (Answer.wrapTo t)).map (Answer.wrapTo .unbounded) =
      n.answers (integerCalls cs) := by
  rw [List.map_map]
  refine (List.map_congr_left fun a ha => ?_).trans (List.map_id' _)
  obtain ⟨es, c, hes, rfl⟩ := Machine.exists_of_mem_answersBy ha
  obtain ⟨ds, hds, heq⟩ := List.prefix_map_iff.mp ((List.prefix_append es [c]).trans hes)
  subst heq
  have hcalls : ∀ c ∈ integerCalls ds, c.Belongs .unbounded := belongs_of_mem_integerCalls
  have hafter := Machine.after_wellFormed hwell hcalls
  exact wrapTo_unbounded_of_answer hafter (hrange ds hds) c

/-- For as long as no integer leaves the range of a number type and no division rounds differently,
a program goes through the same run under the type as for unbounded integers. -/
theorem runs_alike_without_overflow (t : NumberType) (source : String) (m : Machine)
    (hm : load (.ofType t) t source = .ok m) :
    ∃ n, load (.ofType .unbounded) .unbounded source = .ok n ∧
      ∀ cs : List Call, (∀ c ∈ cs, c.Belongs t) →
        (∀ ds, ds <+: cs → (n.after (integerCalls ds)).InRange t) →
        (∀ ds, ds ++ [.step] <+: cs →
          (n.after (integerCalls ds)).DividesExactOrPositive) →
        (m.answers cs).map (Answer.wrapTo .unbounded) =
          n.answers (integerCalls cs) ∧
        ∀ ds, ds <+: cs →
          let n' := n.after (integerCalls ds)
          let m' := m.after ds
          m'.state = n'.state ∧ m'.pointer = n'.pointer ∧ m'.direction = n'.direction ∧
          m'.steps = n'.steps ∧ m'.outputs = n'.outputs ∧ m'.inputs = n'.inputs ∧
          m'.register.value = n'.register.value ∧
          ∀ b, ((m'.stackAt? b).map fun s => s.items.map Number.value) =
            (n'.stackAt? b).map fun s => s.items.map Number.value := by
  obtain ⟨n, hn, hwell, -, hinit⟩ := exists_load_unbounded hm
  refine ⟨n, hn, fun cs hcs hrange hdiv => ?_⟩
  obtain ⟨hanswers, -⟩ := wrapsTo_of_inRange hwell hinit hcs hrange hdiv
  refine ⟨by rw [hanswers, answers_integerCalls hwell hrange], fun ds hds => ?_⟩
  have hafter := (wrapsTo_of_inRange hwell hinit (fun c hc => hcs c (hds.subset hc))
    (fun es hes => hrange es (hes.trans hds)) (fun es hes => hdiv es (hes.trans hds))).2
  obtain ⟨hstate, hpointer, hdirection, hsteps, houtputs, hinputs, hregister⟩ := hafter.fields
  refine ⟨hstate, hpointer, hdirection, hsteps, houtputs, hinputs, ?_, fun b => ?_⟩
  · rw [hregister]
    exact NumberType.wrap_of_holds (hrange ds hds).1
  · have hitems := congrArg (Option.map (List.map Number.value)) (hafter.items b)
    rw [Option.map_map, Option.map_map] at hitems
    refine hitems.trans ?_
    cases hs : (n.after (integerCalls ds)).stackAt? b with
    | none => rfl
    | some s => exact congrArg some (map_value_of_inRange ((hrange ds hds).2 b s hs))

theorem runs_alike_without_overflow_dividing :
    let byte := NumberType.signed .bits8
    let source := "s 0 0 2\ni~pz"
    let calls := [.step, .input ⟨byte, 7⟩, .step, .step, .step, .step]
    ∃ m n, load (.ofType byte) byte source = .ok m ∧
      load (.ofType .unbounded) .unbounded source = .ok n ∧
      (∀ c ∈ calls, c.Belongs byte) ∧
      (∀ ds, ds <+: calls → (n.after (integerCalls ds)).InRange byte) ∧
      (∀ ds, ds ++ [.step] <+: calls → (n.after (integerCalls ds)).DividesExactOrPositive) ∧
      (m.answers calls).map (Answer.wrapTo .unbounded) = n.answers (integerCalls calls) := by
  intro byte source calls
  have hload : (load (.ofType byte) byte source).isOk = true := by decide
  obtain ⟨m, hm⟩ := Outcome.exists_of_isOk hload
  obtain ⟨n, hn, hruns⟩ := runs_alike_without_overflow byte source m hm
  have hcalls : ∀ c ∈ calls, c.Belongs byte := by decide
  have hcheck : ∀ n ∈ (load (.ofType .unbounded) .unbounded source).toOption, ∀ ds ∈ calls.inits,
      (n.after (integerCalls ds)).InRange byte ∧
        (n.after (integerCalls ds)).DividesExactOrPositive := by decide
  rw [hn] at hcheck
  have hrange : ∀ ds, ds <+: calls → (n.after (integerCalls ds)).InRange byte :=
    fun ds hds => (hcheck n rfl ds ((List.mem_inits ds calls).mpr hds)).1
  have hdiv : ∀ ds, ds ++ [.step] <+: calls →
      (n.after (integerCalls ds)).DividesExactOrPositive := by
    intro ds hds
    have hprefix : ds <+: calls := (List.prefix_append ds [.step]).trans hds
    exact (hcheck n rfl ds ((List.mem_inits ds calls).mpr hprefix)).2
  exact ⟨m, n, hm, hn, hcalls, hrange, hdiv, (hruns calls hcalls hrange hdiv).1⟩

end Program
end MatrixStack
