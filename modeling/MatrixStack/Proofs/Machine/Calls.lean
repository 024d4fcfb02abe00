/-
Sequences of calls.

From outside a machine is only ever stepped or given a number.  A sequence of such calls leads to
`after` and is answered by `answers`.  Both are defined over any way of stepping, so that a machine
can be compared with one that steps differently.  What a single call keeps, a sequence keeps
(`afterBy_keeps`), and two machines that answer each call alike answer every sequence alike
(`answersBy_alike`), also where calls and answers have to be translated from one to the other
(`answersBy_translated`).
-/
import MatrixStack.Machine.Basic

namespace MatrixStack

inductive Call where
  | step
  | input (v : Number)
  deriving DecidableEq

abbrev Answer := Except Fault (Option Number)

abbrev Stepper := Machine → Answer × Machine

namespace Machine

def callBy (step : Stepper) (m : Machine) : Call → Answer × Machine
  | .step => step m
  | .input v => (.ok none, m.input v)

/-- The machine after a sequence of calls. -/
def afterBy (step : Stepper) (m : Machine) : List Call → Machine
  | [] => m
  | c :: cs => afterBy step (callBy step m c).2 cs

/-- What a sequence of calls is answered. -/
def answersBy (step : Stepper) (m : Machine) : List Call → List Answer
  | [] => []
  | c :: cs => (callBy step m c).1 :: answersBy step (callBy step m c).2 cs

def after (m : Machine) (cs : List Call) : Machine := m.afterBy step cs

def answers (m : Machine) (cs : List Call) : List Answer := m.answersBy step cs

section

variable {step step' : Stepper} {m m' : Machine} {cs : List Call}

theorem afterBy_append (step : Stepper) (m : Machine) (cs ds : List Call) :
    m.afterBy step (cs ++ ds) = (m.afterBy step cs).afterBy step ds := by
  induction cs generalizing m with
  | nil => rfl
  | cons c cs ih => exact ih (callBy step m c).2

theorem afterBy_keeps {Good : Machine → Prop} {Legal : Call → Prop}
    (hcall : ∀ m c, Legal c → Good m → Good (callBy step m c).2)
    (hm : Good m) (hcs : ∀ c ∈ cs, Legal c) : Good (m.afterBy step cs) := by
  induction cs generalizing m with
  | nil => exact hm
  | cons c cs ih =>
    have hc := hcall m c (hcs c (List.mem_cons_self ..)) hm
    exact ih hc fun d hd => hcs d (List.mem_cons_of_mem c hd)

theorem answersBy_all {Good : Machine → Prop} {Legal : Call → Prop} {Fine : Answer → Prop}
    (hcall : ∀ m c, Legal c → Good m → Fine (callBy step m c).1 ∧ Good (callBy step m c).2)
    (hm : Good m) (hcs : ∀ c ∈ cs, Legal c) : ∀ a ∈ m.answersBy step cs, Fine a := by
  induction cs generalizing m with
  | nil => exact fun a ha => absurd ha List.not_mem_nil
  | cons c cs ih =>
    obtain ⟨hfine, hgood⟩ := hcall m c (hcs c (List.mem_cons_self ..)) hm
    intro a ha
    rcases List.mem_cons.mp ha with rfl | ha
    · exact hfine
    · exact ih hgood (fun d hd => hcs d (List.mem_cons_of_mem c hd)) a ha

/-- Every answer of a sequence is that to one call, where it comes. -/
theorem exists_of_mem_answersBy {a : Answer} (h : a ∈ m.answersBy step cs) :
    ∃ ds c, ds ++ [c] <+: cs ∧ a = (callBy step (m.afterBy step ds) c).1 := by
  induction cs generalizing m with
  | nil => exact absurd h List.not_mem_nil
  | cons c cs ih =>
    rcases List.mem_cons.mp h with rfl | hrest
    · exact ⟨[], c, List.cons_prefix_cons.mpr ⟨rfl, List.nil_prefix⟩, rfl⟩
    · obtain ⟨ds, d, hds, ha⟩ := ih hrest
      exact ⟨c :: ds, d, List.cons_prefix_cons.mpr ⟨rfl, hds⟩, ha⟩

/-- A relation that every call keeps, the right machine receiving the translated call and giving the
translated answer, is kept by every sequence of calls of which each is `Fine` where it comes. -/
theorem answersBy_translated {R : Machine → Machine → Prop} {Fine : Machine → Call → Prop}
    {f : Call → Call} {g : Answer → Answer}
    (hcall : ∀ m m' c, R m m' → Fine m c →
      (callBy step' m' (f c)).1 = g (callBy step m c).1 ∧
        R (callBy step m c).2 (callBy step' m' (f c)).2)
    (hm : R m m') (hcs : ∀ ds c, ds ++ [c] <+: cs → Fine (m.afterBy step ds) c) :
    m'.answersBy step' (cs.map f) = (m.answersBy step cs).map g ∧
      R (m.afterBy step cs) (m'.afterBy step' (cs.map f)) := by
  induction cs generalizing m m' with
  | nil => exact ⟨rfl, hm⟩
  | cons c cs ih =>
    have hfirst : Fine m c := hcs [] c (List.cons_prefix_cons.mpr ⟨rfl, List.nil_prefix⟩)
    obtain ⟨hanswer, hrest⟩ := hcall m m' c hm hfirst
    obtain ⟨hanswers, hafter⟩ := ih hrest fun ds d hds =>
      hcs (c :: ds) d (List.cons_prefix_cons.mpr ⟨rfl, hds⟩)
    refine ⟨?_, hafter⟩
    show _ :: _ = _ :: _
    rw [hanswer, hanswers]

/-- A relation that every call keeps while it is answered alike on both sides, as long as the left
machine stays `Within` a bound, is kept by every sequence of calls within the bound. -/
theorem answersBy_alike {R : Machine → Machine → Prop} {Within : Machine → Prop}
    (hcall : ∀ m m' c, R m m' → Within (callBy step m c).2 →
      (callBy step m c).1 = (callBy step' m' c).1 ∧
        R (callBy step m c).2 (callBy step' m' c).2)
    (hm : R m m') (hcs : ∀ ds, ds <+: cs → Within (m.afterBy step ds)) :
    m.answersBy step cs = m'.answersBy step' cs ∧
      R (m.afterBy step cs) (m'.afterBy step' cs) := by
  have hfine : ∀ ds c, ds ++ [c] <+: cs → Within (callBy step (m.afterBy step ds) c).2 := by
    intro ds c hds
    have hwithin := hcs _ hds
    rwa [afterBy_append] at hwithin
  obtain ⟨hanswers, hafter⟩ := answersBy_translated (f := id) (g := id)
    (fun n n' c hn hbound => ⟨(hcall n n' c hn hbound).1.symm, (hcall n n' c hn hbound).2⟩) hm hfine
  rw [List.map_id, List.map_id] at hanswers
  rw [List.map_id] at hafter
  exact ⟨hanswers.symm, hafter⟩

theorem answersBy_alike_always {R : Machine → Machine → Prop}
    (hcall : ∀ m m' c, R m m' → (callBy step m c).1 = (callBy step' m' c).1 ∧
      R (callBy step m c).2 (callBy step' m' c).2)
    (hm : R m m') :
    m.answersBy step cs = m'.answersBy step' cs ∧
      R (m.afterBy step cs) (m'.afterBy step' cs) := by
  let Always : Machine → Prop := fun _ => True
  have hbounded : ∀ ds, ds <+: cs → Always (m.afterBy step ds) := fun _ _ => trivial
  exact answersBy_alike (fun n n' c hn _ => hcall n n' c hn) hm hbounded

end
end Machine
end MatrixStack
