/-
Actions of the debugger, and what they do.

`Effect` says what an action does to the machine and to the lines that are shown: some steps, or
the acceptance or rejection of a text.  What an action of the debugger does is such an effect
(`Shows.effect_of_does`), and what a sequence of actions does is a sequence of them
(`Acts.effects`).
-/
import MatrixStack.Proofs.Debugger.Batches

namespace MatrixStack
namespace Debugger

variable {t : NumberType} {m m' m₀ : Machine} {d d' : Debugger} {a : Action} {as : List Action}
variable {vs ws : List Number} {lines more : List String} {text : String} {fault : LiteralFault}

/-! ## What actions do -/

/-- The line that reports a text that is no number. -/
def errorLine (fault : LiteralFault) : String := "[ERROR] " ++ fault.message

/-- What an action does to the machine: the numbers that are accepted, the lines that are shown, and
the machine afterwards. -/
inductive Effect (t : NumberType) (m : Machine) :
    Action → List Number → List String → Machine → Prop where
  | steps {a : Action} {n : Nat} (h : a.Takes m n) :
    Effect t m a [] (Session.linesOf (m.run [] n).outputs) (m.run [] n).machine
  | ignored {text : String} (h : m.state ≠ .inputWaiting) : Effect t m (.submit text) [] [] m
  | accepted {text : String} {v : Number} (h : m.state = .inputWaiting)
    (hread : Literal.read t (Text.trim text) = .ok v) :
    Effect t m (.submit text) [v] [] (m.input v)
  | rejected {text : String} {fault : LiteralFault} (h : m.state = .inputWaiting)
    (hread : Literal.read t (Text.trim text) = .error fault) :
    Effect t m (.submit text) [] [errorLine fault] m

/-- What a sequence of actions does to the machine. -/
inductive Effects (t : NumberType) :
    Machine → List Action → List Number → List String → Machine → Prop where
  | nil (m : Machine) : Effects t m [] [] [] m
  | cons {m mid m' : Machine} {a : Action} {as : List Action} {vs ws : List Number}
    {lines more : List String} (h : Effect t m a vs lines mid)
    (hrest : Effects t mid as ws more m') : Effects t m (a :: as) (vs ++ ws) (lines ++ more) m'

/-- The actions come to an end, one after the other. -/
inductive Acts : Debugger → List Action → Debugger → Prop where
  | nil (d : Debugger) : Acts d [] d
  | cons {d mid d' : Debugger} {a : Action} {as : List Action} (h : d.Does a mid)
    (hrest : Acts mid as d') : Acts d (a :: as) d'

theorem Effect.wellFormed (h : Effect t m a vs lines m') (hm : m.WellFormed t) :
    m'.WellFormed t := by
  cases h with
  | steps => exact (Machine.run_nil_wellFormed hm _).2
  | ignored | rejected => exact hm
  | accepted _ hread => exact Machine.input_wellFormed hm (Literal.read_eq_ok_iff.mp hread).2

theorem exists_effect_submit (t : NumberType) (m : Machine) (text : String) :
    ∃ vs lines m', Effect t m (.submit text) vs lines m' := by
  by_cases hs : m.state = .inputWaiting
  · cases hread : Literal.read t (Text.trim text) with
    | ok v => exact ⟨_, _, _, .accepted hs hread⟩
    | error fault => exact ⟨_, _, _, .rejected hs hread⟩
  · exact ⟨_, _, _, .ignored hs⟩

/-! ## Submitted texts -/

section

variable (h : Shows t m d)
include h

theorem Shows.refresh_of_session {s : Session} {value : String}
    (hs : s.output = d.session.output) :
    refresh { d with session := s, inputValue := value } =
      { d with session := s, inputValue := value } := by
  have happend : s.output = d.log ++ [] := by rw [hs, h.log, List.append_nil]
  rw [refresh_of_append happend, hs, ← h.log]

theorem Shows.submit_of_ignored (hs : m.state ≠ .inputWaiting) (text : String) :
    d.submit text = { d with inputValue := "" } := by
  have hprovide : d.session.provide text = .ok d.session := by
    rw [Session.provide, h.holds.machine]
    exact if_neg hs
  rw [submit, hprovide]
  exact h.refresh_of_session rfl

theorem Shows.submit_of_accepted {v : Number} (hs : m.state = .inputWaiting)
    (hread : Literal.read t (Text.trim text) = .ok v) :
    d.submit text = { d with session := d.session.withMachine (m.input v), inputValue := "" } := by
  have hprovide : d.session.provide text = .ok (d.session.withMachine (m.input v)) := by
    rw [Session.provide, h.holds.machine, h.holds.numberType]
    dsimp only
    rw [if_pos hs, hread]
    rfl
  rw [submit, hprovide]
  exact h.refresh_of_session rfl

/-- A text that is no number adds a line about it, and changes nothing but the input box. -/
theorem Shows.submit_of_rejected (hs : m.state = .inputWaiting)
    (hread : Literal.read t (Text.trim text) = .error fault) :
    d.submit text = { d with
      session := { d.session with output := d.session.output ++ [errorLine fault] }
      log := d.log ++ [errorLine fault]
      inputValue := text } := by
  have hprovide : d.session.provide text = .error fault := by
    rw [Session.provide, h.holds.machine, h.holds.numberType]
    dsimp only
    rw [if_pos hs, hread]
    rfl
  let reported : Debugger := { d with
    session := { d.session with output := d.session.output ++ [errorLine fault] }
    inputValue := text }
  have happend : reported.session.output = reported.log ++ [errorLine fault] :=
    congrArg (· ++ [errorLine fault]) h.log.symm
  rw [submit, hprovide]
  show reported.refresh = _
  rw [refresh_of_append happend, happend]

end

/-! ## One action -/

/-- The debugger has come from another one to this machine, and has shown these lines in between. -/
structure ComesTo (t : NumberType) (d : Debugger) (m : Machine) (lines : List String)
    (d' : Debugger) : Prop where
  shows : Shows t m d'
  output : d'.session.output = d.session.output ++ lines

theorem Shows.submit_of_effect (h : Shows t m d) (he : Effect t m (.submit text) vs lines m') :
    ComesTo t d m' lines (d.submit text) := by
  cases he with
  | steps hn => exact hn.elim
  | ignored hs =>
    rw [h.submit_of_ignored hs]
    exact ⟨⟨h.holds, h.log⟩, (List.append_nil _).symm⟩
  | accepted hs hread =>
    rw [h.submit_of_accepted hs hread]
    exact ⟨⟨h.holds.withMachine _, h.log⟩, (List.append_nil _).symm⟩
  | rejected hs hread =>
    rw [h.submit_of_rejected hs hread]
    exact ⟨⟨⟨h.holds.numberType, h.holds.machine, h.holds.phase⟩, congrArg (· ++ _) h.log⟩, rfl⟩

section

variable (hfixed : t ≠ .unbounded)
include hfixed

/-- What the debugger does is what the action is to do. -/
theorem Shows.effect_of_does (h : Shows t m d) (hm : m.WellFormed t) (hd : d.Does a d') :
    ∃ vs lines m', Effect t m a vs lines m' ∧ ComesTo t d m' lines d' := by
  have hsteps (ha : ∀ text, a ≠ .submit text) :
      ∃ vs lines m', Effect t m a vs lines m' ∧ ComesTo t d m' lines d' := by
    obtain ⟨n, hn, rfl⟩ := h.exists_takes_of_does hfixed hm ha hd
    exact ⟨_, _, _, .steps hn, h.afterRun _, rfl⟩
  cases a with
  | submit text =>
    obtain ⟨vs, lines, m', he⟩ := exists_effect_submit t m text
    have hcomes := h.submit_of_effect he
    obtain ⟨turns, hturns⟩ := hd
    have hact : d.act turns (.submit text) = .ok (d.submit text) :=
      act_of_carryOut hfixed (he.wellFormed hm) hcomes.shows.holds.machine rfl
    rw [hact] at hturns
    cases hturns
    exact ⟨vs, lines, m', he, hcomes⟩
  | step | step10 | step100 | run | runToPrint => exact hsteps fun _ => Action.noConfusion

/-- Nothing but the time can be missing for an action. -/
theorem Shows.act_ok_or_endless (h : Shows t m d) (hm : m.WellFormed t) (a : Action)
    (turns : Nat) : (∃ d', d.act turns a = .ok d') ∨ d.act turns a = .error .endless := by
  have hsteps (ha : ∀ text, a ≠ .submit text) :
      (∃ d', d.act turns a = .ok d') ∨ d.act turns a = .error .endless := by
    rcases h.carryOut_eq hfixed hm ha turns with ⟨n, -, heq⟩ | ⟨heq, -⟩
    · exact .inl ⟨_, act_of_carryOut hfixed (Machine.run_nil_wellFormed hm n).2 rfl heq⟩
    · exact .inr (by rw [act, heq])
  cases a with
  | submit text =>
    obtain ⟨vs, lines, m', he⟩ := exists_effect_submit t m text
    exact .inl ⟨_, act_of_carryOut hfixed (he.wellFormed hm)
      (h.submit_of_effect he).shows.holds.machine rfl⟩
  | step | step10 | step100 | run | runToPrint => exact hsteps fun _ => Action.noConfusion

end

/-! ## Sequences of actions -/

theorem ComesTo.refl (h : Shows t m d) : ComesTo t d m [] d := ⟨h, (List.append_nil _).symm⟩

theorem ComesTo.trans {mid : Debugger} (h : ComesTo t d m lines mid)
    (h' : ComesTo t mid m' more d') : ComesTo t d m' (lines ++ more) d' :=
  ⟨h'.shows, by rw [h'.output, h.output, List.append_assoc]⟩

section

variable (hfixed : t ≠ .unbounded)
include hfixed

theorem Acts.effects (hacts : Acts d as d') (h : Shows t m d) (hm : m.WellFormed t) :
    ∃ vs lines m', Effects t m as vs lines m' ∧ ComesTo t d m' lines d' := by
  induction hacts generalizing m with
  | nil => exact ⟨[], [], m, .nil m, .refl h⟩
  | cons hdoes _ ih =>
    obtain ⟨vs, lines, mid, he, hcomes⟩ := h.effect_of_does hfixed hm hdoes
    obtain ⟨ws, more, m', hes, hcomes'⟩ := ih hcomes.shows (he.wellFormed hm)
    exact ⟨_, _, m', .cons he hes, hcomes.trans hcomes'⟩

end

theorem Effects.wellFormed (hes : Effects t m as vs lines m') (hm : m.WellFormed t) :
    m'.WellFormed t := by
  induction hes with
  | nil => exact hm
  | cons he _ ih => exact ih (he.wellFormed hm)

/-- Wherever actions lead, one run gets there with the numbers that have been accepted. -/
theorem Effects.reached (hes : Effects t m as vs lines m') (hm : m.WellFormed t)
    (hsteps : m₀.steps = 0) (h : m₀.Reached ws m) : m₀.Reached (ws ++ vs) m' := by
  induction hes generalizing ws with
  | nil =>
    rw [List.append_nil]
    exact h
  | @cons m mid m' a as vs _ _ _ he _ ih =>
    have hmid : m₀.Reached (ws ++ vs) mid := by
      cases he with
      | steps =>
        rw [List.append_nil]
        exact h.run_nil _ (Machine.run_nil_wellFormed hm _).1
      | ignored | rejected =>
        rw [List.append_nil]
        exact h
      | accepted hs => exact h.input hsteps hs _
    rw [← List.append_assoc]
    exact ih (he.wellFormed hm) hmid

/-! ## Steps one by one -/

section

variable (hfixed : t ≠ .unbounded)
include hfixed

theorem Shows.session_ticks (h : Shows t m d) (hm : m.WellFormed t) (n : Nat) :
    (d.session.ticks n).2 = d.session.afterRun (m.run [] n) := by
  obtain ⟨bs, hbs⟩ := h.holds.ticks_eq hm hfixed n
  rw [hbs]

/-- So many single steps leave what so many steps of the session leave, with every line shown. -/
theorem Shows.acts_replicate (h : Shows t m d) (hm : m.WellFormed t) (n : Nat) :
    ∃ d', Acts d (List.replicate n .step) d' ∧ d'.session = (d.session.ticks n).2 ∧
      d'.log = d'.session.output := by
  have hone : ∀ n, ∃ d', Acts d (List.replicate n .step) d' ∧
      d'.session = d.session.afterRun (m.run [] n) ∧ d'.log = d'.session.output := by
    intro n
    induction n generalizing m d with
    | zero => exact ⟨d, .nil d, by rw [Machine.run_nil_zero, h.holds.afterRun_idle], h.log⟩
    | succ n ih =>
      obtain ⟨hfault, hafter⟩ := Machine.run_nil_wellFormed hm 1
      have hdoes := h.does_of_takes hfixed hm (a := .step) rfl
      obtain ⟨d', hacts, hsession, hlog⟩ := ih (h.afterRun (m.run [] 1)) hafter
      refine ⟨d', .cons hdoes hacts, ?_, hlog⟩
      rw [hsession, Machine.run_nil_succ hfault n, ← Session.afterRun_afterRun]
      rfl
  obtain ⟨d', hacts, hsession, hlog⟩ := hone n
  exact ⟨d', hacts, by rw [hsession, h.session_ticks hfixed hm], hlog⟩

theorem Shows.takes_run_iff (h : Shows t m d) (hm : m.WellFormed t) {n : Nat} :
    Action.run.Takes m n ↔ First (fun k => (d.session.ticks k).2.phase ≠ .running) n := by
  refine Action.takes_run_iff.trans (First.congr fun k => ?_)
  rw [h.session_ticks hfixed hm]
  exact not_congr Phase.ofState_eq_running_iff.symm

theorem Shows.takes_runToPrint_iff (h : Shows t m d) (hm : m.WellFormed t) {n : Nat} :
    Action.runToPrint.Takes m n ↔
      First (fun k => (d.session.ticks k).2.phase ≠ .running ∨
        (d.session.ticks k).2.output ≠ d.session.output) n := by
  refine Action.takes_runToPrint_iff.trans (First.congr fun k => ?_)
  rw [h.session_ticks hfixed hm]
  refine or_congr (not_congr Phase.ofState_eq_running_iff.symm) (not_congr ?_)
  show _ ↔ d.session.output ++ Session.linesOf _ = d.session.output
  rw [List.append_right_eq_self, Session.linesOf, List.map_eq_nil_iff]

end

/-- A run to the next print prints one number, or comes to a stop without one. -/
theorem Action.Takes.printed {n : Nat} (hn : Action.runToPrint.Takes m n)
    (hm : m.WellFormed t) :
    (∃ v, (m.run [] n).outputs = [v]) ∨
      (m.run [] n).outputs = [] ∧ (m.run [] n).machine.state ≠ .running := by
  obtain ⟨hstops, hbefore⟩ := Action.takes_runToPrint_iff.mp hn
  cases n with
  | zero =>
    rw [Machine.run_nil_zero] at hstops ⊢
    exact .inr ⟨rfl, hstops.resolve_right fun h => h rfl⟩
  | succ n =>
    obtain ⟨hfault, hafter⟩ := Machine.run_nil_wellFormed hm n
    have hlast := hbefore n (Nat.lt_succ_self n)
    rw [not_or, Decidable.not_not, Decidable.not_not] at hlast
    obtain ⟨hs, hnone⟩ := hlast
    have hrun : (m.run [] (n + 1)).outputs = ((m.run [] n).machine.run [] 1).outputs := by
      rw [Machine.run_nil_add hfault, hnone]
      exact List.nil_append _
    obtain ⟨⟨printed, hprinted⟩, -⟩ := Machine.step_wellFormed hafter
    rw [Machine.run_nil_one hs (Prod.ext hprinted rfl)] at hrun
    cases printed with
    | none => exact .inr ⟨hrun, hstops.resolve_right fun h => h hrun⟩
    | some v => exact .inl ⟨v, hrun⟩

/-! ## The debugger -/

theorem shows_start {c : Session.Command} {r : Session.Record} (hopens : c.opens? t = some r) :
    Shows t r.loaded (start ((Session.start t).perform c).2) ∧
      (start ((Session.start t).perform c).2).session.output = [] := by
  have hmachine : r.machine = r.loaded := by
    rw [Session.Record.machine, Session.calls_of_opens? hopens]
    rfl
  have hprinted : r.printed = [] := by
    rw [Session.Record.printed, Session.calls_of_opens? hopens]
    rfl
  have htype : (Session.start t).numberType = t := rfl
  rw [Session.perform_of_opens? htype hopens, Session.ofRecord, hmachine, hprinted]
  exact ⟨⟨⟨rfl, rfl, rfl⟩, rfl⟩, rfl⟩

/-- Whatever a command has loaded, and whatever actions have come to an end in the debugger, these
have done to the machine what they are to do: the output and the log both hold the lines that are to
be shown, and the machine is where one run of the loaded machine gets to, with the numbers that have
been accepted and its own count of steps, one more if it has stopped.  The next action does not come
to an end only if it is a run that never stops.  If it steps the machine, it leaves the session of
so many single steps: of ten or a hundred, of the least number after which the session is not
running, or of the least number after which it is not running or has printed, and then it has
printed one number or none.  A text that is rejected adds its line and changes nothing else. -/
theorem actions_are_batches_of_steps (t : NumberType) (hfixed : t ≠ .unbounded)
    (c : Session.Command) (r : Session.Record) (hopens : c.opens? t = some r) (as : List Action)
    (d : Debugger) (hacts : Acts (start ((Session.start t).perform c).2) as d) :
    ∃ vs lines m, Effects t r.loaded as vs lines m ∧
      d.session.machine = some m ∧ d.session.phase = Phase.ofState m.state ∧
      d.session.output = lines ∧ d.log = lines ∧
      (r.loaded.run vs (m.steps + if m.state = .stopped then 1 else 0)).machine = m ∧
      (∀ a turns, (∃ d', d.act turns a = .ok d') ∨ d.act turns a = .error .endless) ∧
      (∀ a, (∀ text, a ≠ .submit text) → ((∃ d', d.Does a d') ↔ ∃ n, a.Takes m n)) ∧
      (∀ a d' n, d.Does a d' → a.Takes m n →
        d'.session = (d.session.ticks n).2 ∧ d'.log = d'.session.output ∧
          ∃ single, Acts d (List.replicate n .step) single ∧
            single.session = d'.session ∧ single.log = d'.log) ∧
      (∀ n, Action.run.Takes m n ↔
        First (fun k => (d.session.ticks k).2.phase ≠ .running) n) ∧
      (∀ n, Action.runToPrint.Takes m n ↔
        First (fun k => (d.session.ticks k).2.phase ≠ .running ∨
          (d.session.ticks k).2.output ≠ d.session.output) n) ∧
      (∀ d', d.Does .runToPrint d' →
        (∃ v : Number, d'.session.output = d.session.output ++ [Decimal.text v.value]) ∨
          d'.session.output = d.session.output ∧
            (d'.session.phase = .done ∨ d'.session.phase = .input)) ∧
      ∀ text fault d', d.Does (.submit text) d' → m.state = .inputWaiting →
        Literal.read t (Text.trim text) = .error fault →
        d'.session = { d.session with
          output := d.session.output ++ ["[ERROR] " ++ fault.message] } := by
  have hvalid := Session.valid_of_opens? hopens
  have hloaded := hvalid.loaded
  obtain ⟨hstart, hempty⟩ := shows_start hopens
  obtain ⟨vs, lines, m, hes, hshows, houtput⟩ := hacts.effects hfixed hstart hloaded.wellFormed
  have hm := hes.wellFormed hloaded.wellFormed
  have hreached := hes.reached hloaded.wellFormed hloaded.steps
    (Machine.reached_refl hloaded.state hloaded.steps)
  rw [hempty, List.nil_append] at houtput
  refine ⟨vs, lines, m, hes, hshows.holds.machine, hshows.holds.phase, houtput,
    hshows.log.trans houtput, hreached.machine, hshows.act_ok_or_endless hfixed hm,
    fun a ha => ⟨fun ⟨d', hd⟩ => ?_, fun ⟨n, hn⟩ => ?_⟩, fun a d' n hd hn => ?_,
    fun n => hshows.takes_run_iff hfixed hm, fun n => hshows.takes_runToPrint_iff hfixed hm,
    fun d' hd => ?_, fun text fault d' hd hs hread => ?_⟩
  · obtain ⟨n, hn, -⟩ := hshows.exists_takes_of_does hfixed hm ha hd
    exact ⟨n, hn⟩
  · exact ⟨_, hshows.does_of_takes hfixed hm hn⟩
  · have ha : ∀ text, a ≠ .submit text := by
      rintro text rfl
      exact hn
    obtain ⟨n', hn', rfl⟩ := hshows.exists_takes_of_does hfixed hm ha hd
    obtain rfl := hn.unique hn'
    obtain ⟨single, hsingle, hsession, hlog⟩ := hshows.acts_replicate hfixed hm n
    have hticks : (d.afterRun (m.run [] n)).session = (d.session.ticks n).2 :=
      (hshows.session_ticks hfixed hm n).symm
    refine ⟨hticks, rfl, single, hsingle, hsession.trans hticks.symm, ?_⟩
    rw [hlog, hsession, ← hticks]
    rfl
  · have ha : ∀ text, Action.runToPrint ≠ .submit text := nofun
    obtain ⟨n, hn, rfl⟩ := hshows.exists_takes_of_does hfixed hm ha hd
    rcases hn.printed hm with ⟨v, hv⟩ | ⟨hnone, hidle⟩
    · refine .inl ⟨v, ?_⟩
      show d.session.output ++ Session.linesOf _ = _
      rw [hv]
      rfl
    · refine .inr ⟨?_, ?_⟩
      · show d.session.output ++ Session.linesOf _ = _
        rw [hnone]
        exact List.append_nil _
      · show Phase.ofState _ = _ ∨ Phase.ofState _ = _
        cases hstate : (m.run [] n).machine.state with
        | running => exact absurd hstate hidle
        | stopped => exact .inl rfl
        | inputWaiting => exact .inr rfl
  · obtain ⟨turns, hturns⟩ := hd
    have hact : d.act turns (.submit text) = .ok (d.submit text) :=
      act_of_carryOut hfixed hm
        (hshows.submit_of_effect (.rejected hs hread)).shows.holds.machine rfl
    rw [hact] at hturns
    cases hturns
    rw [hshows.submit_of_rejected hs hread]
    rfl

theorem actions_are_batches_of_steps_around_an_input :
    let byte := NumberType.unsigned .bits8
    let c : Session.Command := .loadText "ip" "answered.msc"
    let as : List Action := [.run, .submit "x", .submit " 7 ", .runToPrint, .step10]
    ∃ r d vs lines m, c.opens? byte = some r ∧
      Acts (start ((Session.start byte).perform c).2) as d ∧
      Effects byte r.loaded as vs lines m ∧ m.state = .stopped ∧
      d.log.length = 2 ∧ d.log.getLast? = some "7" ∧ d.log = lines ∧
      (r.loaded.run vs (m.steps + 1)).machine = m := by
  intro byte c as
  let d₀ := start ((Session.start byte).perform c).2
  have hload : (c.opens? byte).isSome = true := by decide +kernel
  obtain ⟨r, hopens⟩ := Option.isSome_iff_exists.mp hload
  have hacts : ∃ d₁, (d₀.act 9 .run).toOption = some d₁ ∧
      ∃ d₂, (d₁.act 0 (.submit "x")).toOption = some d₂ ∧
      ∃ d₃, (d₂.act 0 (.submit " 7 ")).toOption = some d₃ ∧
      ∃ d₄, (d₃.act 9 .runToPrint).toOption = some d₄ ∧
      ∃ d₅, (d₄.act 0 .step10).toOption = some d₅ ∧ d₅.session.phase = .done ∧
        d₅.log.length = 2 ∧ d₅.log.getLast? = some "7" := by decide +kernel
  simp only [Outcome.toOption_eq_some_iff] at hacts
  obtain ⟨d₁, h₁, d₂, h₂, d₃, h₃, d₄, h₄, d, h₅, hphase, hlength, hlast⟩ := hacts
  have hd : Acts d₀ as d :=
    .cons ⟨9, h₁⟩ <| .cons ⟨0, h₂⟩ <| .cons ⟨0, h₃⟩ <| .cons ⟨9, h₄⟩ <| .cons ⟨0, h₅⟩ <| .nil d
  obtain ⟨vs, lines, m, hes, -, hstate, -, hlog, hrun, -⟩ :=
    actions_are_batches_of_steps byte (by decide) c r hopens as d hd
  have hstopped : m.state = .stopped := by
    cases hs : m.state with
    | stopped => rfl
    | running | inputWaiting =>
      rw [hphase, hs] at hstate
      cases hstate
  rw [if_pos hstopped] at hrun
  exact ⟨r, d, vs, lines, m, hopens, hd, hes, hstopped, hlength, hlast, hlog, hrun⟩

end Debugger
end MatrixStack
