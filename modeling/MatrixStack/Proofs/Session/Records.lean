/-
Sessions and their records.

The record of a session is the program that has been loaded last and the calls that its machine has
received since.  A command that loads begins a new record, a step or an input is added to the one
there is, and a command that fails is not recorded.  The whole session is the one that belongs to
its record (`afterAll_eq`): the phase that it keeps beside the machine is never out of date, and
what it has printed is what the calls of its record have given out.
-/
import Mathlib.Data.List.Induction
import MatrixStack.Proofs.Program.Counters
import MatrixStack.Proofs.Program.Faultless
import MatrixStack.Proofs.Session.Commands
import MatrixStack.Proofs.Text.Decimal

namespace MatrixStack

theorem Number.printed?_of_printable {v : Number} (h : Decimal.printable v.value = true) :
    v.printed? = some (Decimal.text v.value) :=
  Decimal.print?_eq_some_iff.mpr ⟨h, rfl⟩

theorem Phase.ofState_eq_running_iff {state : State} :
    Phase.ofState state = .running ↔ state = .running := by
  cases state <;> decide

theorem Phase.ofState_ne_idle (state : State) : Phase.ofState state ≠ .idle := by
  cases state <;> decide

namespace Session

/-- Numbers as the lines of an output. -/
def linesOf (vs : List Number) : List String := vs.map fun v => Decimal.text v.value

theorem linesOf_append (vs ws : List Number) : linesOf (vs ++ ws) = linesOf vs ++ linesOf ws :=
  List.map_append

theorem tick_of_step {s : Session} {m after : Machine} {printed : Option Number}
    (hm : s.machine = some m) (hstep : m.step = (.ok printed, after))
    (hprintable : ∀ v ∈ printed, Decimal.printable v.value = true) :
    s.tick = (.ok (after.state = .running),
      { s.withMachine after with output := s.output ++ linesOf printed.toList }) := by
  unfold tick
  rw [hm]
  dsimp only
  rw [hstep]
  cases printed with
  | none =>
    dsimp only
    rw [show linesOf (none : Option Number).toList = [] from rfl, List.append_nil]
    rfl
  | some v =>
    dsimp only
    rw [Number.printed?_of_printable (hprintable v rfl)]
    rfl

/-! ## Records -/

/-- The program that has been loaded last, and the calls that its machine has received since. -/
structure Record where
  source : String
  name : String
  loaded : Machine
  calls : List Call

namespace Record

variable (r : Record)

def machine : Machine := r.loaded.after r.calls

def printed : List Number := r.loaded.given r.calls

/-- The record of one more call. -/
def add (c : Call) : Record := { r with calls := r.calls ++ [c] }

theorem machine_add_step : (r.add .step).machine = r.machine.step.2 :=
  Machine.after_append r.loaded r.calls [.step]

theorem machine_add_input (v : Number) : (r.add (.input v)).machine = r.machine.input v :=
  Machine.after_append r.loaded r.calls [.input v]

theorem printed_add_step :
    (r.add .step).printed = r.printed ++ (Answer.printed? r.machine.step.1).toList := by
  show r.loaded.given (r.calls ++ [.step]) = _
  rw [Machine.given_append, Machine.given_step_cons]
  exact congrArg (r.printed ++ ·) (List.append_nil _)

theorem printed_add_input (v : Number) : (r.add (.input v)).printed = r.printed :=
  (Machine.given_append r.loaded r.calls [.input v]).trans (List.append_nil _)

/-- The record of a loaded program, with numbers of its type only. -/
structure Valid (t : NumberType) : Prop where
  loaded : Program.Loaded (.ofType t) t r.loaded
  calls : ∀ c ∈ r.calls, c.Belongs t

variable {r} {t : NumberType}

theorem Valid.wellFormed (h : r.Valid t) : r.machine.WellFormed t :=
  Machine.after_wellFormed h.loaded.wellFormed h.calls

theorem Valid.add (h : r.Valid t) {c : Call} (hc : c.Belongs t) : (r.add c).Valid t where
  loaded := h.loaded
  calls c' hc' := by
    rcases List.mem_append.mp hc' with hold | hnew
    · exact h.calls c' hold
    · obtain rfl := List.mem_singleton.mp hnew
      exact hc

/-- What the machine of a record counts as outputs is what has been printed. -/
theorem Valid.outputs (h : r.Valid t) : r.machine.outputs = r.printed.length :=
  (h.loaded.accounts r.calls).2.1

theorem Valid.printable (h : r.Valid t) (hfixed : t ≠ .unbounded) :
    ∀ v ∈ r.printed, Decimal.printable v.value = true := fun v hv =>
  NumberType.printable_of_holds hfixed
    (Machine.given_belongs h.loaded.wellFormed h.calls v hv).2

end Record

/-- The text that a command is to load and its name, if there is one and it can be read. -/
def Command.text? : Command → Option (String × String)
  | .loadText source name => some (source, name)
  | .loadFile tree file => do
    let path := Path.ofString file
    let bytes ← (tree.read path).toOption
    let source ← (Program.textOfBytes path.text bytes).toOption
    return (source, path.text)
  | .tick | .provide _ => none

/-- The record that a command begins, if it loads a program. -/
def Command.opens? (t : NumberType) (c : Command) : Option Record := do
  let (source, name) ← c.text?
  let m ← (Program.load (.ofType t) t source).toOption
  return ⟨source, name, m, []⟩

namespace Record

/-- The record of a text that has been read as a number, or of one that is none. -/
def answer (r : Record) : Except LiteralFault Number → Record
  | .error _ => r
  | .ok v => r.add (.input v)

/-- What a command adds to a record.  An input is always added, since a machine that does not wait
takes no notice of it. -/
def note (t : NumberType) (r : Record) : Command → Record
  | .loadText .. | .loadFile .. => r
  | .tick => r.add .step
  | .provide text => r.answer (Literal.read t (Text.trim text))

end Record

def recordAfter (t : NumberType) (r? : Option Record) (c : Command) : Option Record :=
  (c.opens? t).or (r?.map (·.note t c))

/-- The record of a sequence of commands to a session of its own. -/
def record (t : NumberType) (cs : List Command) : Option Record := cs.foldl (recordAfter t) none

/-- The session that belongs to a record. -/
def ofRecord (t : NumberType) : Option Record → Session
  | none => start t
  | some r => ⟨t, some r.machine, Text.lines r.source, r.name, linesOf r.printed,
      Phase.ofState r.machine.state⟩

/-! ## One command -/

variable {t : NumberType} {s : Session} {c : Command} {r : Record} {r? : Option Record}

theorem Command.text?_loadFile (tree : FileTree) (file : String) :
    (Command.loadFile tree file).text? =
      (tree.read (Path.ofString file)).toOption.bind fun bytes =>
        (Program.textOfBytes (Path.ofString file).text bytes).toOption.bind fun source =>
          some (source, (Path.ofString file).text) := rfl

theorem loadFile_of_text {tree : FileTree} {file source name : String}
    (h : (Command.loadFile tree file).text? = some (source, name)) :
    s.loadFile tree file = (s.loadText source name).mapError .load := by
  rw [Command.text?_loadFile] at h
  obtain ⟨bytes, hbytes, h⟩ := Option.bind_eq_some_iff.mp h
  obtain ⟨source', hsource, h⟩ := Option.bind_eq_some_iff.mp h
  cases h
  rw [Outcome.toOption_eq_some_iff] at hbytes hsource
  rw [loadFile, hbytes, Except.mapError, Outcome.ok_bind, hsource, Except.mapError,
    Outcome.ok_bind]

theorem perform_of_text {source name : String} (h : c.text? = some (source, name)) :
    s.perform c = settle (.opening ∘ .load) s (s.loadText source name) := by
  cases c with
  | loadText source' name' =>
    cases h
    rfl
  | loadFile tree file =>
    rw [perform, loadFile_of_text h]
    cases s.loadText source name <;> rfl
  | tick | provide => cases h

theorem loadText_of_load {source name : String} {m : Machine} (hs : s.numberType = t)
    (h : Program.load (.ofType t) t source = .ok m) :
    s.loadText source name = .ok (ofRecord t (some ⟨source, name, m, []⟩)) := by
  have hloaded : Program.Loaded (.ofType t) t m := .grown source h
  have hstate : m.state = .running := hloaded.state
  rw [loadText, hs, h, Outcome.ok_bind, ofRecord]
  show Except.ok _ = Except.ok _
  rw [show Record.machine ⟨source, name, m, []⟩ = m from rfl, hstate]
  rfl

theorem loadText_of_load_error {source name : String} {e : LoadError} (hs : s.numberType = t)
    (h : Program.load (.ofType t) t source = .error e) :
    s.loadText source name = .error e := by
  rw [loadText, hs, h]
  rfl

/-- A program that can be loaded takes the place of the whole session. -/
theorem perform_of_opens? (hs : s.numberType = t) (h : c.opens? t = some r) :
    s.perform c = (.ok none, ofRecord t (some r)) := by
  obtain ⟨⟨source, name⟩, htext, h⟩ := Option.bind_eq_some_iff.mp h
  obtain ⟨m, hm, h⟩ := Option.bind_eq_some_iff.mp h
  cases h
  rw [perform_of_text htext, loadText_of_load hs (Outcome.toOption_eq_some_iff.mp hm)]
  rfl

theorem calls_of_opens? (h : c.opens? t = some r) : r.calls = [] := by
  obtain ⟨⟨source, name⟩, -, h⟩ := Option.bind_eq_some_iff.mp h
  obtain ⟨m, -, h⟩ := Option.bind_eq_some_iff.mp h
  cases h
  rfl

theorem valid_of_opens? (h : c.opens? t = some r) : r.Valid t := by
  obtain ⟨⟨source, name⟩, -, h⟩ := Option.bind_eq_some_iff.mp h
  obtain ⟨m, hm, h⟩ := Option.bind_eq_some_iff.mp h
  cases h
  exact ⟨.grown source (Outcome.toOption_eq_some_iff.mp hm), nofun⟩

/-- The command is to load a program. -/
def Command.loads : Command → Bool
  | .loadText .. | .loadFile .. => true
  | .tick | .provide _ => false

theorem exists_error_of_text?_none {tree : FileTree} {file : String}
    (h : (Command.loadFile tree file).text? = none) : ∃ e, s.loadFile tree file = .error e := by
  rw [loadFile]
  cases hbytes : tree.read (Path.ofString file) with
  | error e => exact ⟨_, rfl⟩
  | ok bytes =>
    rw [Except.mapError, Outcome.ok_bind]
    cases hsource : Program.textOfBytes (Path.ofString file).text bytes with
    | error e => exact ⟨_, rfl⟩
    | ok source =>
      rw [Command.text?_loadFile, hbytes, Except.toOption, Option.bind_some, hsource,
        Except.toOption, Option.bind_some] at h
      cases h

/-- A program that cannot be loaded changes nothing. -/
theorem exists_error_of_opens?_none (hs : s.numberType = t) (hloads : c.loads = true)
    (h : c.opens? t = none) : ∃ e, s.perform c = (.error e, s) := by
  cases htext : c.text? with
  | none =>
    cases c with
    | tick | provide => cases hloads
    | loadText source name => cases htext
    | loadFile tree file =>
      obtain ⟨e, he⟩ := exists_error_of_text?_none (s := s) htext
      rw [perform, he]
      exact ⟨_, rfl⟩
  | some text =>
    obtain ⟨source, name⟩ := text
    cases hload : Program.load (.ofType t) t source with
    | ok m =>
      have hopens : c.opens? t = some ⟨source, name, m, []⟩ :=
        Option.bind_eq_some_iff.mpr ⟨_, htext,
          Option.bind_eq_some_iff.mpr ⟨m, Outcome.toOption_eq_some_iff.mpr hload, rfl⟩⟩
      cases h.symm.trans hopens
    | error e =>
      rw [perform_of_text htext, loadText_of_load_error hs hload]
      exact ⟨_, rfl⟩

theorem note_of_loads (hloads : c.loads = true) : r.note t c = r := by
  cases c with
  | tick | provide => cases hloads
  | loadText | loadFile => rfl

theorem opens?_of_not_loads (hloads : c.loads = false) : c.opens? t = none := by
  cases c with
  | tick | provide => rfl
  | loadText | loadFile => cases hloads

theorem Record.Valid.note (h : r.Valid t) (c : Command) : (r.note t c).Valid t := by
  cases c with
  | loadText | loadFile => exact h
  | tick => exact h.add trivial
  | provide text =>
    show (r.answer (Literal.read t (Text.trim text))).Valid t
    cases hread : Literal.read t (Text.trim text) with
    | error fault => exact h
    | ok v => exact h.add (Literal.read_eq_ok_iff.mp hread).2

theorem valid_recordAfter (h : ∀ r ∈ r?, r.Valid t) :
    ∀ r ∈ recordAfter t r? c, r.Valid t := by
  intro r hr
  rcases Option.or_eq_some_iff.mp hr with hopens | ⟨-, hnote⟩
  · exact valid_of_opens? hopens
  · obtain ⟨r', hr', rfl⟩ := Option.map_eq_some_iff.mp hnote
    exact (h r' hr').note c

/-- A step of the session is a step of its record, and answers whether the machine still runs. -/
theorem tick_ofRecord (hvalid : r.Valid t)
    (hprintable : ∀ v ∈ (r.add .step).printed, Decimal.printable v.value = true) :
    (ofRecord t (some r)).tick =
      (.ok ((r.add .step).machine.state = .running), ofRecord t (some (r.add .step))) := by
  obtain ⟨⟨printed, hprinted⟩, -⟩ := Machine.step_wellFormed hvalid.wellFormed
  rw [Record.printed_add_step, hprinted] at hprintable
  have hstep : r.machine.step = (.ok printed, (r.add .step).machine) :=
    Prod.ext hprinted r.machine_add_step.symm
  rw [tick_of_step (m := r.machine) rfl hstep fun v hv => hprintable v
    (List.mem_append_right _ (Option.mem_toList.mpr hv)), ofRecord, ofRecord,
    Record.printed_add_step, linesOf_append, hprinted]
  rfl

theorem ofRecord_add_input (t : NumberType) (r : Record) (v : Number) :
    ofRecord t (some (r.add (.input v))) =
      (ofRecord t (some r)).withMachine (r.machine.input v) := by
  rw [ofRecord, ofRecord, r.machine_add_input, r.printed_add_input]
  rfl

/-- A text for the session is a number for its record, if it is one and is asked for. -/
theorem provide_ofRecord (t : NumberType) (r : Record) (text : String) :
    ((ofRecord t (some r)).perform (.provide text)).2 =
      ofRecord t (some (r.note t (.provide text))) := by
  show (settle Failure.literal (ofRecord t (some r)) (if r.machine.state = .inputWaiting then
    (Literal.read t (Text.trim text)).map fun v => (ofRecord t (some r)).withMachine
      (r.machine.input v) else .ok (ofRecord t (some r)))).2 =
    ofRecord t (some (r.answer (Literal.read t (Text.trim text))))
  cases Literal.read t (Text.trim text) with
  | error fault => split <;> rfl
  | ok v =>
    rw [Record.answer, ofRecord_add_input]
    split
    · rfl
    case isFalse hs =>
      rw [Machine.input_of_not_waiting hs]
      rfl

/-- Every command does to a session what it does to its record. -/
theorem perform_ofRecord (hvalid : ∀ r ∈ r?, r.Valid t)
    (hprintable : ∀ r ∈ recordAfter t r? c, ∀ v ∈ r.printed, Decimal.printable v.value = true) :
    ((ofRecord t r?).perform c).2 = ofRecord t (recordAfter t r? c) := by
  have htype : (ofRecord t r?).numberType = t := by cases r? <;> rfl
  cases hloads : c.loads with
  | true =>
    cases hopens : c.opens? t with
    | some r => rw [perform_of_opens? htype hopens, recordAfter, hopens, Option.some_or]
    | none =>
      obtain ⟨e, he⟩ := exists_error_of_opens?_none htype hloads hopens
      have hsame : r?.map (·.note t c) = r? := by
        cases r? with
        | none => rfl
        | some r => exact congrArg some (note_of_loads hloads)
      rw [he, recordAfter, hopens, Option.none_or, hsame]
  | false =>
    have hafter : recordAfter t r? c = r?.map (·.note t c) := by
      rw [recordAfter, opens?_of_not_loads hloads, Option.none_or]
    rw [hafter] at hprintable ⊢
    cases r? with
    | none =>
      cases c with
      | loadText | loadFile => cases hloads
      | tick | provide => rfl
    | some r =>
      cases c with
      | loadText | loadFile => cases hloads
      | tick =>
        rw [perform, tick_ofRecord (hvalid r rfl) (hprintable _ rfl)]
        rfl
      | provide text => exact provide_ofRecord t r text

/-! ## Sequences of commands -/

variable {cs : List Command}

/-- Every number printed along the way can be shown. -/
def Printable (t : NumberType) (cs : List Command) : Prop :=
  ∀ done, done <+: cs → ∀ r ∈ record t done, ∀ v ∈ r.printed, Decimal.printable v.value = true

theorem record_concat (t : NumberType) (cs : List Command) (c : Command) :
    record t (cs ++ [c]) = recordAfter t (record t cs) c := by
  rw [record, List.foldl_append]
  rfl

theorem afterAll_concat (s : Session) (cs : List Command) (c : Command) :
    s.afterAll (cs ++ [c]) = ((s.afterAll cs).perform c).2 := by
  rw [afterAll, List.foldl_append]
  rfl

theorem valid_record (t : NumberType) (cs : List Command) : ∀ r ∈ record t cs, r.Valid t := by
  induction cs using List.reverseRecOn with
  | nil =>
    intro r hr
    cases (show none = some r from hr)
  | append_singleton cs c ih =>
    rw [record_concat]
    exact valid_recordAfter ih

theorem printable_of_fixed (hfixed : t ≠ .unbounded) (cs : List Command) : Printable t cs :=
  fun done _ r hr => (valid_record t done r hr).printable hfixed

/-- A session is the one of its record, whatever commands it has been given. -/
theorem afterAll_eq (h : Printable t cs) : (start t).afterAll cs = ofRecord t (record t cs) := by
  induction cs using List.reverseRecOn with
  | nil => rfl
  | append_singleton cs c ih =>
    have hcs : Printable t cs := fun done hdone => h done (hdone.trans (List.prefix_append cs [c]))
    have hlast := h (cs ++ [c]) List.prefix_rfl
    rw [record_concat] at hlast
    rw [afterAll_concat, ih hcs, record_concat]
    exact perform_ofRecord (valid_record t cs) hlast

/-- There is no record just when no load has succeeded. -/
theorem record_eq_none_iff : record t cs = none ↔ ∀ c ∈ cs, c.opens? t = none := by
  induction cs using List.reverseRecOn with
  | nil => exact iff_of_true rfl nofun
  | append_singleton cs c ih =>
    rw [record_concat, recordAfter, Option.or_eq_none_iff, Option.map_eq_none_iff, ih,
      List.forall_mem_append, List.forall_mem_singleton]
    exact and_comm

/-- A command to a session is its procedure, which assigns one field after another.  After any
sequence of commands, failed ones included, the session is the one of its record.  It is idle just
when no load has succeeded.  Otherwise its phase is the state of its machine, its output is what the
machine has printed since it was loaded, and has as many lines as the machine counts outputs.  A
step never fails, and it answers whether the machine runs after it.  A load or an input that fails
leaves the whole session as it was, and in the last case the machine still waits. -/
theorem session_follows_its_machine (t : NumberType) (cs : List Command)
    (hprintable : Printable t cs) :
    let s := (start t).afterAll cs
    s = ofRecord t (record t cs) ∧
    (s.phase = .idle ↔ ∀ c ∈ cs, c.opens? t = none) ∧
    (s.machine = none ↔ ∀ c ∈ cs, c.opens? t = none) ∧
    (∀ r, record t cs = some r →
      s.machine = some r.machine ∧
      s.phase = Phase.ofState r.machine.state ∧
      s.output = (r.loaded.given r.calls).map (fun v => Decimal.text v.value) ∧
      s.output.length = r.machine.outputs) ∧
    (∀ done, done ++ [.tick] <+: cs → ∃ b after,
      ((start t).afterAll done).perform .tick = (.ok (some b), after) ∧
        (b = true ↔ ∃ m, after.machine = some m ∧ m.state = .running)) ∧
    (∀ (any : Session) (c : Command), any.perform c = outcome (c.procedure.run any)) ∧
    ∀ (any : Session) (c : Command) (e : Failure), c ≠ .tick → (any.perform c).1 = .error e →
      (any.perform c).2 = any ∧
        ∀ text, c = .provide text → ∃ m, any.machine = some m ∧ m.state = .inputWaiting := by
  intro s
  have hs : s = ofRecord t (record t cs) := afterAll_eq hprintable
  have hempty : record t cs = none ↔ ∀ c ∈ cs, c.opens? t = none := record_eq_none_iff
  refine ⟨hs, ?_, ?_, fun r hr => ?_, fun done hdone => ?_, perform_eq,
    fun any c e hc h => perform_of_error hc h⟩
  · rw [← hempty, hs]
    cases record t cs with
    | none => exact iff_of_true rfl rfl
    | some r => exact iff_of_false (Phase.ofState_ne_idle _) (Option.some_ne_none r)
  · rw [← hempty, hs]
    cases record t cs with
    | none => exact iff_of_true rfl rfl
    | some r => exact iff_of_false (Option.some_ne_none _) (Option.some_ne_none r)
  · rw [hr] at hs
    refine ⟨by rw [hs]; rfl, by rw [hs]; rfl, by rw [hs]; rfl, ?_⟩
    rw [hs, (valid_record t cs r hr).outputs]
    exact List.length_map _
  · have hdone' : Printable t done := fun pre hpre =>
      hprintable pre (hpre.trans ((List.prefix_append done [.tick]).trans hdone))
    rw [afterAll_eq hdone']
    cases hr : record t done with
    | none =>
      refine ⟨false, start t, rfl, iff_of_false Bool.false_ne_true ?_⟩
      rintro ⟨m, hm, -⟩
      cases hm
    | some r =>
      have hnext : record t (done ++ [.tick]) = some (r.add .step) := by
        rw [record_concat, hr]
        rfl
      have htick := tick_ofRecord (valid_record t done r hr) (hprintable _ hdone _ hnext)
      refine ⟨_, _, by rw [perform, htick]; rfl, ?_⟩
      rw [decide_eq_true_iff]
      constructor
      · exact fun hs => ⟨_, rfl, hs⟩
      · rintro ⟨m, hm, hs⟩
        cases hm
        exact hs

theorem session_follows_its_machine_through_failures :
    let byte := NumberType.unsigned .bits8
    let cs : List Command := [.tick, .loadText "?" "bad", .loadText "ip" "good", .tick,
      .provide "x", .loadFile (FileTree.ofList []) "absent", .provide " 7 ", .tick]
    let s := (start byte).afterAll cs
    Printable byte cs ∧ s.phase = .running ∧ s.name = "good" ∧ s.output = ["7"] ∧
      ∃ r, record byte cs = some r ∧ s.machine = some r.machine ∧
        s.phase = Phase.ofState r.machine.state ∧ s.output.length = r.machine.outputs := by
  intro byte cs s
  have hprintable : Printable byte cs := printable_of_fixed (by decide) cs
  have hcheck : s.phase = .running ∧ s.name = "good" ∧ s.output = ["7"] ∧
      (record byte cs).isSome = true := by decide +kernel
  obtain ⟨hphase, hname, houtput, hsome⟩ := hcheck
  obtain ⟨r, hr⟩ := Option.isSome_iff_exists.mp hsome
  obtain ⟨-, -, -, hfollows, -⟩ := session_follows_its_machine byte cs hprintable
  obtain ⟨hmachine, hstate, -, hlength⟩ := hfollows r hr
  exact ⟨hprintable, hphase, hname, houtput, r, hr, hmachine, hstate, hlength⟩

end Session
end MatrixStack
