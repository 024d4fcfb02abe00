/-
Operands behind the options of a command line.

A command line that has options and no operands can be continued by operands: the options stay as
they are, and the operands are those that have been added (`parse_append`).  The tokens of the new
arguments stand behind the others (`tokens_append`), a run over tokens goes on where it would have
ended (`Takes.run_append`), and the group of operands is still open there (`Takes.joins`): either no
operand has been met yet, or the last argument was two dashes, behind which all arguments are
operands.
-/
import MatrixStack.Options.Grammar
import MatrixStack.Proofs.Program.Outcome

namespace MatrixStack
namespace Options

/-- Behind two dashes stand operands only. -/
def Tidy {κ : Type} (ts : List (Token κ)) : Prop :=
  ∀ before rest, ts = before ++ .dashes :: rest → ∀ t ∈ rest, ∃ arg, t = .plain arg

theorem Tidy.of_append {κ : Type} {ts us : List (Token κ)} (h : Tidy (ts ++ us)) : Tidy us := by
  intro before rest hus
  exact h (ts ++ before) rest (by rw [hus, List.append_assoc])

namespace Grammar

variable {κ σ : Type} {apply : σ → κ → Option String → Except String σ} {g : Grammar κ}
variable {p p' : Progress σ} {ts us : List (Token κ)} {args more : List String}

/-- The argument is an operand where it stands before any dashes. -/
def IsOperand (g : Grammar κ) (arg : String) : Prop :=
  arg ≠ "--" ∧ g.classify arg = .ok (.plain arg)

/-! ## Tokens -/

theorem tokens_dashes (g : Grammar κ) (rest : List String) :
    g.tokens ("--" :: rest) = .ok (.dashes :: rest.map .plain) := by
  rw [tokens, if_pos rfl]

theorem tokens_cons_eq_ok_iff {arg : String} (h : arg ≠ "--") :
    g.tokens (arg :: args) = .ok ts ↔
      ∃ t us, g.classify arg = .ok t ∧ g.tokens args = .ok us ∧ ts = t :: us := by
  rw [tokens, if_neg h]
  constructor
  · intro hts
    obtain ⟨t, ht, hrest⟩ := Outcome.bind_eq_ok_iff.mp hts
    obtain ⟨us, hus, heq⟩ := Outcome.bind_eq_ok_iff.mp hrest
    cases heq
    exact ⟨t, us, ht, hus, rfl⟩
  · rintro ⟨t, us, ht, hus, rfl⟩
    exact Outcome.bind_eq_ok_iff.mpr ⟨t, ht, Outcome.bind_eq_ok_iff.mpr ⟨us, hus, rfl⟩⟩

theorem tokens_of_operands (h : ∀ arg ∈ more, g.IsOperand arg) :
    g.tokens more = .ok (more.map .plain) := by
  induction more with
  | nil => rfl
  | cons arg rest ih =>
    obtain ⟨hdashes, hplain⟩ := h arg (List.mem_cons_self ..)
    refine (tokens_cons_eq_ok_iff hdashes).mpr ⟨_, _, hplain, ih fun arg' harg => ?_, rfl⟩
    exact h arg' (List.mem_cons_of_mem arg harg)

theorem tokens_append (h : g.tokens args = .ok ts)
    (hmore : "--" ∈ args ∨ ∀ arg ∈ more, g.IsOperand arg) :
    g.tokens (args ++ more) = .ok (ts ++ more.map .plain) := by
  induction args generalizing ts with
  | nil =>
    cases h
    exact tokens_of_operands (hmore.resolve_left List.not_mem_nil)
  | cons arg args ih =>
    by_cases hdashes : arg = "--"
    · subst hdashes
      rw [tokens_dashes] at h
      cases h
      rw [List.cons_append, tokens_dashes, List.map_append, List.cons_append]
    · obtain ⟨t, us, ht, hus, rfl⟩ := (tokens_cons_eq_ok_iff hdashes).mp h
      have hmore' : "--" ∈ args ∨ ∀ arg ∈ more, g.IsOperand arg :=
        hmore.imp_left fun hmem => (List.mem_cons.mp hmem).resolve_left (Ne.symm hdashes)
      exact (tokens_cons_eq_ok_iff hdashes).mpr ⟨t, _, ht, ih hus hmore', rfl⟩

theorem classify_ne_dashes (g : Grammar κ) (arg : String) : g.classify arg ≠ .ok .dashes := by
  unfold classify
  simp only
  repeat' split
  all_goals exact nofun

theorem tidy_tokens (h : g.tokens args = .ok ts) : Tidy ts := by
  induction args generalizing ts with
  | nil =>
    cases h
    intro before rest heq
    exact absurd heq.symm (List.append_ne_nil_of_right_ne_nil _ (List.cons_ne_nil _ _))
  | cons arg args ih =>
    by_cases hdashes : arg = "--"
    · subst hdashes
      rw [tokens_dashes] at h
      cases h
      intro before rest heq t ht
      have hmem : t ∈ args.map Token.plain := by
        cases before with
        | nil =>
          cases heq
          exact ht
        | cons b before =>
          rw [List.cons_append, List.cons_eq_cons] at heq
          rw [heq.2]
          exact List.mem_append_right _ (List.mem_cons_of_mem _ ht)
      obtain ⟨arg, -, rfl⟩ := List.mem_map.mp hmem
      exact ⟨arg, rfl⟩
    · obtain ⟨t, us, ht, hus, rfl⟩ := (tokens_cons_eq_ok_iff hdashes).mp h
      intro before rest heq
      cases before with
      | nil =>
        cases heq
        exact absurd ht (classify_ne_dashes g arg)
      | cons b before =>
        rw [List.cons_append, List.cons_eq_cons] at heq
        exact ih hus before rest heq.2

/-! ## Runs over tokens -/

theorem takeOptions_eq_ok {entries : List (Spec κ × Option String)}
    (h : takeOptions apply p entries = .ok p') :
    p'.operands = p.operands ∧ p'.extras = p.extras := by
  obtain ⟨settings, -, heq⟩ := Outcome.bind_eq_ok_iff.mp h
  cases heq
  exact ⟨rfl, rfl⟩

/-- How the tokens are taken one after the other; an option takes the token that is its value as
well. -/
inductive Takes (apply : σ → κ → Option String → Except String σ) (g : Grammar κ) :
    Progress σ → List (Token κ) → Progress σ → Prop where
  | nil (p : Progress σ) : Takes apply g p [] p
  | plain {p p' : Progress σ} {arg : String} {rest : List (Token κ)}
    (h : Takes apply g (p.plain .many arg) rest p') : Takes apply g p (.plain arg :: rest) p'
  | dashes {p p' : Progress σ} {rest : List (Token κ)}
    (h : Takes apply g (p.dashes .many false) rest p') : Takes apply g p (.dashes :: rest) p'
  | unknown {p p' : Progress σ} {arg : String} {rest : List (Token κ)}
    (h : Takes apply g (p.extra arg) rest p') : Takes apply g p (.unknown arg :: rest) p'
  | option {p p₁ p' : Progress σ} {o : Spec κ} {name : String} {value : Option (List Char)}
    {used rest : List (Token κ)} (operands : p₁.operands = p.operands)
    (extras : p₁.extras = p.extras)
    (run : ∀ us, run apply g p (.option o name value :: (used ++ us)) = run apply g p₁ us)
    (h : Takes apply g p₁ rest p') : Takes apply g p (.option o name value :: (used ++ rest)) p'

theorem takes_of_run (hmany : g.operands = .many) (h : run apply g p ts = .ok p') :
    Takes apply g p ts p' := by
  induction p, ts using run.induct apply g with
  | case1 p =>
    rw [run] at h
    cases h
    exact .nil _
  | case2 p arg rest ih =>
    rw [run, hmany] at h
    rw [hmany] at ih
    exact .plain (ih h)
  | case3 p rest ih =>
    simp only [run, hmany] at h ih
    exact .dashes (ih h)
  | case4 p arg rest ih =>
    rw [run] at h
    exact .unknown (ih h)
  | case5 p o name value rest stop hb =>
    simp only [run, hb] at h
    cases h
  | case6 p o name value rest b hb hpending stop htake =>
    simp only [run, hb, hpending, htake] at h
    cases h
  | case7 p o name value rest b hb hpending p₁ htake ih =>
    simp only [run, hb, hpending, htake] at h
    obtain ⟨hoperands, hextras⟩ := takeOptions_eq_ok htake
    have hrun us : run apply g p (.option o name value :: us) = run apply g p₁ us := by
      simp only [run, hb, hpending, htake]
    show Takes apply g p (.option o name value :: ([] ++ rest)) p'
    exact .option hoperands hextras hrun (ih h)
  | case8 p o name value b hb last hpending arg rest stop htake =>
    simp only [run, hb, hpending, htake] at h
    cases h
  | case9 p o name value b hb last hpending arg rest p₁ htake ih =>
    simp only [run, hb, hpending, htake] at h
    obtain ⟨hoperands, hextras⟩ := takeOptions_eq_ok htake
    have hrun us : run apply g p (.option o name value :: .plain arg :: us) = run apply g p₁ us := by
      simp only [run, hb, hpending, htake]
    show Takes apply g p (.option o name value :: ([.plain arg] ++ rest)) p'
    exact .option hoperands hextras hrun (ih h)
  | case10 p o name value rest b hb last hpending hrest =>
    rw [run] at h
    simp only [hb, hpending] at h
    cases h

/-- The tokens that follow are taken from where the others have led to. -/
theorem Takes.run_append (hmany : g.operands = .many) (h : Takes apply g p ts p')
    (us : List (Token κ)) : run apply g p (ts ++ us) = run apply g p' us := by
  induction h with
  | nil p => rfl
  | plain _ ih =>
    rw [List.cons_append, run, hmany]
    exact ih
  | dashes _ ih =>
    simp only [List.cons_append, run, hmany]
    exact ih
  | unknown _ ih =>
    rw [List.cons_append, run]
    exact ih
  | option _ _ hrun _ ih =>
    rw [List.cons_append, List.append_assoc, hrun]
    exact ih

theorem Progress.joins_of_none (h : p.operands = none) : p.joins .many = true := by
  rw [joins, h]
  rfl

theorem Progress.extras_extra_ne_nil (p : Progress σ) (arg : String) : (p.extra arg).extras ≠ [] :=
  List.append_ne_nil_of_right_ne_nil _ (List.cons_ne_nil _ _)

theorem Progress.not_nothing_plain (p : Progress σ) (arg : String) :
    ¬((p.plain .many arg).operands.getD [] = [] ∧ (p.plain .many arg).extras = []) := by
  rintro ⟨hnone, hempty⟩
  unfold plain at hnone hempty
  by_cases hjoins : p.joins .many = true
  · rw [if_pos hjoins] at hnone
    exact absurd hnone (List.append_ne_nil_of_right_ne_nil _ (List.cons_ne_nil _ _))
  · rw [if_neg hjoins] at hempty
    exact p.extras_extra_ne_nil arg hempty

/-- Operands and arguments that nothing takes are never dropped. -/
theorem Takes.nothing (h : Takes apply g p ts p') (hoperands : p'.operands.getD [] = [])
    (hextras : p'.extras = []) : p.operands.getD [] = [] ∧ p.extras = [] := by
  induction h with
  | nil p => exact ⟨hoperands, hextras⟩
  | @plain p _ arg _ _ ih => exact absurd (ih hoperands hextras) (p.not_nothing_plain arg)
  | @dashes p _ _ _ ih =>
    obtain ⟨hnone, hempty⟩ := ih hoperands hextras
    unfold Progress.dashes at hnone hempty
    simp only at hnone hempty
    by_cases hjoins : p.joins .many = true
    · rw [if_pos hjoins] at hnone hempty
      exact ⟨hnone, hempty⟩
    · rw [if_neg hjoins] at hempty
      exact absurd hempty (p.extras_extra_ne_nil "--")
  | @unknown p _ arg _ _ ih =>
    exact absurd (ih hoperands hextras).2 (p.extras_extra_ne_nil arg)
  | option hsame hsame' _ _ ih =>
    rw [← hsame, ← hsame']
    exact ih hoperands hextras

/-- Where no operand has been taken, one more joins the group. -/
theorem Takes.joins (h : Takes apply g p ts p') (htidy : Tidy ts) (hstart : p.operands = none)
    (hoperands : p'.operands.getD [] = []) (hextras : p'.extras = []) :
    p'.joins .many = true := by
  induction h with
  | nil p => exact Progress.joins_of_none hstart
  | @plain p _ arg rest h ih =>
    exact absurd (h.nothing hoperands hextras) (Progress.not_nothing_plain p arg)
  | @dashes p _ rest h ih =>
    cases rest with
    | nil =>
      cases h
      rw [Progress.dashes, if_pos (Progress.joins_of_none hstart), Progress.joins]
      exact Bool.or_true _
    | cons t rest =>
      -- Behind the dashes there would be an operand.
      obtain ⟨arg, rfl⟩ := htidy [] (t :: rest) rfl t (List.mem_cons_self ..)
      cases h with
      | plain h => exact absurd (h.nothing hoperands hextras) (Progress.not_nothing_plain _ arg)
  | @unknown p _ arg rest h ih =>
    exact absurd (h.nothing hoperands hextras).2 (p.extras_extra_ne_nil arg)
  | @option p _ _ o name value used rest hsame _ _ _ ih =>
    have happend : Tidy ((.option o name value :: used) ++ rest) := htidy
    exact ih happend.of_append (hsame.trans hstart) hoperands hextras

/-- Further operands join the group. -/
theorem exists_run_operands (hmany : g.operands = .many) (files : List String)
    (hjoins : p.joins .many = true) :
    ∃ q, run apply g p (files.map .plain) = .ok q ∧ q.settings = p.settings ∧
      q.extras = p.extras ∧ q.operands.getD [] = p.operands.getD [] ++ files := by
  induction files generalizing p with
  | nil => exact ⟨p, rfl, rfl, rfl, (List.append_nil _).symm⟩
  | cons file files ih =>
    have hplain : p.plain .many file =
        { p with operands := some (p.operands.getD [] ++ [file]), grouping := true } := if_pos hjoins
    obtain ⟨q, hrun, hsettings, hextras, hoperands⟩ := ih (p := p.plain .many file) (by
      rw [hplain]
      rfl)
    rw [hplain] at hsettings hextras hoperands
    refine ⟨q, ?_, hsettings, hextras, ?_⟩
    · rw [List.map_cons, run, hmany]
      exact hrun
    · rw [hoperands, Option.getD_some, List.append_assoc]
      rfl

/-! ## Command lines -/

theorem parse_eq_ok_iff {start s : σ} {files : List String} (hmany : g.operands = .many) :
    g.parse apply start args = .ok (s, files) ↔
      ∃ ts p, g.tokens args = .ok ts ∧ run apply g ⟨start, none, false, []⟩ ts = .ok p ∧
        p.extras = [] ∧ p.settings = s ∧ p.operands.getD [] = files := by
  unfold parse
  rw [Outcome.bind_eq_ok_iff]
  constructor
  · rintro ⟨ts, hts, h⟩
    obtain ⟨p, hp, h⟩ := Outcome.bind_eq_ok_iff.mp h
    rw [hmany] at h
    simp only at h
    by_cases hextras : p.extras.isEmpty = true
    · rw [if_pos hextras] at h
      cases h
      exact ⟨ts, p, hts, hp, List.isEmpty_iff.mp hextras, rfl, rfl⟩
    · rw [if_neg hextras] at h
      cases h
  · rintro ⟨ts, p, hts, hp, hextras, rfl, rfl⟩
    refine ⟨ts, hts, Outcome.bind_eq_ok_iff.mpr ⟨p, hp, ?_⟩⟩
    rw [hmany]
    simp only
    rw [if_pos (List.isEmpty_iff.mpr hextras)]
    rfl

/-- Operands behind a command line without operands. -/
theorem parse_append {start s : σ} {files : List String} (hmany : g.operands = .many)
    (h : g.parse apply start args = .ok (s, []))
    (hfiles : "--" ∈ args ∨ ∀ file ∈ files, g.IsOperand file) :
    g.parse apply start (args ++ files) = .ok (s, files) := by
  obtain ⟨ts, p, hts, hp, hextras, hsettings, hoperands⟩ := (parse_eq_ok_iff hmany).mp h
  have htakes := takes_of_run hmany hp
  have hjoins := htakes.joins (tidy_tokens hts) rfl hoperands hextras
  obtain ⟨q, hq, hqsettings, hqextras, hqoperands⟩ := exists_run_operands hmany files hjoins
  refine (parse_eq_ok_iff hmany).mpr ⟨_, q, tokens_append hts hfiles, ?_, ?_, ?_, ?_⟩
  · rw [htakes.run_append hmany]
    exact hq
  · rw [hqextras, hextras]
  · rw [hqsettings, hsettings]
  · rw [hqoperands, hoperands, List.nil_append]

end Grammar
end Options
end MatrixStack
