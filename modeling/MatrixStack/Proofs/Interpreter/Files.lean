/-
Several program files.

The files of a command are run one after another, each program loaded afresh and started with no
steps taken, and the first failure ends the command (`FilesComeTo`).  So the files of two commands
can be joined: the joined command is the first of the two, followed by the second one on the input
that is left, unless the first one fails (`FilesComeTo.append_iff`).  What files are not reached is
of no concern (`FilesComeTo.congr`).
-/
import MatrixStack.Proofs.Interpreter.Ends
import MatrixStack.Proofs.Options.Operands

namespace MatrixStack
namespace Interpreter

/-- What the program files come to that are run one after another from a terminal on. -/
inductive FilesComeTo (a : Arguments) (type : NumberType) (read : FileReader) :
    Terminal → List String → Outcome → Prop where
  | done (t : Terminal) : FilesComeTo a type read t [] ⟨.status 0, t⟩
  | refused {t : Terminal} {file : String} {rest : List String} {o : Outcome}
    (h : loadFile a type read t file = .error o) : FilesComeTo a type read t (file :: rest) o
  | uncounted {t : Terminal} {file : String} {rest : List String} {m : Machine}
    (hm : loadFile a type read t file = .ok m) (hcap : a.maxSteps = some none) :
    FilesComeTo a type read t (file :: rest) ⟨.escaped .uncounted, t⟩
  | failed {t : Terminal} {file : String} {rest : List String} {m : Machine} {r : Result}
    {o : Outcome} (hm : loadFile a type read t file = .ok m) (hcap : a.maxSteps ≠ some none)
    (hrun : Finishes (settings a false) ⟨0, m, t⟩ r) (h : conclude a r = some o) :
    FilesComeTo a type read t (file :: rest) o
  | passed {t : Terminal} {file : String} {rest : List String} {m : Machine} {r : Result}
    {o : Outcome} (hm : loadFile a type read t file = .ok m) (hcap : a.maxSteps ≠ some none)
    (hrun : Finishes (settings a false) ⟨0, m, t⟩ r) (h : conclude a r = none)
    (hrest : FilesComeTo a type read r.terminal rest o) :
    FilesComeTo a type read t (file :: rest) o

variable {a b : Arguments} {type : NumberType} {read read' : FileReader} {t : Terminal}
variable {files first second : List String} {o : Outcome}

/-! ## Files and commands -/

theorem nextFile_cons_of_error {file : String} {rest : List String}
    (h : loadFile a type read t file = .error o) :
    nextFile a type read t (file :: rest) = .over o := by
  rw [nextFile, h]

theorem nextFile_cons_of_ok {file : String} {rest : List String} {m : Machine}
    (h : loadFile a type read t file = .ok m) :
    nextFile a type read t (file :: rest) =
      beginProgram ⟨a, type, false, ⟨0, m, t⟩, rest⟩ := by
  rw [nextFile, h]

theorem nextFile_comesTo_iff :
    (nextFile a type read t files).ComesTo read o ↔ FilesComeTo a type read t files o := by
  induction files generalizing t with
  | nil =>
    constructor
    · rintro rfl
      exact .done t
    · rintro ⟨⟩
      rfl
  | cons file rest ih =>
    cases hload : loadFile a type read t file with
    | error outcome =>
      rw [nextFile_cons_of_error hload, comesTo_over]
      constructor
      · rintro rfl
        exact .refused hload
      · intro h
        cases h with
        | refused h => exact Except.error.inj (h.symm.trans hload)
        | uncounted hm | failed hm | passed hm => cases hm.symm.trans hload
    | ok m =>
      rw [nextFile_cons_of_ok hload]
      unfold beginProgram
      by_cases hcap : a.maxSteps = some none
      · rw [if_pos hcap, comesTo_over]
        constructor
        · rintro rfl
          exact .uncounted hload hcap
        · intro h
          cases h with
          | refused h => cases h.symm.trans hload
          | uncounted => rfl
          | failed _ hcounted | passed _ hcounted => exact absurd hcap hcounted
      · rw [if_neg hcap, comesTo_working_iff]
        constructor
        · rintro ⟨r, hrun, hafter⟩
          unfold Job.afterRun at hafter
          cases hconclude : conclude a r with
          | some outcome =>
            simp only [hconclude] at hafter
            cases hafter
            exact .failed hload hcap hrun hconclude
          | none =>
            simp only [hconclude] at hafter
            exact .passed hload hcap hrun hconclude (ih.mp hafter)
        · intro h
          cases h with
          | refused h => cases h.symm.trans hload
          | uncounted _ huncounted => exact absurd huncounted hcap
          | failed hm _ hrun h =>
            cases hm.symm.trans hload
            refine ⟨_, hrun, ?_⟩
            simp only [Job.afterRun, h]
            rfl
          | passed hm _ hrun h hrest =>
            cases hm.symm.trans hload
            refine ⟨_, hrun, ?_⟩
            simp only [Job.afterRun, h]
            exact ih.mpr hrest

/-! ## Joined files -/

/-- A command that fails has not come to the last of its files. -/
theorem FilesComeTo.append_of_failed (h : FilesComeTo a type read t first o)
    (hexit : o.exit ≠ .status 0) (second : List String) :
    FilesComeTo a type read t (first ++ second) o := by
  induction h with
  | done t => exact absurd rfl hexit
  | refused h => exact .refused h
  | uncounted hm hcap => exact .uncounted hm hcap
  | failed hm hcap hrun h => exact .failed hm hcap hrun h
  | passed hm hcap hrun h _ ih => exact .passed hm hcap hrun h (ih hexit)

theorem FilesComeTo.append_of_passed {mid : Outcome} (h : FilesComeTo a type read t first mid)
    (hexit : mid.exit = .status 0) (hsecond : FilesComeTo a type read mid.terminal second o) :
    FilesComeTo a type read t (first ++ second) o := by
  induction h with
  | done t => exact hsecond
  | refused h => exact absurd hexit (loadFile_failsAt h).exit
  | uncounted hm hcap => cases hexit
  | failed hm hcap hrun h => exact absurd hexit (conclude_failsAt h).exit
  | passed hm hcap hrun h _ ih => exact .passed hm hcap hrun h (ih hexit hsecond)

theorem FilesComeTo.exists_of_append (h : FilesComeTo a type read t (first ++ second) o) :
    ∃ mid, FilesComeTo a type read t first mid ∧
      if mid.exit = .status 0 then FilesComeTo a type read mid.terminal second o else o = mid := by
  induction first generalizing t with
  | nil => exact ⟨_, .done t, by rw [if_pos rfl]; exact h⟩
  | cons file rest ih =>
    cases h with
    | refused h => exact ⟨o, .refused h, by rw [if_neg (loadFile_failsAt h).exit]⟩
    | uncounted hm hcap => exact ⟨_, .uncounted hm hcap, by rw [if_neg nofun]⟩
    | failed hm hcap hrun h =>
      exact ⟨o, .failed hm hcap hrun h, by rw [if_neg (conclude_failsAt h).exit]⟩
    | passed hm hcap hrun h hrest =>
      obtain ⟨mid, hmid, hafter⟩ := ih hrest
      exact ⟨mid, .passed hm hcap hrun h hmid, hafter⟩

theorem FilesComeTo.append_iff :
    FilesComeTo a type read t (first ++ second) o ↔
      ∃ mid, FilesComeTo a type read t first mid ∧
        if mid.exit = .status 0 then FilesComeTo a type read mid.terminal second o
        else o = mid := by
  refine ⟨FilesComeTo.exists_of_append, ?_⟩
  rintro ⟨mid, hmid, hafter⟩
  by_cases hexit : mid.exit = .status 0
  · rw [if_pos hexit] at hafter
    exact hmid.append_of_passed hexit hafter
  · rw [if_neg hexit] at hafter
    subst hafter
    exact hmid.append_of_failed hexit second

theorem report_congr (h : b.suppress = a.suppress) (t : Terminal) (message : String) :
    report b t message = report a t message := by
  unfold report
  rw [h]

theorem conclude_congr (h : b.suppress = a.suppress) (r : Result) :
    conclude b r = conclude a r := by
  unfold conclude
  simp only [report_congr h]

theorem loadFile_congr {file : String} (h : b.suppress = a.suppress)
    (hread : read' (Path.ofString file) = read (Path.ofString file)) :
    loadFile b type read' t file = loadFile a type read t file := by
  unfold loadFile
  simp only [report_congr h, hread]

/-- Of the arguments only those count that every program is run with, and of the files only those
that are run. -/
theorem FilesComeTo.congr (h : FilesComeTo a type read t files o)
    (hsuppress : b.suppress = a.suppress) (hmax : b.maxSteps = a.maxSteps)
    (hread : ∀ file ∈ files, read' (Path.ofString file) = read (Path.ofString file)) :
    FilesComeTo b type read' t files o := by
  have hsettings : settings b false = settings a false := by
    unfold settings
    rw [hsuppress, hmax]
  induction h with
  | done t => exact .done t
  | @refused t file rest o h =>
    rw [← loadFile_congr hsuppress (hread file (List.mem_cons_self ..))] at h
    exact .refused h
  | @uncounted t file rest m hm hcap =>
    rw [← loadFile_congr hsuppress (hread file (List.mem_cons_self ..))] at hm
    exact .uncounted hm (hmax.trans hcap)
  | @failed t file rest m r o hm hcap hrun h =>
    rw [← loadFile_congr hsuppress (hread file (List.mem_cons_self ..))] at hm
    exact .failed hm (by rw [hmax]; exact hcap) (by rw [hsettings]; exact hrun)
      ((conclude_congr hsuppress r).trans h)
  | @passed t file rest m r o hm hcap hrun h _ ih =>
    rw [← loadFile_congr hsuppress (hread file (List.mem_cons_self ..))] at hm
    exact .passed hm (by rw [hmax]; exact hcap) (by rw [hsettings]; exact hrun)
      ((conclude_congr hsuppress r).trans h)
      (ih fun file' hfile => hread file' (List.mem_cons_of_mem file hfile))

/-- The files take lines at the front of the input only. -/
theorem FilesComeTo.isRest (h : FilesComeTo a type read t files o) :
    o.terminal.stdin.IsRest t.stdin := by
  induction h with
  | done t => exact .refl _
  | refused h =>
    rw [(loadFile_failsAt h).stdin]
    exact .refl _
  | uncounted => exact .refl _
  | failed _ _ hrun h =>
    rw [(conclude_failsAt h).stdin]
    exact hrun.isRest
  | passed _ _ hrun _ _ ih => exact ih.trans hrun.isRest

/-! ## Command lines -/

theorem Arguments.parse_append {flags : List String} (h : Arguments.parse flags = .ok a)
    (hnone : a.files = [])
    (hfiles : "--" ∈ flags ∨ ∀ file ∈ files, Arguments.grammar.IsOperand file) :
    Arguments.parse (flags ++ files) = .ok { a with files := files } := by
  obtain ⟨⟨settings, operands⟩, hflags, heq⟩ := Outcome.bind_eq_ok_iff.mp h
  cases heq
  obtain rfl : operands = [] := hnone
  exact Outcome.bind_eq_ok_iff.mpr ⟨_, Options.Grammar.parse_append rfl hflags hfiles, rfl⟩

/-- What the files of a command come to; without a type of numbers it fails before the first one. -/
def CommandComesTo (a : Arguments) (read : FileReader) (t : Terminal) (files : List String)
    (o : Outcome) : Prop :=
  match a.numberType with
  | none => o = ⟨.escaped .untyped, t⟩
  | some type => FilesComeTo a type read t files o

theorem commandComesTo_of_none (h : a.numberType = none) :
    CommandComesTo a read t files o ↔ o = ⟨.escaped .untyped, t⟩ := by
  rw [CommandComesTo, h]

theorem commandComesTo_of_some (h : a.numberType = some type) :
    CommandComesTo a read t files o ↔ FilesComeTo a type read t files o := by
  rw [CommandComesTo, h]

theorem CommandComesTo.congr (h : CommandComesTo a read t files o)
    (hsuppress : b.suppress = a.suppress) (hmax : b.maxSteps = a.maxSteps)
    (htype : b.numberType = a.numberType)
    (hread : ∀ file ∈ files, read' (Path.ofString file) = read (Path.ofString file)) :
    CommandComesTo b read' t files o := by
  cases hnone : a.numberType with
  | none =>
    rw [commandComesTo_of_none hnone] at h
    exact (commandComesTo_of_none (htype.trans hnone)).mpr h
  | some type =>
    rw [commandComesTo_of_some hnone] at h
    exact (commandComesTo_of_some (htype.trans hnone)).mpr (h.congr hsuppress hmax hread)

/-- What a command line comes to that has files to run. -/
theorem comes_iff_of_files {args : List String} {stdin : Stream}
    (h : Arguments.parse args = .ok a) (hruns : a.introduces = false)
    (hinput : a.fromInput = false) :
    Comes args read stdin o ↔ CommandComesTo a read (.ofInput stdin) a.files o := by
  rw [comes_iff, start, h]
  simp only
  rw [begin, hruns, hinput]
  cases htype : a.numberType with
  | none =>
    rw [commandComesTo_of_none htype]
    exact comesTo_over
  | some type =>
    rw [commandComesTo_of_some htype]
    exact nextFile_comesTo_iff

/-- The same, when the files stand behind the options. -/
theorem comes_append_iff {flags : List String} {stdin : Stream}
    (h : Arguments.parse flags = .ok a) (hnone : a.files = []) (hforce : a.forceStdin = false)
    (hruns : a.introduces = false) (hpos : files ≠ [])
    (hfiles : "--" ∈ flags ∨ ∀ file ∈ files, Arguments.grammar.IsOperand file) :
    Comes (flags ++ files) read stdin o ↔ CommandComesTo a read (.ofInput stdin) files o := by
  have hinput : Arguments.fromInput { a with files := files } = false := by
    unfold Arguments.fromInput
    rw [hforce, Bool.or_false]
    exact List.isEmpty_eq_false_iff.mpr hpos
  rw [comes_iff_of_files (Arguments.parse_append h hnone hfiles) hruns hinput]
  exact ⟨fun h => h.congr rfl rfl rfl fun _ _ => rfl, fun h => h.congr rfl rfl rfl fun _ _ => rfl⟩

/-- The files of a second command, on the input that a first one has left. -/
theorem filesComeTo_after_iff {mid : Terminal} :
    FilesComeTo a type read mid files o ↔
      ∃ last, FilesComeTo a type read (.ofInput mid.stdin) files last ∧ o = last.after mid := by
  have hmid : (Terminal.ofInput mid.stdin).after mid = mid := Terminal.ofInput_after mid
  have hafter := @comesTo_after_iff mid read
    (nextFile a type read (.ofInput mid.stdin) files) o
  rw [← nextFile_after, hmid] at hafter
  simp only [nextFile_comesTo_iff] at hafter
  exact hafter

/-- Two groups of files behind each other, unless the first one fails. -/
theorem commandComesTo_append_iff :
    CommandComesTo a read t (first ++ second) o ↔
      ∃ mid, CommandComesTo a read t first mid ∧
        if mid.exit = .status 0 then
          ∃ last, CommandComesTo a read (.ofInput mid.terminal.stdin) second last ∧
            o = last.after mid.terminal
        else o = mid := by
  cases htype : a.numberType with
  | none =>
    simp only [commandComesTo_of_none htype]
    constructor
    · rintro rfl
      exact ⟨_, rfl, by rw [if_neg nofun]⟩
    · rintro ⟨mid, rfl, h⟩
      rw [if_neg nofun] at h
      exact h
  | some type =>
    simp only [commandComesTo_of_some htype]
    rw [FilesComeTo.append_iff]
    refine exists_congr fun mid => and_congr_right fun _ => ?_
    split
    · exact filesComeTo_after_iff
    · exact Iff.rfl

theorem CommandComesTo.isRest (h : CommandComesTo a read t files o) :
    o.terminal.stdin.IsRest t.stdin := by
  cases htype : a.numberType with
  | none =>
    rw [commandComesTo_of_none htype] at h
    subst h
    exact .refl _
  | some type => exact ((commandComesTo_of_some htype).mp h).isRest

/-- A command with two groups of files is the command with the first group, and then, unless that
one fails, the command with the second group on the input that the first one has left: the texts of
the second one stand behind those of the first, and its exit is that of the whole.  What is left of
the input is its lines after some at the front.  Where the first command fails, no file of the
second group matters, whatever it holds.  Each group is run file by file, every program from its
loaded machine and with no steps taken. -/
theorem files_run_in_sequence (flags first second : List String) (a : Arguments)
    (read : FileReader) (stdin : Stream) (hflags : Arguments.parse flags = .ok a)
    (hnone : a.files = []) (hforce : a.forceStdin = false) (hruns : a.introduces = false)
    (hfirst : first ≠ []) (hsecond : second ≠ [])
    (hfiles : "--" ∈ flags ∨ ∀ file ∈ first ++ second, Arguments.grammar.IsOperand file) :
    (∀ o, Comes (flags ++ first ++ second) read stdin o ↔
      ∃ mid, Comes (flags ++ first) read stdin mid ∧
        if mid.exit = .status 0 then
          ∃ last, Comes (flags ++ second) read mid.terminal.stdin last ∧
            o = last.after mid.terminal
        else o = mid) ∧
    (∀ mid, Comes (flags ++ first) read stdin mid →
      mid.terminal.stdin.IsRest stdin ∧
      (mid.exit ≠ .status 0 →
        ∀ read', (∀ file ∈ first, read' (Path.ofString file) = read (Path.ofString file)) →
          Comes (flags ++ first ++ second) read' stdin mid)) ∧
    ∀ type o, a.numberType = some type →
      (Comes (flags ++ first) read stdin o ↔
        FilesComeTo a type read (.ofInput stdin) first o) := by
  have hboth : first ++ second ≠ [] := List.append_ne_nil_of_left_ne_nil hfirst second
  have hfiles₁ : "--" ∈ flags ∨ ∀ file ∈ first, Arguments.grammar.IsOperand file :=
    hfiles.imp_right fun h file hfile => h file (List.mem_append_left second hfile)
  have hfiles₂ : "--" ∈ flags ∨ ∀ file ∈ second, Arguments.grammar.IsOperand file :=
    hfiles.imp_right fun h file hfile => h file (List.mem_append_right first hfile)
  have hcomes {files : List String} (hpos : files ≠ [])
      (hfiles : "--" ∈ flags ∨ ∀ file ∈ files, Arguments.grammar.IsOperand file)
      (read : FileReader) (stdin : Stream) (o : Outcome) :
      Comes (flags ++ files) read stdin o ↔ CommandComesTo a read (.ofInput stdin) files o :=
    comes_append_iff hflags hnone hforce hruns hpos hfiles
  simp only [List.append_assoc, hcomes hboth hfiles, hcomes hfirst hfiles₁, hcomes hsecond hfiles₂]
  refine ⟨fun o => commandComesTo_append_iff, fun mid hmid => ⟨hmid.isRest, ?_⟩,
    fun type o htype => ?_⟩
  · intro hexit read' hread
    refine commandComesTo_append_iff.mpr ⟨mid, hmid.congr rfl rfl rfl hread, ?_⟩
    rw [if_neg hexit]
  · exact commandComesTo_of_some htype

theorem files_run_in_sequence_on_one_input :
    let flags := ["-t", "u8", "--max-steps", "2"]
    let read := (FileTree.ofList
      [("a.msc", .file "ip".toUTF8.toList), ("b.msc", .file "i p".toUTF8.toList)]).read
    let stdin : Stream := ⟨["5\n".toList, "7\n".toList], none⟩
    let a : Arguments := ⟨[], false, false, false, false, some (.unsigned .bits8), some (some 2)⟩
    ∃ mid last, Arguments.parse flags = .ok a ∧ a.introduces = false ∧
      (∀ file ∈ ["a.msc"] ++ ["b.msc"], Arguments.grammar.IsOperand file) ∧
      Comes (flags ++ ["a.msc"]) read stdin mid ∧ mid.exit = .status 0 ∧
      mid.terminal.stdout = "> 5\n" ∧
      Comes (flags ++ ["b.msc"]) read mid.terminal.stdin last ∧ last.exit = .status 0 ∧
      last.terminal.stdout = "> " ∧
      Comes (flags ++ ["a.msc"] ++ ["b.msc"]) read stdin (last.after mid.terminal) := by
  intro flags read stdin a
  have hflags : Arguments.parse flags = .ok a := by decide
  have hfiles : ∀ file ∈ ["a.msc"] ++ ["b.msc"], Arguments.grammar.IsOperand file := by
    intro file hfile
    rcases List.mem_pair.mp hfile with rfl | rfl
    · exact ⟨by decide, rfl⟩
    · exact ⟨by decide, rfl⟩
  have hmid : ∃ mid, command (flags ++ ["a.msc"]) read stdin 4 = some mid ∧
      mid.exit = .status 0 ∧ mid.terminal.stdout = "> 5\n" ∧
      ∃ last, command (flags ++ ["b.msc"]) read mid.terminal.stdin 4 = some last ∧
        last.exit = .status 0 ∧ last.terminal.stdout = "> " := by decide +kernel
  obtain ⟨mid, hmid, hexit, hstdout, last, hlast, hexit', hstdout'⟩ := hmid
  obtain ⟨hsequence, -⟩ := files_run_in_sequence flags ["a.msc"] ["b.msc"] a read stdin hflags rfl
    rfl rfl (List.cons_ne_nil _ _) (List.cons_ne_nil _ _) (.inr hfiles)
  refine ⟨mid, last, hflags, rfl, hfiles, ⟨4, hmid⟩, hexit, hstdout, ⟨4, hlast⟩, hexit', hstdout',
    (hsequence _).mpr ⟨mid, ⟨4, hmid⟩, ?_⟩⟩
  rw [if_pos hexit]
  exact ⟨last, ⟨4, hlast⟩, rfl⟩

end Interpreter
end MatrixStack
