/-
How the debugger starts, and how it fails to.

`Launched` lists what the command can come to once its arguments have been read: it starts on the
program of the file, it reports why there is no program, or it meets a file error that it does not
report.  The report is for a path that leads nowhere and for a text that cannot be decoded or
loaded, and stands on one line if the path does.  What escapes is a directory in place of the file,
and a name on the way to it that is too long (`launch_starts_reports_or_escapes`).
-/
import MatrixStack.Debugger.CommandLine
import MatrixStack.Proofs.Interpreter.ExitStatus
import MatrixStack.Proofs.Text.Fields

namespace MatrixStack

/-! ## Messages of one line -/

namespace Text

theorem newline_not_mem_toDigits (n : Nat) : '\n' ∉ Nat.toDigits 16 n := by
  have hdigit : ∀ d < 16, '\n' ≠ d.digitChar := by decide
  induction n using Nat.strongRecOn with
  | ind n ih =>
    rw [Nat.toDigits_eq_if (by decide)]
    split
    case isTrue hlt => simp [hdigit n hlt]
    case isFalse =>
      have hlt : n / 16 < n := by omega
      simp [hdigit (n % 16) (Nat.mod_lt n (by decide)), ih _ hlt]

theorem newline_not_mem_escape {mark : Char} (hmark : mark ≠ '\n') (c : Char) :
    '\n' ∉ escape mark c := by
  have hpadded (width : Nat) : '\n' ∉ hexPadded width c.toNat := by
    simp [hexPadded, newline_not_mem_toDigits]
  unfold escape
  split
  case isTrue h =>
    have hc : c ≠ '\n' := by
      rcases h with rfl | rfl
      · exact hmark
      · decide
    simp [hc.symm]
  case isFalse =>
    repeat' split
    · decide
    · decide
    · decide
    case isTrue hc _ _ _ => simp [Ne.symm hc]
    · unfold codePointEscape
      repeat' split
      all_goals simp [hpadded]

theorem oneLine_quote (text : String) : OneLine (quote text) := by
  have hmark : quoteMark text.toList ≠ '\n' := by
    unfold quoteMark
    split <;> decide
  have hescape : ∀ c, '\n' ∉ escape (quoteMark text.toList) c := newline_not_mem_escape hmark
  simp [OneLine, quote, hmark.symm, hescape]

theorem mem_of_mem_splitOn {separator c : Char} {cs piece : List Char}
    (hpiece : piece ∈ cs.splitOn separator) (hc : c ∈ piece) : c ∈ cs := by
  induction cs generalizing piece with
  | nil =>
    rw [List.splitOn_nil, List.mem_singleton] at hpiece
    rwa [hpiece] at hc
  | cons d cs ih =>
    rw [List.splitOn_cons_eq_if_modifyHead] at hpiece
    split at hpiece
    · rcases List.mem_cons.mp hpiece with rfl | hrest
      · cases hc
      · exact List.mem_cons_of_mem d (ih hrest hc)
    · cases hpieces : cs.splitOn separator with
      | nil => exact absurd hpieces (List.splitOn_ne_nil separator cs)
      | cons first rest =>
        rw [hpieces] at hpiece ih
        rcases List.mem_cons.mp hpiece with rfl | hrest
        · rcases List.mem_cons.mp hc with rfl | hfirst
          · exact List.mem_cons_self ..
          · exact List.mem_cons_of_mem d (ih (List.mem_cons_self ..) hfirst)
        · exact List.mem_cons_of_mem d (ih (List.mem_cons_of_mem first hrest) hc)

end Text

open Text (OneLine)

theorem Path.oneLine_text {file : String} (h : OneLine file) :
    OneLine (Path.ofString file).text := by
  have hroot : OneLine (Path.ofString file).root := by
    show OneLine (rootOf file.toList)
    unfold rootOf
    split <;> decide
  have hnames : ∀ name ∈ (Path.ofString file).names, OneLine name := by
    intro name hname
    obtain ⟨piece, hpiece, rfl⟩ := List.mem_map.mp hname
    intro hnewline
    rw [String.toList_ofList] at hnewline
    exact h (Text.mem_of_mem_splitOn (List.mem_of_mem_filter hpiece) hnewline)
  unfold text
  split
  · decide
  · exact hroot.append (.intercalate (by decide) hnames)

theorem Decimal.oneLine_unprintableMessage : OneLine unprintableMessage :=
  (by decide : OneLine _).append (by decide)

/-- A fault of a text is told on one line, if its source has a name of one line. -/
theorem LoadError.oneLine_message {e : LoadError} (h : e.ofText = true)
    (hsource : ∀ source reason, e = .invalidEncoding source reason → OneLine source) :
    OneLine e.message := by
  have hlabelled {label : String} (hlabel : OneLine label) (text : String) :
      OneLine (label ++ Text.quote text) := hlabel.append (Text.oneLine_quote text)
  cases e with
  | unknownInstruction | invalidNumber | invalidCoordinate | missingPointer =>
    exact hlabelled (by decide) _
  | instructionOutOfRange place c =>
    exact ((hlabelled (by decide) _).append (by decide)).append place.oneLine_text
  | stackOutOfRange block =>
    show OneLine (Decimal.messageWith (block.print?.map ("stack pointer out of range: " ++ ·)))
    unfold Pointer.print?
    split
    · exact (by decide : OneLine "stack pointer out of range: ").append block.oneLine_text
    · exact Decimal.oneLine_unprintableMessage
  | invalidEncoding source reason =>
    have hreason : OneLine reason.text := by cases reason <;> decide
    exact (((hsource source reason rfl).append (by decide)).append hreason).append (by decide)
  | textAfterComment | missingKey | negativeExtent | noCapacity | sizeMismatch => cases h

namespace Program

theorem exists_reason_of_textOfBytes {name : String} {bytes : List UInt8} {e : LoadError}
    (h : textOfBytes name bytes = .error e) : ∃ reason, e = .invalidEncoding name reason := by
  simp only [textOfBytes] at h
  split at h
  · cases h
    exact ⟨_, rfl⟩
  · cases h

/-- A text that has been decoded is not refused for its encoding. -/
theorem load_ne_invalidEncoding (t : NumberType) (source name : String) (reason : Utf8.Reason) :
    load (.ofType t) t source ≠ .error (.invalidEncoding name reason) := by
  intro h
  rcases (load_eq_error_iff t t source _).mp h with hline | ⟨-, hstack⟩
  · obtain ⟨_, _, -, hoffence⟩ := hline.exists
    cases hoffence with
    | row _ hchar =>
      obtain ⟨_, _, -, hc⟩ := hchar.exists
      cases hc
    | declaration _ hdeclaration =>
      cases hdeclaration with
      | value _ _ _ hvalue =>
        obtain ⟨_, _, -, -, he⟩ := hvalue.exists
        cases he
    | stack hsize _ => cases hsize
  · obtain ⟨_, _, -, _, -, -, he⟩ := hstack.exists
    cases he

end Program

namespace Debugger

/-! ## Ends of the command -/

/-- What the command comes to on a file, with a type of numbers. -/
inductive Launched (file : String) (type : NumberType) (autoRun : Bool) (tree : FileTree) :
    Launch → Prop where
  | started {bytes : List UInt8} {source : String} {m : Machine}
    (hfile : tree.lookup (Path.ofString file) = .ok (.file bytes))
    (hsource : Program.textOfBytes (Path.ofString file).text bytes = .ok source)
    (hload : Program.load (.ofType type) type source = .ok m) :
    Launched file type autoRun tree (.started
      ⟨type, some m, Text.lines source, (Path.ofString file).text, [], .running⟩ autoRun)
  | missing {cause : FileError} (hfile : tree.lookup (Path.ofString file) = .error cause)
    (hcause : ∀ path, cause ≠ .nameTooLong path) :
    Launched file type autoRun tree
      (.exit 1 "" ("Error: " ++ ("File not found: " ++ (Path.ofString file).text) ++ "\n"))
  | undecodable {bytes : List UInt8} {e : LoadError}
    (hfile : tree.lookup (Path.ofString file) = .ok (.file bytes))
    (hsource : Program.textOfBytes (Path.ofString file).text bytes = .error e) :
    Launched file type autoRun tree (.exit 1 "" ("Error: " ++ e.message ++ "\n"))
  | refused {bytes : List UInt8} {source : String} {e : LoadError}
    (hfile : tree.lookup (Path.ofString file) = .ok (.file bytes))
    (hsource : Program.textOfBytes (Path.ofString file).text bytes = .ok source)
    (hload : Program.load (.ofType type) type source = .error e) :
    Launched file type autoRun tree (.exit 1 "" ("Error: " ++ e.message ++ "\n"))
  | directory (hfile : tree.lookup (Path.ofString file) = .ok .directory) :
    Launched file type autoRun tree (.escaped (.isDirectory (Path.ofString file)))
  | nameTooLong {path : Path}
    (hfile : tree.lookup (Path.ofString file) = .error (.nameTooLong path)) :
    Launched file type autoRun tree (.escaped (.nameTooLong path))

variable {file : String} {type : NumberType} {autoRun : Bool} {tree : FileTree} {o : Launch}

theorem launch_of_file {bytes : List UInt8}
    (h : tree.lookup (Path.ofString file) = .ok (.file bytes)) :
    Launched file type autoRun tree (launch ⟨file, autoRun, some type⟩ type tree) := by
  have hread : tree.read (Path.ofString file) = .ok bytes := by
    rw [FileTree.read, h]
  unfold launch Session.loadFile
  simp only [h, hread, Except.mapError, Outcome.ok_bind]
  cases hsource : Program.textOfBytes (Path.ofString file).text bytes with
  | error e => exact .undecodable h hsource
  | ok source =>
    simp only [Outcome.ok_bind, Session.loadText, Session.start]
    cases hload : Program.load (.ofType type) type source with
    | error e => exact .refused h hsource hload
    | ok m => exact .started h hsource hload

theorem launched_launch (file : String) (type : NumberType) (autoRun : Bool) (tree : FileTree) :
    Launched file type autoRun tree (launch ⟨file, autoRun, some type⟩ type tree) := by
  cases h : tree.lookup (Path.ofString file) with
  | error cause =>
    unfold launch
    cases cause with
    | nameTooLong path =>
      simp only [h]
      exact .nameTooLong h
    | notFound | notDirectory | isDirectory | nullByte =>
      simp only [h]
      exact .missing h nofun
  | ok node =>
    cases node with
    | file bytes => exact launch_of_file h
    | directory =>
      have hread : tree.read (Path.ofString file) = .error (.isDirectory (Path.ofString file)) := by
        rw [FileTree.read, h]
      unfold launch Session.loadFile
      simp only [h, hread]
      exact .directory h

theorem Launched.escaped_iff (h : Launched file type autoRun tree o) :
    (∃ cause, o = .escaped cause) ↔
      tree.lookup (Path.ofString file) = .ok .directory ∨
        ∃ path, tree.lookup (Path.ofString file) = .error (.nameTooLong path) := by
  cases h with
  | started hfile | undecodable hfile | refused hfile => simp [hfile]
  | missing hfile hcause => simp [hfile, hcause]
  | directory hfile | nameTooLong hfile => simp [hfile]

theorem Launched.oneLine (h : Launched file type autoRun tree o) (hfile : OneLine file)
    {message : String} (ho : o = .exit 1 "" ("Error: " ++ message ++ "\n")) : OneLine message := by
  have hpath := Path.oneLine_text hfile
  have hmessage {message' : String} (hline : OneLine message')
      (heq : Launch.exit 1 "" ("Error: " ++ message' ++ "\n") =
        .exit 1 "" ("Error: " ++ message ++ "\n")) : OneLine message := by
    obtain ⟨-, -, herror⟩ := Launch.exit.inj heq
    rw [String.append_left_inj, String.append_right_inj] at herror
    rwa [← herror]
  cases h with
  | started | directory | nameTooLong => cases ho
  | missing _ hcause =>
    exact hmessage ((by decide : OneLine "File not found: ").append hpath) ho
  | undecodable _ hsource =>
    obtain ⟨reason, rfl⟩ := Program.exists_reason_of_textOfBytes hsource
    refine hmessage (LoadError.oneLine_message rfl fun _ _ heq => ?_) ho
    cases heq
    exact hpath
  | refused _ _ hload =>
    refine hmessage (LoadError.oneLine_message (Program.ofText_of_load hload) ?_) ho
    rintro source reason rfl
    exact absurd hload (Program.load_ne_invalidEncoding type _ source reason)

/-! ## The command -/

theorem exists_args (file : String) (autoRun : Bool) (type : NumberType) :
    ∃ args, Arguments.parse args = .ok ⟨file, autoRun, some type⟩ := by
  refine ⟨(if autoRun then ["--run"] else []) ++ ["-t", type.name, "--", file], ?_⟩
  cases autoRun <;> cases type with
  | unbounded => rfl
  | signed w => cases w <;> rfl
  | unsigned w => cases w <;> rfl

/-- Every file and every type of numbers can be asked for.  The command then starts on a session
that runs the program of the file's text, or reports why there is none and ends with status 1,
unless the path leads to a directory or has a name that is too long: those errors, and no others,
escape.  The report is one line if the path has no newline in it. -/
theorem launch_starts_reports_or_escapes (file : String) (autoRun : Bool) (type : NumberType)
    (tree : FileTree) :
    (∃ args, Arguments.parse args = .ok ⟨file, autoRun, some type⟩) ∧
    ∀ args, Arguments.parse args = .ok ⟨file, autoRun, some type⟩ →
      Launched file type autoRun tree (command args tree) ∧
      ((∃ cause, command args tree = .escaped cause) ↔
        tree.lookup (Path.ofString file) = .ok .directory ∨
          ∃ path, tree.lookup (Path.ofString file) = .error (.nameTooLong path)) ∧
      (OneLine file → ∀ message,
        command args tree = .exit 1 "" ("Error: " ++ message ++ "\n") → OneLine message) := by
  refine ⟨exists_args file autoRun type, fun args hargs => ?_⟩
  have hcommand : command args tree = launch ⟨file, autoRun, some type⟩ type tree := by
    rw [command, hargs]
  have hlaunched := launched_launch file type autoRun tree
  rw [hcommand]
  exact ⟨hlaunched, hlaunched.escaped_iff, fun hfile _ => hlaunched.oneLine hfile⟩

theorem launch_reports_a_stack_out_of_range :
    let args := ["--run", "-t", "i8", "a.msc"]
    let byte := NumberType.signed .bits8
    let tree := FileTree.ofList [("a.msc", .file [0x73, 0x20, 0x30, 0x20, 0x39])]
    Arguments.parse args = .ok ⟨"a.msc", true, some byte⟩ ∧
      Launched "a.msc" byte true tree (command args tree) ∧
      (¬∃ cause, command args tree = .escaped cause) ∧
      command args tree = .exit 1 "" ("Error: " ++ "stack pointer out of range: (0, 9)" ++ "\n") ∧
      OneLine "stack pointer out of range: (0, 9)" := by
  intro args byte tree
  have hargs : Arguments.parse args = .ok ⟨"a.msc", true, some byte⟩ := rfl
  have hlookup :
      tree.lookup (Path.ofString "a.msc") = .ok (.file [0x73, 0x20, 0x30, 0x20, 0x39]) := rfl
  obtain ⟨hlaunched, hescaped, hline⟩ :=
    (launch_starts_reports_or_escapes "a.msc" true byte tree).2 args hargs
  have hreported :
      command args tree = .exit 1 "" ("Error: " ++ "stack pointer out of range: (0, 9)" ++ "\n") :=
    rfl
  refine ⟨hargs, hlaunched, ?_, hreported, hline (by decide) _ hreported⟩
  rw [hescaped, hlookup]
  rintro (h | ⟨path, h⟩) <;> cases h

/-- A directory in place of the program file is neither started on nor reported. -/
theorem directory_escapes :
    let tree := FileTree.ofList [("d", .directory)]
    Arguments.parse ["d"] = .ok ⟨"d", false, some .standard⟩ ∧
      command ["d"] tree = .escaped (.isDirectory ⟨"", ["d"]⟩) ∧
      (∀ session autoRun, command ["d"] tree ≠ .started session autoRun) ∧
      ∀ code stdout stderr, command ["d"] tree ≠ .exit code stdout stderr := by
  intro tree
  have hcommand : command ["d"] tree = .escaped (.isDirectory ⟨"", ["d"]⟩) := rfl
  refine ⟨rfl, hcommand, fun session autoRun h => ?_, fun code stdout stderr h => ?_⟩
  · cases hcommand.symm.trans h
  · cases hcommand.symm.trans h

end Debugger
end MatrixStack
