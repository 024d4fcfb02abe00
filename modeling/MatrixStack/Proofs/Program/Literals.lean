/-
Literals, and numbers that pass from one program to another.

A text is a literal of a type if and only if it is a numeral and what it names is in the range of
the type; nothing is wrapped (`Literal.read_eq_ok_iff_numeral`).  What is printed is a literal for
the same number, and a literal is printed again as it was, but for its plus sign, leading zeros and
sign of zero.  A number that a program prints belongs to the program's type, so its text answers any
request of another program of this type (`Interpreter.turn_of_answer`) and can be written in its
declarations.
-/
import MatrixStack.Proofs.Interpreter.Turns
import MatrixStack.Proofs.Machine.Requests
import MatrixStack.Proofs.Program.Faultless
import MatrixStack.Proofs.Program.Writing
import MatrixStack.Proofs.Text.Numerals

namespace MatrixStack

/-! ## Blanks around a word -/

namespace Text

variable {p : Char → Bool} {before word after : List Char}

theorem dropWhile_padded (hbefore : ∀ c ∈ before, p c = true) (hword : ∀ c ∈ word, p c = false)
    (hne : word ≠ []) : (before ++ (word ++ after)).dropWhile p = word ++ after := by
  rw [List.dropWhile_append_of_pos hbefore]
  obtain ⟨c, rest, rfl⟩ := List.exists_cons_of_ne_nil hne
  exact List.dropWhile_cons_of_neg (by rw [hword c (List.mem_cons_self ..)]; decide)

theorem trimWhere_padded (hbefore : ∀ c ∈ before, p c = true) (hword : ∀ c ∈ word, p c = false)
    (hne : word ≠ []) (hafter : ∀ c ∈ after, p c = true) :
    trimWhere p (before ++ (word ++ after)) = word := by
  have hreverse : (after.reverse ++ (word.reverse ++ [])).dropWhile p = word.reverse ++ [] :=
    dropWhile_padded (fun c hc => hafter c (List.mem_reverse.mp hc))
      (fun c hc => hword c (List.mem_reverse.mp hc)) (mt List.reverse_eq_nil_iff.mp hne)
  rw [List.append_nil] at hreverse
  rw [trimWhere, dropWhile_padded hbefore hword hne, List.reverse_append, hreverse,
    List.reverse_reverse]

end Text

/-! ## Literals -/

namespace Literal

variable {t : NumberType} {text : String} {n : Number} {v : Int}

theorem read_eq_ok_iff_numeral : read t text = .ok n ↔
    ∃ sign digits, Decimal.Numeral text.toList sign digits ∧
      t.Holds (sign.apply (Decimal.positional digits)) ∧
      n = ⟨t, sign.apply (Decimal.positional digits)⟩ := by
  rw [read_eq_ok_iff, Decimal.read_eq_ok_iff]
  constructor
  · rintro ⟨⟨sign, digits, hnumeral, hvalue⟩, rfl, hholds⟩
    exact ⟨sign, digits, hnumeral, hvalue ▸ hholds, hvalue ▸ rfl⟩
  · rintro ⟨sign, digits, hnumeral, hholds, rfl⟩
    exact ⟨⟨sign, digits, hnumeral, rfl⟩, rfl, hholds⟩

/-- What is printed is a literal for the number that it was printed for. -/
theorem read_printed (hholds : t.Holds v) (h : (Number.mk t v).printed? = some text) :
    read t text = .ok ⟨t, v⟩ := by
  obtain ⟨hprintable, rfl⟩ := Decimal.print?_eq_some_iff.mp h
  exact read_text ⟨hholds, fun _ => hprintable⟩

/-- A literal is printed again without a plus sign, leading zeros and the sign of zero. -/
theorem printed_read (h : read t text = .ok n) :
    n.printed? = some (String.ofList (Decimal.tidy text.toList)) := by
  obtain ⟨sign, digits, hnumeral, -, rfl⟩ := read_eq_ok_iff_numeral.mp h
  refine Decimal.print?_eq_some_iff.mpr ⟨hnumeral.printable_apply, ?_⟩
  rw [← hnumeral.text_apply, String.ofList_toList]

theorem isEmpty_of_read (h : read t text = .ok n) : text.isEmpty = false := by
  obtain ⟨sign, digits, hnumeral, -⟩ := read_eq_ok_iff_numeral.mp h
  refine Bool.eq_false_iff.mpr fun hempty => hnumeral.ne_nil ?_
  have hnil : [] = sign.chars ++ digits := by
    rw [← hnumeral.text_eq, String.isEmpty_iff.mp hempty]
    rfl
  exact (List.append_eq_nil_iff.mp hnil.symm).2

end Literal

/-! ## Answers -/

theorem Interpreter.answerOf_padded {t : NumberType} {v : Number} {s : String}
    (hread : Literal.read t s = .ok v) (hblank : ∀ c ∈ s.toList, Text.isBlank c = false)
    (hne : s.toList ≠ []) {before after : List Char}
    (hbefore : ∀ c ∈ before, Text.isBlank c = true)
    (hafter : ∀ c ∈ after, Text.isBlank c = true) :
    answerOf t (before ++ (s.toList ++ after)) = .ok v := by
  rw [answerOf, Text.trim, String.toList_ofList,
    Text.trimWhere_padded hbefore hblank hne hafter, String.ofList_toList, hread]

/-- A line with a literal on it answers, whether or not the program came from the input. -/
theorem Interpreter.turn_of_answer {s : Settings} {l : Live} {v : Number} {line : List Char}
    {rest : List (List Char)} (h : l.machine.state = .inputWaiting)
    (hlines : l.terminal.stdin.lines = line :: rest)
    (hread : answerOf l.machine.numberType line = .ok v) :
    turn s l = .goes { l with
      machine := l.machine.input v, terminal := l.terminal.said rest (promptText s) } := by
  rw [answerOf] at hread
  have htext := Literal.isEmpty_of_read hread
  have hline : line.isEmpty = false := by
    cases line with
    | nil => cases htext
    | cons c cs => rfl
  rw [turn_of_waiting h, lineTurn, readLine_prompt_of_line hlines]
  simp only [htext, hline, Bool.false_and, Bool.false_eq_true, if_false, hread]

/-- What a number is printed as answers a request, whatever blanks stand around it. -/
theorem Interpreter.turn_of_printed {t : NumberType} {v : Number} {text : String}
    (hv : v.Belongs t) (h : v.printed? = some text) {settings : Settings} {live : Live}
    {before after : List Char} {rest : List (List Char)} (htype : live.machine.numberType = t)
    (hstate : live.machine.state = .inputWaiting)
    (hbefore : ∀ c ∈ before, Text.isBlank c = true) (hafter : ∀ c ∈ after, Text.isBlank c = true)
    (hlines : live.terminal.stdin.lines = (before ++ (text.toList ++ after)) :: rest) :
    turn settings live = .goes { live with
      machine := live.machine.input v
      terminal := live.terminal.said rest (promptText settings) } := by
  obtain ⟨type, value⟩ := v
  obtain rfl : type = t := hv.1
  have hread := Literal.read_printed hv.2 h
  obtain ⟨-, rfl⟩ := Decimal.print?_eq_some_iff.mp h
  refine turn_of_answer hstate hlines ?_
  rw [htype]
  exact answerOf_padded hread (fun c hc => Decimal.isBlank_of_mem_text hc)
    (Decimal.toList_text_ne_nil value) hbefore hafter

namespace Program

variable {t : NumberType} {v : Number} {s : String}

theorem read_declaration_of_printed (hv : v.Belongs t) (h : v.printed? = some s) {b : Pointer}
    (hx : 0 ≤ b.x ∧ Literal.Writable t b.x) (hy : 0 ≤ b.y ∧ Literal.Writable t b.y) :
    Line.read (.ofType t)
      ("s " ++ Decimal.text b.x ++ " " ++ Decimal.text b.y ++ " " ++ s).toList =
        .ok (.declaration ⟨b, [v]⟩) := by
  obtain ⟨hprintable, rfl⟩ := Decimal.print?_eq_some_iff.mp h
  have hwritable : Declaration.Writable t ⟨b, [v]⟩ := by
    refine ⟨hx.2, hy.2, fun w hw => ?_⟩
    obtain rfl := List.mem_singleton.mp hw
    exact ⟨hv.1, hv.2, fun _ => hprintable⟩
  have htext : ("s " ++ Decimal.text b.x ++ " " ++ Decimal.text b.y ++ " " ++
      Decimal.text v.value).toList = (Line.declaration ⟨b, [v]⟩).text := by
    simp [Line.text, Declaration.text, Declaration.numerals]
  rw [htext]
  refine Line.read_text fun d hd => ?_
  obtain rfl := Option.some.inj hd
  exact Declaration.read_text hwritable hx.1 hy.1

/-- Literals are numerals in range, they are printed again as they were but for what can be left
out, and every number that a program prints is a literal for another program of its type. -/
theorem literals_are_numerals_in_range (t : NumberType) :
    (∀ (text : String) (n : Number), Literal.read t text = .ok n ↔
      ∃ sign digits, Decimal.Numeral text.toList sign digits ∧
        t.Holds (sign.apply (Decimal.positional digits)) ∧
        n = ⟨t, sign.apply (Decimal.positional digits)⟩) ∧
    (∀ (v : Int) (text : String), t.Holds v → (Number.mk t v).printed? = some text →
      Literal.read t text = .ok ⟨t, v⟩) ∧
    (∀ (text : String) (n : Number), Literal.read t text = .ok n →
      n.printed? = some (String.ofList (Decimal.tidy text.toList))) ∧
    ∀ (m : Machine) (calls : List Call) (v : Number) (text : String),
      Loaded (.ofType t) t m → (∀ c ∈ calls, c.Belongs t) → v ∈ m.given calls →
      v.printed? = some text →
      (∀ (settings : Interpreter.Settings) (live : Interpreter.Live) (before after : List Char)
        (rest : List (List Char)),
        live.machine.numberType = t → live.machine.state = .inputWaiting →
        (∀ c ∈ before, Text.isBlank c = true) → (∀ c ∈ after, Text.isBlank c = true) →
        live.terminal.stdin.lines = (before ++ (text.toList ++ after)) :: rest →
        Interpreter.turn settings live = .goes { live with
          machine := live.machine.input v
          terminal := live.terminal.said rest (Interpreter.promptText settings) }) ∧
      ∀ b : Pointer, 0 ≤ b.x ∧ Literal.Writable t b.x → 0 ≤ b.y ∧ Literal.Writable t b.y →
        Line.read (.ofType t)
          ("s " ++ Decimal.text b.x ++ " " ++ Decimal.text b.y ++ " " ++ text).toList =
            .ok (.declaration ⟨b, [v]⟩) := by
  refine ⟨fun _ _ => Literal.read_eq_ok_iff_numeral, fun _ _ => Literal.read_printed,
    fun _ _ => Literal.printed_read, ?_⟩
  intro m calls v text hloaded hcalls hgiven hprinted
  have hv : v.Belongs t := Machine.given_belongs hloaded.wellFormed hcalls v hgiven
  constructor
  · intro settings live before after rest htype hstate hbefore hafter hlines
    exact Interpreter.turn_of_printed hv hprinted htype hstate hbefore hafter hlines
  · exact fun b hx hy => read_declaration_of_printed hv hprinted hx hy

theorem literals_are_numerals_in_range_of_a_signed_byte :
    let byte := NumberType.signed .bits8
    let live (m : Machine) : Interpreter.Live :=
      ⟨1, m, .ofInput ⟨[[' ', '-', '7', '\t', '\n']], none⟩⟩
    Literal.read byte "-000" = .ok ⟨byte, 0⟩ ∧
    (Number.mk byte 0).printed? = some (String.ofList (Decimal.tidy "-000".toList)) ∧
    byte.Holds (-128) ∧ Literal.read byte "-128" = .ok ⟨byte, -128⟩ ∧
    ∃ m m' : Machine, load (.ofType byte) byte "s 0 0 -7\n.p\n" = .ok m ∧
      m.given [.step, .step] = [⟨byte, -7⟩] ∧
      m'.state = .inputWaiting ∧
      Interpreter.turn ⟨false, true, none⟩ (live m') = .goes { live m' with
        machine := m'.input ⟨byte, -7⟩
        terminal := (live m').terminal.said [] "" } ∧
      Line.read (.ofType byte) "s 2 0 -7".toList = .ok (.declaration ⟨⟨2, 0⟩, [⟨byte, -7⟩]⟩) := by
  intro byte live
  obtain ⟨-, hread, hprinted, hpassed⟩ := literals_are_numerals_in_range byte
  have hzero : Literal.read byte "-000" = .ok ⟨byte, 0⟩ := by decide
  have hleast : byte.Holds (-128) := by decide
  have hload : (load (.ofType byte) byte "s 0 0 -7\n.p\n").isOk = true := by decide
  obtain ⟨m, hm⟩ := Outcome.exists_of_isOk hload
  have hload' : (load (.ofType byte) byte "i").isOk = true := by decide
  obtain ⟨m', hm'⟩ := Outcome.exists_of_isOk hload'
  have hcheck : ∀ m ∈ (load (.ofType byte) byte "s 0 0 -7\n.p\n").toOption,
      m.given [.step, .step] = [⟨byte, -7⟩] := by decide
  have hcheck' : ∀ m ∈ (load (.ofType byte) byte "i").toOption,
      m.step.2.numberType = byte ∧ m.step.2.state = .inputWaiting := by decide
  rw [hm] at hcheck
  rw [hm'] at hcheck'
  have hgiven := hcheck m rfl
  obtain ⟨htype, hstate⟩ := hcheck' m' rfl
  obtain ⟨hanswers, hdeclares⟩ := hpassed m [.step, .step] ⟨byte, -7⟩ "-7" (.grown _ hm)
    (by decide) (by rw [hgiven]; decide) (by decide)
  refine ⟨hzero, hprinted _ _ hzero, hleast, hread _ _ hleast (by decide), m, m'.step.2, hm, hgiven,
    hstate, ?_, ?_⟩
  · have hblank (cs : List Char) (hcs : cs.all Text.isBlank = true) :
        ∀ c ∈ cs, Text.isBlank c = true := List.all_eq_true.mp hcs
    exact hanswers ⟨false, true, none⟩ (live m'.step.2) [' '] ['\t', '\n'] [] htype hstate
      (hblank _ rfl) (hblank _ rfl) rfl
  · have hwritable (x : Int) (hx : byte.Holds x) : Literal.Writable byte x := ⟨hx, nofun⟩
    exact hdeclares ⟨2, 0⟩ ⟨by decide, hwritable 2 (by decide)⟩
      ⟨Int.le_refl 0, hwritable 0 (by decide)⟩

end Program
end MatrixStack
