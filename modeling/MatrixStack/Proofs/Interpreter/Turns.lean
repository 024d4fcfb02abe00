/-
Turns of a run at a terminal.

A run in progress takes one turn after the other until one of them ends it; `Finishes` is that end,
and it is the same from every run that turns lead to.  For each situation one lemma says what its
turn is: a machine that has stopped, a cap that is reached, a step, a line that answers, a line that
is echoed, and the end of the input.
-/
import MatrixStack.Interpreter.Run

namespace MatrixStack

/-- The terminal after its input has been read up to the given lines and a text has been printed. -/
def Terminal.said (t : Terminal) (lines : List (List Char)) (text : String) : Terminal :=
  ⟨⟨lines, t.stdin.ending⟩, t.stdout ++ text, t.stderr⟩

theorem Terminal.said_said (t : Terminal) (lines lines' : List (List Char)) (text text' : String) :
    (t.said lines text).said lines' text' = t.said lines' (text ++ text') := by
  unfold said
  rw [String.append_assoc]

namespace Interpreter

variable {s : Settings} {l l' : Live} {r : Result}

/-! ## Ends -/

/-- The run in progress comes to this end. -/
def Finishes (s : Settings) (l : Live) (r : Result) : Prop := ∃ n, finish? s l n = some r

theorem finishes_of_ends (h : turn s l = .ends r) : Finishes s l r := ⟨1, by rw [finish?, h]⟩

theorem finishes_of_goes (h : turn s l = .goes l') (hr : Finishes s l' r) : Finishes s l r := by
  obtain ⟨n, hn⟩ := hr
  exact ⟨n + 1, by rw [finish?, h]; exact hn⟩

theorem Finishes.unique {r' : Result} (h : Finishes s l r) (h' : Finishes s l r') : r = r' := by
  obtain ⟨n, hn⟩ := h
  obtain ⟨k, hk⟩ := h'
  exact finish?_unique hn hk

/-! ## Texts at the terminal -/

/-- What a line is taken for, without the blanks at its ends.  Nothing is gained by reading a line
that is not known, so the definition is only opened by name. -/
@[irreducible]
def answerOf (t : NumberType) (line : List Char) : Except LiteralFault Number :=
  Literal.read t (Text.trim (String.ofList line))

def promptText (s : Settings) : String := if s.suppress then "" else "> "

/-- The line without the blanks at its ends, quoted, and what is wrong with it. -/
def echoText (line : List Char) (fault : LiteralFault) : String :=
  Text.quote (Text.trim (String.ofList line)) ++ "\n" ++ (fault.message ++ "\n")

theorem prompt_eq (s : Settings) (t : Terminal) : prompt s t = t.said t.stdin.lines (promptText s) := by
  unfold prompt promptText
  split
  · unfold Terminal.said
    rw [String.append_empty]
  · rfl

theorem echo_eq (t : Terminal) (line : List Char) (fault : LiteralFault) :
    echo t (Text.trim (String.ofList line)) fault =
      t.said t.stdin.lines (echoText line fault) := by
  unfold echo Terminal.printLine Terminal.print Terminal.said echoText
  rw [String.append_assoc]

theorem stdin_reportCap (s : Settings) (steps : Nat) (t : Terminal) :
    (reportCap s steps t).stdin = t.stdin := by
  unfold reportCap
  split <;> rfl

theorem stdout_reportCap (s : Settings) (steps : Nat) (t : Terminal) :
    (reportCap s steps t).stdout = t.stdout := by
  unfold reportCap
  split <;> rfl

/-! ## Lines of the input -/

section

variable {t : Terminal} {line : List Char} {rest : List (List Char)}

theorem readLine_prompt_of_line (h : t.stdin.lines = line :: rest) :
    (prompt s t).readLine = (.ok line, t.said rest (promptText s)) := by
  rw [prompt_eq, Terminal.readLine, Stream.read, Terminal.said, h]
  rfl

theorem readLine_prompt_of_end (h : t.stdin = ⟨[], none⟩) :
    (prompt s t).readLine = (.ok [], t.said [] (promptText s)) := by
  rw [prompt_eq]
  unfold Terminal.said
  rw [h]
  rfl

theorem readLine_prompt_of_fault {f : Utf8.Fault} (h : t.stdin = ⟨[], some f⟩) :
    (prompt s t).readLine = (.error f, t.said [] (promptText s)) := by
  rw [prompt_eq]
  unfold Terminal.said
  rw [h]
  rfl

end

/-! ## One turn -/

theorem turn_of_stopped (h : l.machine.state = .stopped) :
    turn s l = .ends ⟨.stopped, l.machine, l.terminal⟩ := by
  rw [turn, h]

theorem turn_of_running (h : l.machine.state = .running) : turn s l = stepTurn s l := by
  rw [turn, h]

theorem turn_of_waiting (h : l.machine.state = .inputWaiting) : turn s l = lineTurn s l := by
  rw [turn, h]

theorem turn_of_capped (h : l.machine.state = .running) (hcap : capReached s l.steps = true) :
    turn s l = .ends ⟨.capped, l.machine, reportCap s l.steps l.terminal⟩ := by
  rw [turn_of_running h, stepTurn, if_pos hcap]

theorem turn_of_step (h : l.machine.state = .running) (hcap : capReached s l.steps = false) :
    turn s l =
      match l.machine.step with
      | (.error fault, m) => .ends ⟨.fault fault, m, l.terminal⟩
      | (.ok none, m) => .goes ⟨l.steps + 1, m, l.terminal⟩
      | (.ok (some v), m) =>
        match v.printed? with
        | none => .ends ⟨.unprintable, m, l.terminal⟩
        | some numeral => .goes ⟨l.steps + 1, m, l.terminal.printLine numeral⟩ := by
  rw [turn_of_running h]
  unfold stepTurn
  refine (if_neg (by rw [hcap]; decide)).trans ?_
  rcases l.machine.step with ⟨fault | none | v, m⟩ <;> rfl

theorem turn_of_line {line : List Char} {rest : List (List Char)}
    (h : l.machine.state = .inputWaiting) (hpiped : s.piped = false)
    (hlines : l.terminal.stdin.lines = line :: rest) (hline : line ≠ []) :
    turn s l =
      match answerOf l.machine.numberType line with
      | .ok v =>
        .goes { l with
          machine := l.machine.input v, terminal := l.terminal.said rest (promptText s) }
      | .error fault =>
        .goes { l with
          terminal := l.terminal.said rest (promptText s ++ echoText line fault) } := by
  have hnonempty : line.isEmpty = false := by
    cases line with
    | nil => exact absurd rfl hline
    | cons c cs => rfl
  rw [turn_of_waiting h, lineTurn, readLine_prompt_of_line hlines]
  simp only [hpiped, hnonempty, Bool.and_false, Bool.false_eq_true, if_false, answerOf]
  cases Literal.read l.machine.numberType (Text.trim (String.ofList line)) with
  | ok v => rfl
  | error fault =>
    simp only
    rw [echo_eq, Terminal.said_said]
    rfl

theorem turn_of_fault {f : Utf8.Fault} (h : l.machine.state = .inputWaiting)
    (hstdin : l.terminal.stdin = ⟨[], some f⟩) :
    turn s l = .ends ⟨.undecodable f, l.machine, l.terminal.said [] (promptText s)⟩ := by
  rw [turn_of_waiting h, lineTurn, readLine_prompt_of_fault hstdin]

theorem turn_of_end (h : l.machine.state = .inputWaiting) (hpiped : s.piped = false)
    (hstdin : l.terminal.stdin = ⟨[], none⟩) :
    turn s l =
      .ends ⟨.unanswered .closedStream, l.machine, l.terminal.said [] (promptText s)⟩ := by
  rw [turn_of_waiting h, lineTurn, readLine_prompt_of_end hstdin]
  simp only [hpiped, Bool.and_false, Bool.false_eq_true, if_false, List.isEmpty_nil, if_true]

end Interpreter
end MatrixStack
