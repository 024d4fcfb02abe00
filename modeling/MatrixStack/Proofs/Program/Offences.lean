/-
What is wrong with a line of a program text.

`LineOffence` tells the error of a line from its characters and tokens.  In a row it is about the
leftmost character that is no instruction or has no place; in a declaration about the pointer as a
whole, then its coordinates, then the numbers from left to right, then the stack.  Reading a line
ends in exactly these errors (`Line.read_eq_error_iff`), and what the tokenizer refuses is never
among them, because no line of a text has a newline in it.
-/
import MatrixStack.Proofs.Program.SourceLines

namespace MatrixStack

open Outcome

variable {t : NumberType} {token : String} {line : List Char} {e : LoadError}

/-! ## Literals -/

namespace Literal

/-- The token is a decimal numeral of a value of the type. -/
def Denotes (t : NumberType) (token : String) (v : Int) : Prop :=
  Decimal.read token = .ok v ∧ t.Holds v

def DenotesIndex (t : NumberType) (token : String) (i : Int) : Prop := Denotes t token i ∧ 0 ≤ i

theorem denotes_iff {v : Int} : Denotes t token v ↔ ∃ n, read t token = .ok n ∧ n.value = v := by
  simp only [read_eq_ok_iff]
  constructor
  · rintro ⟨hread, hholds⟩
    exact ⟨⟨t, v⟩, ⟨hread, rfl, hholds⟩, rfl⟩
  · rintro ⟨n, ⟨hread, -, hholds⟩, rfl⟩
    exact ⟨hread, hholds⟩

end Literal

open Literal

namespace Converters

theorem exists_readNumber_iff :
    (∃ n, (ofType t).readNumber token = .ok n) ↔ ∃ v, Denotes t token v := by
  simp only [readNumber_eq_ok_iff, number_ofType_eq_ok_iff, denotes_iff]
  exact ⟨fun ⟨n, h⟩ => ⟨n.value, n, h, rfl⟩, fun ⟨_, n, h, _⟩ => ⟨n, h⟩⟩

theorem readNumber_eq_error_iff : (ofType t).readNumber token = .error e ↔
    (∀ v, ¬Denotes t token v) ∧ e = .invalidNumber token := by
  have honly : ∀ e, (ofType t).readNumber token = .error e → e = .invalidNumber token := by
    intro e he
    unfold readNumber ofType at he
    cases h : read t token <;> simp_all [Refusal.toLoadError]
  rw [eq_error_iff honly, ← not_exists, ← not_exists, exists_readNumber_iff]

theorem readCoordinate_ofType_eq_ok_iff {i : Int} :
    (ofType t).readCoordinate token = .ok i ↔ DenotesIndex t token i := by
  simp only [readCoordinate_eq_ok_iff, number_ofType_eq_ok_iff, index_ofType_eq_ok_iff,
    DenotesIndex, denotes_iff]
  constructor
  · rintro ⟨n, hn, hpos, rfl⟩
    exact ⟨⟨n, hn, rfl⟩, hpos⟩
  · rintro ⟨⟨n, hn, rfl⟩, hpos⟩
    exact ⟨n, hn, hpos, rfl⟩

theorem readCoordinate_eq_error_iff : (ofType t).readCoordinate token = .error e ↔
    (∀ i, ¬DenotesIndex t token i) ∧ e = .invalidCoordinate token := by
  have honly : ∀ e, (ofType t).readCoordinate token = .error e → e = .invalidCoordinate token := by
    intro e he
    unfold readCoordinate ofType at he
    cases h : read t token with
    | error fault => simp_all [Refusal.toLoadError]
    | ok n => by_cases hneg : n.value < 0 <;> simp_all [Refusal.toLoadError]
  rw [eq_error_iff honly]
  simp only [ne_eq, readCoordinate_ofType_eq_ok_iff]

end Converters

/-! ## Declarations -/

/-- The tokens of a declaration line, after its first character. -/
def Line.tokens (line : List Char) : List String :=
  (Tokens.words (Tokens.beforeComment line.tail)).map String.ofList

/-- The line declares numbers for the stack of the block, and every token of it can be read. -/
def Line.Declares (t : NumberType) (line : List Char) (b : Pointer) : Prop :=
  isDeclaration line = true ∧ ∃ x y values, tokens line = x :: y :: values ∧
    DenotesIndex t x b.x ∧ DenotesIndex t y b.y ∧ ∀ token ∈ values, ∃ v, Denotes t token v

/-- What is wrong with a declaration, the first thing first. -/
inductive DeclarationOffence (t : NumberType) (line : List Char) : LoadError → Prop where
  | pointer (h : (Line.tokens line).length < 2) :
    DeclarationOffence t line (.missingPointer (String.ofList line))
  | x {x y values} (htokens : Line.tokens line = x :: y :: values)
    (h : ∀ i, ¬DenotesIndex t x i) : DeclarationOffence t line (.invalidCoordinate x)
  | y {x y values i} (htokens : Line.tokens line = x :: y :: values) (hx : DenotesIndex t x i)
    (h : ∀ j, ¬DenotesIndex t y j) : DeclarationOffence t line (.invalidCoordinate y)
  | value {x y values i j e} (htokens : Line.tokens line = x :: y :: values)
    (hx : DenotesIndex t x i) (hy : DenotesIndex t y j)
    (h : FirstError (fun _ token e => (∀ v, ¬Denotes t token v) ∧ e = .invalidNumber token)
      values e) : DeclarationOffence t line e

namespace Declaration

variable {conv : Converters}

theorem read?_tail (hline : '\n' ∉ line) : Tokens.read? line.tail = some (Line.tokens line) :=
  Tokens.read?_of_no_newline fun hmem => hline (List.mem_of_mem_tail hmem)

theorem read_of_short (hline : '\n' ∉ line) (h : (Line.tokens line).length < 2) :
    read conv line = .error (.missingPointer (String.ofList line)) := by
  rw [read, read?_tail hline]
  cases htokens : Line.tokens line with
  | nil => rfl
  | cons x rest =>
    cases rest with
    | nil => rfl
    | cons y values =>
      rw [htokens, List.length_cons, List.length_cons] at h
      omega

theorem read_of_pointer (hline : '\n' ∉ line) {x y : String} {values : List String}
    (h : Line.tokens line = x :: y :: values) :
    read conv line = do
      let x ← conv.readCoordinate x
      let y ← conv.readCoordinate y
      return ⟨⟨x, y⟩, ← values.mapM conv.readNumber⟩ := by
  rw [read, read?_tail hline, h]

/-- A line has too few tokens for a pointer, or it has a pointer and numbers after it. -/
theorem short_or_pointer (line : List Char) : (Line.tokens line).length < 2 ∨
    ∃ x y values, Line.tokens line = x :: y :: values := by
  match h : Line.tokens line with
  | [] => exact .inl (by decide)
  | [x] => exact .inl (Nat.lt_succ_self 1)
  | x :: y :: values => exact .inr ⟨x, y, values, rfl⟩

theorem read_eq_ok_iff (hline : '\n' ∉ line) {d : Declaration} :
    read (.ofType t) line = .ok d ↔ ∃ x y values, Line.tokens line = x :: y :: values ∧
      DenotesIndex t x d.block.x ∧ DenotesIndex t y d.block.y ∧
      values.mapM (Converters.ofType t).readNumber = .ok d.values := by
  rcases short_or_pointer line with hshort | ⟨x, y, values, htokens⟩
  · rw [read_of_short hline hshort]
    refine iff_of_false (fun h => nomatch h) ?_
    rintro ⟨x, y, values, htokens, -⟩
    rw [htokens, List.length_cons, List.length_cons] at hshort
    omega
  · simp only [read_of_pointer hline htokens, htokens, bind_eq_ok_iff,
      Converters.readCoordinate_ofType_eq_ok_iff]
    constructor
    · rintro ⟨i, hi, j, hj, vs, hvs, heq⟩
      cases heq
      exact ⟨x, y, values, rfl, hi, hj, hvs⟩
    · rintro ⟨_, _, _, heq, hi, hj, hvs⟩
      cases heq
      exact ⟨_, hi, _, hj, _, hvs, rfl⟩

theorem read_eq_error_iff (hline : '\n' ∉ line) :
    read (.ofType t) line = .error e ↔ DeclarationOffence t line e := by
  rcases short_or_pointer line with hshort | ⟨x, y, values, htokens⟩
  · have hno : ∀ {x y values}, ¬Line.tokens line = x :: y :: values := by
      intro x y values htokens
      rw [htokens, List.length_cons, List.length_cons] at hshort
      omega
    rw [read_of_short hline hshort]
    constructor
    · intro h
      cases h
      exact .pointer hshort
    · intro h
      cases h with
      | pointer => rfl
      | x htokens | y htokens | value htokens => exact absurd htokens hno
  · simp only [read_of_pointer hline htokens, bind_eq_error_iff, mapM_eq_error_iff,
      Converters.readCoordinate_ofType_eq_ok_iff, Converters.readCoordinate_eq_error_iff,
      Converters.readNumber_eq_error_iff]
    constructor
    · rintro (⟨hx, rfl⟩ | ⟨i, hi, ⟨hy, rfl⟩ | ⟨j, hj, hvalue | ⟨_, _, h⟩⟩⟩)
      · exact .x htokens hx
      · exact .y htokens hi hy
      · exact .value htokens hi hj hvalue
      · cases h
    · intro h
      cases h with
      | pointer hshort =>
        rw [htokens, List.length_cons, List.length_cons] at hshort
        omega
      | x htokens' hx =>
        cases htokens.symm.trans htokens'
        exact .inl ⟨hx, rfl⟩
      | y htokens' hx hy =>
        cases htokens.symm.trans htokens'
        exact .inr ⟨_, hx, .inl ⟨hy, rfl⟩⟩
      | value htokens' hx hy hvalue =>
        cases htokens.symm.trans htokens'
        exact .inr ⟨_, hx, .inr ⟨_, hy, .inl hvalue⟩⟩

end Declaration

theorem Line.declares_iff (hline : '\n' ∉ line) {b : Pointer} :
    Declares t line b ↔ isDeclaration line = true ∧
      ∃ d, Declaration.read (.ofType t) line = .ok d ∧ d.block = b := by
  refine and_congr_right fun _ => ?_
  simp only [Declaration.read_eq_ok_iff hline]
  constructor
  · rintro ⟨x, y, values, htokens, hx, hy, hvalues⟩
    obtain ⟨vs, hvs⟩ := exists_mapM_eq_ok fun token htoken =>
      Converters.exists_readNumber_iff.mpr (hvalues token htoken)
    exact ⟨⟨b, vs⟩, ⟨x, y, values, htokens, hx, hy, hvs⟩, rfl⟩
  · rintro ⟨d, ⟨x, y, values, htokens, hx, hy, hvs⟩, rfl⟩
    refine ⟨x, y, values, htokens, hx, hy, fun token htoken => ?_⟩
    exact Converters.exists_readNumber_iff.mp (exists_of_mapM_eq_ok hvs htoken)

/-! ## Lines -/

/-- What is wrong with a character of a row at its place; a grid that grows has every place. -/
inductive CharOffence (size : Option Extent) (y x : Nat) (c : Char) : LoadError → Prop where
  | unknown (h : Instruction.ofChar? c = none) :
    CharOffence size y x c (.unknownInstruction (String.singleton c))
  | outOfRange {extent i} (hsize : size = some extent) (h : Instruction.ofChar? c = some i)
    (hout : extent.contains ⟨x, y⟩ = false) :
    CharOffence size y x c (.instructionOutOfRange ⟨x + 1, y⟩ c)

/-- The line declares numbers for a block that has no stack. -/
def StackOffence (t : NumberType) (blocks : Extent) (line : List Char) (e : LoadError) : Prop :=
  ∃ b, Line.Declares t line b ∧ blocks.contains b = false ∧ e = .stackOutOfRange b

theorem stackOffence_iff (hline : '\n' ∉ line) {blocks : Extent} :
    StackOffence t blocks line e ↔ Line.isDeclaration line = true ∧
      ∃ d, Declaration.read (.ofType t) line = .ok d ∧ blocks.contains d.block = false ∧
        e = .stackOutOfRange d.block := by
  simp only [StackOffence, Line.declares_iff hline]
  constructor
  · rintro ⟨_, ⟨hdecl, d, hd, rfl⟩, hout, rfl⟩
    exact ⟨hdecl, d, hd, hout, rfl⟩
  · rintro ⟨hdecl, d, hd, hout, rfl⟩
    exact ⟨d.block, ⟨hdecl, d, hd, rfl⟩, hout, rfl⟩

/-- What is wrong with a line, the first thing first; the line is the given one of the grid if it is
a row, and the stacks of a grid that grows are not looked for yet. -/
inductive LineOffence (t : NumberType) (size : Option Extent) (y : Nat) (line : List Char) :
    LoadError → Prop where
  | row {e : LoadError} (hkind : Line.isRow line = true)
    (h : FirstError (fun before c => CharOffence size y before.length c)
      (Line.rowChars line) e) : LineOffence t size y line e
  | declaration {e : LoadError} (hkind : Line.isDeclaration line = true)
    (h : DeclarationOffence t line e) : LineOffence t size y line e
  | stack {extent : Extent} {e : LoadError} (hsize : size = some extent)
    (h : StackOffence t extent.blocks line e) : LineOffence t size y line e

/-- What is wrong with a line after others; if it is a row, it goes below the rows among them. -/
def OffenceAfter (t : NumberType) (size : Option Extent) (before : List (List Char))
    (line : List Char) (e : LoadError) : Prop :=
  LineOffence t size (Program.rowsOf before).length line e

section

variable {size : Option Extent} {y : Nat}

theorem lineOffence_iff_of_isRow (hrow : Line.isRow line = true) : LineOffence t size y line e ↔
    FirstError (fun before c => CharOffence size y before.length c) (Line.rowChars line) e := by
  have hdecl := Line.not_isDeclaration_of_isRow hrow
  constructor
  · intro h
    cases h with
    | row _ h => exact h
    | declaration hkind => exact absurd hkind hdecl
    | stack _ h =>
      obtain ⟨b, hb, -⟩ := h
      exact absurd hb.1 hdecl
  · exact .row hrow

theorem lineOffence_iff_of_isDeclaration (hdecl : Line.isDeclaration line = true) :
    LineOffence t size y line e ↔ DeclarationOffence t line e ∨
      ∃ extent, size = some extent ∧ StackOffence t extent.blocks line e := by
  constructor
  · intro h
    cases h with
    | row hrow => exact absurd hdecl (Line.not_isDeclaration_of_isRow hrow)
    | declaration _ h => exact .inl h
    | stack hsize h => exact .inr ⟨_, hsize, h⟩
  · rintro (h | ⟨extent, hsize, h⟩)
    · exact .declaration hdecl h
    · exact .stack hsize h

theorem not_lineOffence_of_isComment (hrow : ¬Line.isRow line = true)
    (hdecl : ¬Line.isDeclaration line = true) : ¬LineOffence t size y line e := by
  intro h
  cases h with
  | row hkind => exact hrow hkind
  | declaration hkind => exact hdecl hkind
  | stack _ h =>
    obtain ⟨b, hb, -⟩ := h
    exact hdecl hb.1

theorem charOffence_of_unknown {x : Nat} {c : Char} (hc : Instruction.ofChar? c = none) :
    CharOffence size y x c e ↔ e = .unknownInstruction (String.singleton c) := by
  constructor
  · intro h
    cases h with
    | unknown => rfl
    | outOfRange _ h => cases hc.symm.trans h
  · rintro rfl
    exact .unknown hc

theorem charOffence_of_known {x : Nat} {c : Char} {i : Instruction}
    (hc : Instruction.ofChar? c = some i) : CharOffence size y x c e ↔ ∃ extent,
      size = some extent ∧ extent.contains ⟨x, y⟩ = false ∧
        e = .instructionOutOfRange ⟨x + 1, y⟩ c := by
  constructor
  · intro h
    cases h with
    | unknown h => cases hc.symm.trans h
    | outOfRange hsize _ hout => exact ⟨_, hsize, hout, rfl⟩
  · rintro ⟨extent, hsize, hout, rfl⟩
    exact .outOfRange hsize hc hout

theorem charOffence_none_iff {x : Nat} {c : Char} :
    CharOffence none y x c e ↔ Line.readInstruction c = .error e := by
  unfold Line.readInstruction
  cases hc : Instruction.ofChar? c with
  | none =>
    rw [charOffence_of_unknown hc, Except.error.injEq]
    exact eq_comm
  | some i =>
    rw [charOffence_of_known hc]
    exact iff_of_false (fun ⟨_, hsize, _⟩ => nomatch hsize) fun h => nomatch h

theorem Line.readRow_eq_error_iff : readRow line = .error e ↔
    FirstError (fun before c => CharOffence none y before.length c) (rowChars line) e := by
  rw [readRow, mapM_eq_error_iff]
  exact FirstError.congr fun _ _ _ _ => charOffence_none_iff.symm

theorem Line.read_eq_error_iff (hline : '\n' ∉ line) :
    read (.ofType t) line = .error e ↔ LineOffence t none y line e := by
  by_cases hrow : isRow line = true
  · rw [read_of_isRow hrow, map_eq_error_iff, lineOffence_iff_of_isRow hrow]
    exact readRow_eq_error_iff
  by_cases hdecl : isDeclaration line = true
  · rw [read_of_isDeclaration hdecl, map_eq_error_iff, Declaration.read_eq_error_iff hline,
      lineOffence_iff_of_isDeclaration hdecl]
    exact (or_iff_left fun ⟨_, hsize, _⟩ => nomatch hsize).symm
  · rw [read_of_isComment hrow hdecl]
    exact iff_of_false (fun h => nomatch h) (not_lineOffence_of_isComment hrow hdecl)

end

/-! ## Faults of the text -/

theorem DeclarationOffence.ofText (h : DeclarationOffence t line e) : e.ofText = true := by
  cases h with
  | pointer | x | y => rfl
  | value _ _ _ h =>
    obtain ⟨_, token, -, -, rfl⟩ := h.exists
    rfl

theorem StackOffence.ofText {blocks : Extent} (h : StackOffence t blocks line e) :
    e.ofText = true := by
  obtain ⟨b, -, -, rfl⟩ := h
  rfl

theorem LineOffence.ofText {size : Option Extent} {y : Nat} (h : LineOffence t size y line e) :
    e.ofText = true := by
  cases h with
  | row _ h =>
    obtain ⟨_, c, -, hc⟩ := h.exists
    cases hc <;> rfl
  | declaration _ h => exact h.ofText
  | stack _ h => exact h.ofText

/-! ## Bad lines -/

/-- The line cannot be read, whatever the grid is like. -/
def Line.Bad (t : NumberType) (line : List Char) : Prop :=
  (isRow line = true ∧ ∃ c ∈ rowChars line, Instruction.ofChar? c = none) ∨
  (isDeclaration line = true ∧ ((tokens line).length < 2 ∨
    (∃ token ∈ (tokens line).take 2, ∀ i, ¬DenotesIndex t token i) ∨
    ∃ token ∈ (tokens line).drop 2, ∀ v, ¬Denotes t token v))

theorem exists_declarationOffence_iff : (∃ e, DeclarationOffence t line e) ↔
    (Line.tokens line).length < 2 ∨
    (∃ token ∈ (Line.tokens line).take 2, ∀ i, ¬DenotesIndex t token i) ∨
    ∃ token ∈ (Line.tokens line).drop 2, ∀ v, ¬Denotes t token v := by
  constructor
  · rintro ⟨e, h⟩
    cases h with
    | pointer hshort => exact .inl hshort
    | x htokens hx => exact .inr (.inl ⟨_, by simp [htokens], hx⟩)
    | y htokens _ hy => exact .inr (.inl ⟨_, by simp [htokens], hy⟩)
    | value htokens _ _ hvalue =>
      obtain ⟨token, hmem, _, hno, -⟩ := exists_firstError_iff.mp ⟨e, hvalue⟩
      exact .inr (.inr ⟨token, by simpa [htokens] using hmem, hno⟩)
  · intro h
    rcases Declaration.short_or_pointer line with hshort | ⟨x, y, values, htokens⟩
    · exact ⟨_, .pointer hshort⟩
    by_cases hx : ∃ i, DenotesIndex t x i
    case neg => exact ⟨_, .x htokens (not_exists.mp hx)⟩
    by_cases hy : ∃ j, DenotesIndex t y j
    case neg =>
      obtain ⟨i, hi⟩ := hx
      exact ⟨_, .y htokens hi (not_exists.mp hy)⟩
    obtain ⟨i, hi⟩ := hx
    obtain ⟨j, hj⟩ := hy
    rw [htokens] at h
    rcases h with hshort | ⟨token, hmem, hno⟩ | ⟨token, hmem, hno⟩
    · rw [List.length_cons, List.length_cons] at hshort
      omega
    · have hxy : token = x ∨ token = y := by simpa using hmem
      rcases hxy with rfl | rfl
      · exact absurd hi (hno i)
      · exact absurd hj (hno j)
    · have hvalue : ∃ e, FirstError (fun _ token e => (∀ v, ¬Denotes t token v) ∧
          e = LoadError.invalidNumber token) values e :=
        exists_firstError_iff.mpr ⟨token, hmem, _, hno, rfl⟩
      obtain ⟨e, he⟩ := hvalue
      exact ⟨e, .value htokens hi hj he⟩

theorem Line.bad_iff (hline : '\n' ∉ line) :
    Bad t line ↔ ∃ e, read (.ofType t) line = .error e := by
  by_cases hrow : isRow line = true
  · have hdecl := not_isDeclaration_of_isRow hrow
    simp only [Bad, hrow, hdecl, Bool.false_eq_true, true_and, false_and, or_false,
      read_of_isRow hrow, map_eq_error_iff, readRow, mapM_eq_error_iff, exists_firstError_iff]
    refine exists_congr fun c => and_congr_right fun _ => ?_
    unfold readInstruction
    cases Instruction.ofChar? c <;> simp
  by_cases hdecl : isDeclaration line = true
  · simp only [Bad, hrow, hdecl, Bool.false_eq_true, true_and, false_and, false_or,
      read_of_isDeclaration hdecl, map_eq_error_iff, Declaration.read_eq_error_iff hline,
      exists_declarationOffence_iff]
  · simp [Bad, hrow, hdecl, read_of_isComment hrow hdecl]

end MatrixStack
