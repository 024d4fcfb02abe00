/-
Programs that are written and loaded again.

`Program.write` writes lines as a text: a row as the characters of its instructions, and a
declaration as the numerals of its pointer and numbers.  No row that is written starts like a
declaration or a comment, no numeral has a blank in it, and no line has a line end in it, so the
text is cut into the lines that were written (`splitLines_write`) and every line is read as itself
(`Line.read_text`).  Hence both loaders give back what was written, in whatever order the two kinds
of lines stand (`load_write`, `build_write`).
-/
import MatrixStack.Proofs.Program.Acceptance
import MatrixStack.Proofs.Program.CommonLanguage
import MatrixStack.Proofs.Text.Decimal

namespace MatrixStack

open Outcome

/-! ## Written lines -/

/-- The numerals of a declaration, each after a blank. -/
def Declaration.numerals (d : Declaration) : List (List Char) :=
  (d.block.x :: d.block.y :: d.values.map Number.value).map fun v => (Decimal.text v).toList

def Declaration.text (d : Declaration) : List Char := 's' :: d.numerals.flatMap (' ' :: ·)

def Line.text : Line → List Char
  | .comment => ['#']
  | .declaration d => d.text
  | .row instructions => instructions.map Instruction.char

/-- The text of some lines, each ended by a newline. -/
def Program.write (ls : List Line) : String := String.ofList (ls.flatMap fun l => l.text ++ ['\n'])

/-! ## Tokens -/

namespace Tokens

/-- Words with a blank in front of each. -/
theorem words_flatMap {ws : List (List Char)} (h : ∀ w ∈ ws, IsWord w) :
    words (ws.flatMap (' ' :: ·)) = ws := by
  induction ws with
  | nil => rfl
  | cons w ws ih =>
    obtain ⟨hw, hws⟩ := List.forall_mem_cons.mp h
    have hrest : Text.StartsIn Text.isBlank (ws.flatMap (' ' :: ·)) := by
      cases ws with
      | nil => exact Text.startsIn_nil _
      | cons v ws => exact Text.startsIn_cons (by decide) _
    rw [List.flatMap_cons, List.cons_append, words_blank_cons (by decide),
      words_word_append hw hrest, ih hws]

end Tokens

/-! ## Written characters -/

theorem Instruction.char_ne {c : Char} (h : ofChar? c = none) (i : Instruction) : i.char ≠ c := by
  rintro rfl
  cases h.symm.trans (ofChar?_char i)

theorem Declaration.mem_text {d : Declaration} {c : Char} (h : c ∈ d.text) :
    c ∈ ['s', ' ', '-'] ∨ c.isDigit = true := by
  rcases List.mem_cons.mp h with rfl | hrest
  · exact .inl (by decide)
  obtain ⟨word, hword, hc⟩ := List.mem_flatMap.mp hrest
  obtain ⟨v, -, rfl⟩ := List.mem_map.mp hword
  rcases List.mem_cons.mp hc with rfl | hnumeral
  · exact .inl (by decide)
  rcases Decimal.mem_text hnumeral with rfl | hdigit
  · exact .inl (by decide)
  · exact .inr hdigit

theorem Declaration.not_mem_text {c : Char} (hc : c ∉ ['s', ' ', '-']) (hdigit : c.isDigit = false)
    (d : Declaration) : c ∉ d.text := by
  intro hmem
  rcases mem_text hmem with h | h
  · exact hc h
  · exact Bool.false_ne_true (hdigit.symm.trans h)

/-- No line end is written in a line. -/
theorem Line.not_mem_text {c : Char} (hc : c = '\n' ∨ c = '\r') (l : Line) : c ∉ l.text := by
  cases l with
  | comment => rcases hc with rfl | rfl <;> decide
  | declaration d =>
    rcases hc with rfl | rfl
    · exact d.not_mem_text (by decide) rfl
    · exact d.not_mem_text (by decide) rfl
  | row instructions =>
    intro hmem
    obtain ⟨i, -, hi⟩ := List.mem_map.mp hmem
    rcases hc with rfl | rfl
    · exact Instruction.char_ne rfl i hi
    · exact Instruction.char_ne rfl i hi

/-! ## Reading what is written -/

open Literal

variable {t : NumberType} {l : Line}

/-- Every number of the declaration belongs to the type, and every numeral can be read. -/
structure Declaration.Writable (t : NumberType) (d : Declaration) : Prop where
  x : Literal.Writable t d.block.x
  y : Literal.Writable t d.block.y
  values : ∀ v ∈ d.values, v.type = t ∧ Literal.Writable t v.value

theorem Literal.Writable.denotes {v : Int} (h : Literal.Writable t v) :
    Denotes t (Decimal.text v) v :=
  ⟨Decimal.read_text h.printable, h.1⟩

theorem Declaration.tokens_text (d : Declaration) : Line.tokens d.text =
    Decimal.text d.block.x :: Decimal.text d.block.y ::
      d.values.map fun v => Decimal.text v.value := by
  have hcomment : Tokens.beforeComment d.text.tail = d.text.tail := by
    refine List.takeWhile_eq_self_iff.mpr fun c hc => decide_eq_true ?_
    rintro rfl
    exact d.not_mem_text (by decide) rfl (List.mem_of_mem_tail hc)
  have hwords : ∀ w ∈ d.numerals, Tokens.IsWord w := by
    intro w hw
    obtain ⟨v, -, rfl⟩ := List.mem_map.mp hw
    exact ⟨Decimal.toList_text_ne_nil v, fun c hc => Decimal.isBlank_of_mem_text hc⟩
  rw [Line.tokens, hcomment, text, List.tail_cons, Tokens.words_flatMap hwords, numerals,
    List.map_map]
  simp only [Function.comp_def, String.ofList_toList, List.map_cons, List.map_map]

theorem Declaration.read_text {d : Declaration} (h : d.Writable t) (hx : 0 ≤ d.block.x)
    (hy : 0 ≤ d.block.y) : Declaration.read (.ofType t) d.text = .ok d := by
  have hline : '\n' ∉ d.text := d.not_mem_text (by decide) rfl
  refine (Declaration.read_eq_ok_iff hline).mpr ⟨_, _, _, d.tokens_text, ?_, ?_, ?_⟩
  · exact ⟨h.x.denotes, hx⟩
  · exact ⟨h.y.denotes, hy⟩
  · rw [List.mapM_map, mapM_eq_ok_iff, List.forall₂_same]
    intro v hv
    obtain ⟨htype, hvalue⟩ := h.values v hv
    show (Converters.ofType t).readNumber (Decimal.text v.value) = .ok v
    rw [Converters.readNumber_eq_ok_iff, Converters.number_ofType_eq_ok_iff,
      Literal.read_text hvalue, ← htype]

theorem Line.read_row (conv : Converters) (row : List Instruction) :
    Line.read conv (row.map Instruction.char) = .ok (.row row) := by
  have hrow : isRow (row.map Instruction.char) = true := by
    cases row with
    | nil => rfl
    | cons i rest =>
      refine decide_eq_true ⟨?_, ?_⟩
      · exact mt Option.some.inj (Instruction.char_ne rfl i)
      · exact mt Option.some.inj (Instruction.char_ne rfl i)
  have hchars : rowChars (row.map Instruction.char) = row.map Instruction.char := by
    refine List.takeWhile_eq_self_iff.mpr fun c hc => ?_
    obtain ⟨i, -, rfl⟩ := List.mem_map.mp hc
    exact decide_eq_true (Instruction.char_ne rfl i)
  rw [read_of_isRow hrow, readRow, hchars]
  refine map_eq_ok_iff.mpr ⟨row, ?_, rfl⟩
  rw [List.mapM_map, mapM_eq_ok_iff, List.forall₂_same]
  exact fun i _ => readInstruction_eq_ok_iff.mpr (Instruction.ofChar?_char i)

theorem Line.read_text {conv : Converters}
    (h : ∀ d, l.declaration? = some d → Declaration.read conv d.text = .ok d) :
    Line.read conv l.text = .ok l := by
  cases l with
  | comment => rfl
  | declaration d =>
    have hdecl : isDeclaration d.text = true := rfl
    show Line.read conv d.text = _
    rw [read_of_isDeclaration hdecl, h d rfl]
    rfl
  | row instructions => exact read_row conv instructions

namespace Program

variable {ls : List Line} {layout : Layout}

/-- The lines have the rows and the declarations of the layout, each kind in its order. -/
structure Interleaves (layout : Layout) (ls : List Line) : Prop where
  rows : ls.filterMap Line.row? = layout.rows
  declarations : ls.filterMap Line.declaration? = layout.declarations

/-- Every declaration can be written, and is for a block of the grid that the rows make. -/
def Layout.Writable (t : NumberType) (layout : Layout) : Prop :=
  ∀ d ∈ layout.declarations,
    d.Writable t ∧ (extentOf layout.rows).blocks.contains d.block = true

theorem splitLines_write (ls : List Line) :
    Text.splitLines (write ls).toList = ls.map Line.text := by
  rw [write, String.toList_ofList]
  induction ls with
  | nil => rfl
  | cons l ls ih =>
    have hreturn : '\r' ∉ l.text := l.not_mem_text (.inr rfl)
    rw [List.flatMap_cons, List.append_assoc, List.singleton_append,
      Text.splitLines_append_newline (l.not_mem_text (.inl rfl)), ih,
      Text.dropReturn_of_not_mem hreturn, List.map_cons]

theorem read_write (h : Interleaves layout ls) (hwritable : layout.Writable t) :
    Layout.read (.ofType t) (Text.splitLines (write ls).toList) = .ok layout := by
  have hline : ∀ l ∈ ls, Line.read (.ofType t) l.text = .ok l := by
    refine fun l hl => Line.read_text fun d hd => ?_
    have hmem : d ∈ layout.declarations := h.declarations ▸ List.mem_filterMap.mpr ⟨l, hl, hd⟩
    obtain ⟨hd, hblock⟩ := hwritable d hmem
    obtain ⟨hx, -, hy, -⟩ := Extent.contains_iff.mp hblock
    exact Declaration.read_text hd hx hy
  have hmapM : (ls.map Line.text).mapM (Line.read (.ofType t)) = .ok ls := by
    rw [List.mapM_map, mapM_eq_ok_iff, List.forall₂_same]
    exact hline
  rw [splitLines_write]
  refine bind_eq_ok_iff.mpr ⟨ls, hmapM, ?_⟩
  rw [h.rows, h.declarations]
  rfl

theorem load_write (h : Interleaves layout ls) (hwritable : layout.Writable t) :
    ∃ m, load (.ofType t) t (write ls) = .ok m ∧
      StartsWith layout (extentOf layout.rows) id t m := by
  have hreturn : ∀ line ∈ Text.splitLines (write ls).toList, line.getLast? ≠ some '\r' := by
    rw [splitLines_write]
    intro line hline hlast
    obtain ⟨l, -, rfl⟩ := List.mem_map.mp hline
    exact l.not_mem_text (.inr rfl) (List.mem_of_getLast? hlast)
  have hexists : ∃ m, ofLayout t layout = .ok m := by
    refine exists_ofLayout_iff.mpr fun d hd => ?_
    rw [extent_gridOf]
    exact (hwritable d hd).2
  obtain ⟨m, hm⟩ := hexists
  obtain ⟨hlaid, hgrid⟩ := laidOut_of_ofLayout hm
  refine ⟨m, ?_, hlaid.startsWith ?_ fun b _ => ?_⟩
  · rw [load_of_no_return hreturn, read_write h hwritable, ok_bind, hm]
  · rw [hgrid, extent_gridOf]
  · rw [Stack.empty, Stack.items_pushAll_growable]
    rfl

theorem build_write {f : Frame} (h : Interleaves layout ls) (hwritable : layout.Writable t)
    (hw : (extentOf layout.rows).width ≤ f.extent.width)
    (hh : (extentOf layout.rows).height ≤ f.extent.height)
    (hfits : ∀ b, (extentOf layout.rows).blocks.contains b = true →
      ((valuesAt layout.declarations b).length : Int) ≤ f.capacity)
    (hcapacity : (∃ b, f.extent.blocks.contains b = true) → 1 ≤ f.capacity) :
    ∃ m, build (.ofType t) t f (write ls) = .ok m ∧ StartsWith layout f.extent id t m := by
  have hread := read_write h hwritable
  have hblocks : ∀ d ∈ layout.declarations,
      (extentOf layout.rows).blocks.contains d.block = true := fun d hd => (hwritable d hd).2
  have hbuild : ∃ m, build (.ofType t) t f (write ls) = .ok m :=
    exists_build hread (Frame.fits_of_extentOf hw hh hcapacity hblocks)
  obtain ⟨m, hm⟩ := hbuild
  obtain ⟨layout', hread', -, hlaid, hextent⟩ := laidOut_of_build hm
  obtain rfl : layout = layout' := Except.ok.inj (hread.symm.trans hread')
  refine ⟨m, hm, hlaid.startsWith hextent fun b hb => ?_⟩
  have hpos := hcapacity ⟨b, hb⟩
  rw [Stack.items_pushAll_ring (by omega)]
  by_cases hin : (extentOf layout.rows).blocks.contains b = true
  · have hlen := hfits b hin
    rw [Nat.sub_eq_zero_of_le (by omega), List.drop_zero]
    rfl
  · -- A stack outside the grid that the rows make has no declaration.
    have hnil : valuesAt layout.declarations b = [] := by
      refine valuesAt_eq_nil fun d hd hblock => hin ?_
      rw [← hblock]
      exact hblocks d hd
    rw [hnil]
    exact List.drop_nil

/-- Rows and declarations that are written in any interleaving are loaded as they were written, and
built as such on every grid and with all stacks that are large enough. -/
theorem loading_undoes_writing (t : NumberType) (layout : Layout) (hwritable : layout.Writable t)
    (ls : List Line) (hls : Interleaves layout ls) :
    (∃ m, load (.ofType t) t (write ls) = .ok m ∧
      StartsWith layout (extentOf layout.rows) id t m) ∧
    ∀ f : Frame, (extentOf layout.rows).width ≤ f.extent.width →
      (extentOf layout.rows).height ≤ f.extent.height →
      (∀ b, (extentOf layout.rows).blocks.contains b = true →
        ((valuesAt layout.declarations b).length : Int) ≤ f.capacity) →
      ((∃ b, f.extent.blocks.contains b = true) → 1 ≤ f.capacity) →
      ∃ m, build (.ofType t) t f (write ls) = .ok m ∧ StartsWith layout f.extent id t m :=
  ⟨load_write hls hwritable, fun _ hw hh hfits hcapacity =>
    build_write hls hwritable hw hh hfits hcapacity⟩

theorem loading_undoes_writing_between_rows :
    let byte := NumberType.signed .bits8
    let layout : Layout := ⟨[[.operator .pop, .exchange .print], []],
      [⟨⟨0, 0⟩, [⟨byte, -7⟩, ⟨byte, 5⟩]⟩, ⟨⟨0, 0⟩, [⟨byte, 9⟩]⟩]⟩
    let ls : List Line := [.declaration ⟨⟨0, 0⟩, [⟨byte, -7⟩, ⟨byte, 5⟩]⟩,
      .row [.operator .pop, .exchange .print], .declaration ⟨⟨0, 0⟩, [⟨byte, 9⟩]⟩, .row []]
    let f : Frame := ⟨⟨5, 2⟩, 3⟩
    layout.Writable byte ∧ Interleaves layout ls ∧ write ls = "s 0 0 -7 5\n.p\ns 0 0 9\n\n" ∧
      (∃ m, load (.ofType byte) byte (write ls) = .ok m ∧
        StartsWith layout ⟨2, 2⟩ id byte m) ∧
      ∃ m, build (.ofType byte) byte f (write ls) = .ok m ∧ StartsWith layout ⟨5, 2⟩ id byte m := by
  intro byte layout ls f
  have hwritable : layout.Writable byte := by
    intro d hd
    have hchecked : ∀ d ∈ layout.declarations, Literal.Writable byte d.block.x ∧
        Literal.Writable byte d.block.y ∧
        (∀ v ∈ d.values, v.type = byte ∧ Literal.Writable byte v.value) ∧
        (extentOf layout.rows).blocks.contains d.block = true := by decide
    obtain ⟨hx, hy, hvalues, hblock⟩ := hchecked d hd
    exact ⟨⟨hx, hy, hvalues⟩, hblock⟩
  have hls : Interleaves layout ls := ⟨rfl, rfl⟩
  have hfits : ∀ b ∈ (extentOf layout.rows).blocks.pointers,
      ((valuesAt layout.declarations b).length : Int) ≤ f.capacity := by decide
  obtain ⟨hload, hbuild⟩ := loading_undoes_writing byte layout hwritable ls hls
  refine ⟨hwritable, hls, by decide, hload, hbuild f (by decide) (by decide) (fun b hb => ?_) ?_⟩
  · exact hfits b (Extent.mem_pointers_iff.mpr hb)
  · exact fun _ => by decide

/-- Stacks without room for a number are refused, even if nothing is declared for them. -/
theorem written_program_not_built_without_capacity :
    let layout : Layout := ⟨[[.exchange .print]], []⟩
    let ls : List Line := [.row [.exchange .print]]
    let f : Frame := ⟨⟨1, 1⟩, 0⟩
    layout.Writable .unbounded ∧ Interleaves layout ls ∧ extentOf layout.rows = f.extent ∧
      (∀ b, ((valuesAt layout.declarations b).length : Int) ≤ f.capacity) ∧
      build (.ofType .unbounded) .unbounded f (write ls) = .error (.noCapacity ⟨0⟩) := by
  intro layout ls f
  refine ⟨fun d hd => absurd hd List.not_mem_nil, ⟨rfl, rfl⟩, by decide, fun b => ?_, by decide⟩
  exact Int.le_refl 0

end Program
end MatrixStack
