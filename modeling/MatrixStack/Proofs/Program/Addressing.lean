/-
Declaring any stack of a program.

`addressing b` is the line that names the stack of a block and declares no number for it.  In front
of a program it changes nothing, provided that both coordinates are literals of the number type: the
coordinates of a declaration are read as numbers of the type before they become indices.  A stack
with a coordinate beyond the range of the type is out of reach of every declaration, however large
the grid is (`stacks_addressed_within_range`).
-/
import MatrixStack.Proofs.Program.Contents
import MatrixStack.Proofs.Program.Writing

namespace MatrixStack

variable {t : NumberType}

/-! ## Coordinates -/

theorem Literal.denotes_text_iff {v w : Int} :
    Denotes t (Decimal.text v) w ↔ Writable t v ∧ v = w := by
  rw [Denotes, Decimal.read_text_eq_ok_iff]
  constructor
  · rintro ⟨⟨hprintable, rfl⟩, hholds⟩
    exact ⟨⟨hholds, fun _ => hprintable⟩, rfl⟩
  · rintro ⟨hwritable, rfl⟩
    exact ⟨⟨hwritable.printable, rfl⟩, hwritable.1⟩

/-- The numeral of an index is a coordinate just when it is a literal of the type. -/
theorem Converters.readCoordinate_text {v : Int} (hv : 0 ≤ v) :
    (ofType t).readCoordinate (Decimal.text v) =
      if Literal.Writable t v then .ok v else .error (.invalidCoordinate (Decimal.text v)) := by
  split
  case isTrue h =>
    exact readCoordinate_ofType_eq_ok_iff.mpr ⟨Literal.denotes_text_iff.mpr ⟨h, rfl⟩, hv⟩
  case isFalse h =>
    refine readCoordinate_eq_error_iff.mpr ⟨fun i hi => ?_, rfl⟩
    exact h (Literal.denotes_text_iff.mp hi.1).1

namespace Program

variable {source : String} {m : Machine} {b : Pointer}

/-! ## A line for one stack -/

/-- The line that declares no number for the stack of a block. -/
def addressing (b : Pointer) : String :=
  "s " ++ Decimal.text b.x ++ " " ++ Decimal.text b.y ++ "\n"

theorem toList_addressing (b : Pointer) :
    (addressing b).toList = (Declaration.mk b []).text ++ ['\n'] := by
  simp [addressing, Declaration.text, Declaration.numerals]

theorem sourceLines_addressing (b : Pointer) (source : String) :
    sourceLines (addressing b ++ source) = (Declaration.mk b []).text :: sourceLines source := by
  have hnewline : '\n' ∉ (Declaration.mk b []).text := Declaration.not_mem_text (by decide) rfl _
  have hreturn : '\r' ∉ (Declaration.mk b []).text := Declaration.not_mem_text (by decide) rfl _
  rw [sourceLines, String.toList_append, toList_addressing, List.append_assoc,
    List.singleton_append, Text.splitLines_append_newline hnewline,
    Text.dropReturn_of_not_mem hreturn, List.map_cons, ← dropLineEnd_eq hnewline]
  congr 1
  exact Text.dropLineEnd_of_getLast? hnewline fun hlast => hreturn (List.mem_of_getLast? hlast)

theorem read_addressing (hx : 0 ≤ b.x) (hy : 0 ≤ b.y) :
    Line.read (.ofType t) (Declaration.mk b []).text =
      if Literal.Writable t b.x then
        if Literal.Writable t b.y then .ok (.declaration ⟨b, []⟩)
        else .error (.invalidCoordinate (Decimal.text b.y))
      else .error (.invalidCoordinate (Decimal.text b.x)) := by
  have hline : '\n' ∉ (Declaration.mk b []).text := Declaration.not_mem_text (by decide) rfl _
  rw [Line.read_of_isDeclaration rfl,
    Declaration.read_of_pointer hline (Declaration.mk b []).tokens_text,
    Converters.readCoordinate_text hx, Converters.readCoordinate_text hy]
  by_cases hxw : Literal.Writable t b.x
  · by_cases hyw : Literal.Writable t b.y
    · rw [if_pos hxw, if_pos hyw, if_pos hxw, if_pos hyw]
      rfl
    · rw [if_pos hxw, if_neg hyw, if_pos hxw, if_neg hyw]
      rfl
  · rw [if_neg hxw, if_neg hxw]
    rfl

/-! ## The line in front of a program -/

theorem Layout.read_cons_of_error {conv : Converters} {line : List Char} {e : LoadError}
    (h : Line.read conv line = .error e) (lines : List (List Char)) :
    Layout.read conv (line :: lines) = .error e := by
  rw [Layout.read, List.mapM_cons, h]
  rfl

theorem load_addressing_of_error {e : LoadError}
    (h : Line.read (.ofType t) (Declaration.mk b []).text = .error e) (source : String) :
    load (.ofType t) t (addressing b ++ source) = .error e := by
  rw [load_eq, sourceLines_addressing, Layout.read_cons_of_error h]
  rfl

/-- The machine stays the same: it has one declaration more, of no number. -/
theorem load_addressing_of_ok (hm : load (.ofType t) t source = .ok m)
    (hb : m.stackPlane.extent.contains b = true)
    (h : Line.read (.ofType t) (Declaration.mk b []).text = .ok (.declaration ⟨b, []⟩)) :
    load (.ofType t) t (addressing b ++ source) = .ok m := by
  rw [load_eq] at hm
  obtain ⟨layout, hread, hlayout⟩ := Outcome.bind_eq_ok_iff.mp hm
  obtain ⟨hlaid, hgrid⟩ := laidOut_of_ofLayout hlayout
  let layout' : Layout := ⟨layout.rows, ⟨b, []⟩ :: layout.declarations⟩
  have hread' : Layout.read (.ofType t) (sourceLines (addressing b ++ source)) = .ok layout' := by
    rw [sourceLines_addressing]
    exact Layout.read_cons_eq_ok_iff.mpr ⟨_, layout, h, hread, rfl⟩
  have hblocks := exists_ofLayout_iff.mp ⟨m, hlayout⟩
  have hexists : ∃ m', ofLayout t layout' = .ok m' := by
    refine exists_ofLayout_iff.mpr fun d hd => ?_
    rcases List.mem_cons.mp hd with rfl | hd
    · rw [hlaid.extent, hgrid] at hb
      exact hb
    · exact hblocks d hd
  obtain ⟨m', hm'⟩ := hexists
  have hrows : layout'.rows = layout.rows := rfl
  have hvalues (b' : Pointer) :
      valuesAt layout'.declarations b' = valuesAt layout.declarations b' := by
    rw [valuesAt_cons]
    split <;> rfl
  rw [load_eq, hread', Outcome.ok_bind, hm', ofLayout_congr hrows hvalues hlayout hm']

/-- A stack of a program can be declared, and the program stays the same, just when both of its
coordinates are literals of the number type.  Else the first coordinate that is none is refused. -/
theorem stacks_addressed_within_range (t : NumberType) (source : String) (m : Machine)
    (hm : load (.ofType t) t source = .ok m) (b : Pointer)
    (hb : m.stackPlane.extent.contains b = true) :
    (Literal.Writable t b.x → Literal.Writable t b.y →
      load (.ofType t) t (addressing b ++ source) = .ok m) ∧
    (¬Literal.Writable t b.x →
      load (.ofType t) t (addressing b ++ source) =
        .error (.invalidCoordinate (Decimal.text b.x))) ∧
    (Literal.Writable t b.x → ¬Literal.Writable t b.y →
      load (.ofType t) t (addressing b ++ source) =
        .error (.invalidCoordinate (Decimal.text b.y))) := by
  obtain ⟨hx, -, hy, -⟩ := Extent.contains_iff.mp hb
  have hread := read_addressing (t := t) hx hy
  refine ⟨fun hxw hyw => ?_, fun hxw => ?_, fun hxw hyw => ?_⟩
  · rw [if_pos hxw, if_pos hyw] at hread
    exact load_addressing_of_ok hm hb hread
  · rw [if_neg hxw] at hread
    exact load_addressing_of_error hread source
  · rw [if_pos hxw, if_neg hyw] at hread
    exact load_addressing_of_error hread source

theorem stacks_addressed_within_range_of_two_blocks :
    let byte := NumberType.signed .bits8
    ∃ m, load (.ofType byte) byte "s 0 0 5\n,   .p" = .ok m ∧
      m.stackPlane.extent.contains ⟨1, 0⟩ = true ∧
      addressing ⟨1, 0⟩ = "s 1 0\n" ∧
      load (.ofType byte) byte ("s 1 0\n" ++ "s 0 0 5\n,   .p") = .ok m := by
  intro byte
  have hload : (load (.ofType byte) byte "s 0 0 5\n,   .p").isOk = true := by decide
  obtain ⟨m, hm⟩ := Outcome.exists_of_isOk hload
  have hcheck : ∀ m ∈ (load (.ofType byte) byte "s 0 0 5\n,   .p").toOption,
      m.stackPlane.extent.contains ⟨1, 0⟩ = true := by decide
  rw [hm] at hcheck
  have hb := hcheck m rfl
  have haddressed := (stacks_addressed_within_range byte _ m hm ⟨1, 0⟩ hb).1
  have hline : addressing ⟨1, 0⟩ = "s 1 0\n" := by decide
  rw [hline] at haddressed
  exact ⟨m, hm, hb, hline, haddressed (by decide) (by decide)⟩

/-- The last block of a row of 513 cells has a stack of signed bytes that no literal names. -/
theorem stack_beyond_signed_bytes_not_addressed :
    let byte := NumberType.signed .bits8
    let source := write [.row (List.replicate 513 .blank)]
    ∃ m, load (.ofType byte) byte source = .ok m ∧
      m.stackPlane.extent.contains ⟨128, 0⟩ = true ∧
      load (.ofType byte) byte (addressing ⟨128, 0⟩ ++ source) =
        .error (.invalidCoordinate "128") := by
  intro byte source
  let layout : Layout := ⟨[List.replicate 513 .blank], []⟩
  have hwritable : layout.Writable byte := fun d hd => absurd hd List.not_mem_nil
  have hrow : Interleaves layout [.row (List.replicate 513 .blank)] := ⟨rfl, rfl⟩
  obtain ⟨m, hm, hstart⟩ := load_write hrow hwritable
  refine ⟨m, hm, ?_, load_addressing_of_error ?_ source⟩
  · rw [hstart.stackExtent]
    simp only [layout, extentOf, List.map_cons, List.map_nil, List.length_replicate]
    decide
  · rw [read_addressing (by decide) (by decide), if_neg (by decide)]
    rfl

end Program
end MatrixStack
