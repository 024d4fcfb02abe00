/-
Streams that come in chunks.

What a reader of UTF-8 holds after some bytes is `Progress`: the characters so far and the sequence
that is begun.  It passes from byte to byte, so bytes that come in two parts are read as if they came
at once, and a sequence that the end of a part cuts off is read again from its own bytes
(`exists_eq_append_of_begun`).  Hence chunks are decoded to what all their bytes are decoded to, as
long as these are UTF-8, and are decoded without a fault only then, however the bytes are cut
(`decodeChunks_of_after`, `exists_after_of_decodeChunks`).
-/
import Mathlib.Data.List.Induction
import MatrixStack.Terminal.Stream

namespace MatrixStack
namespace Utf8

/-! ## Reading byte by byte -/

theorem Sequence.bytes_of_begin? {b : UInt8} {s : Sequence} (h : begin? b = some s) :
    s.bytes = [b] := by
  unfold begin? at h
  grind

/-- What a reader has read: characters, and a sequence that is not complete. -/
structure Progress where
  chars : List Char
  begun : Option Sequence

namespace Progress

def start : Progress := ⟨[], none⟩

/-- One more byte, unless it may not follow. -/
def next? (p : Progress) (b : UInt8) : Option Progress :=
  match p.begun with
  | none =>
    if b.toNat < 0x80 then some ⟨p.chars ++ [Char.ofNat b.toNat], none⟩
    else (Sequence.begin? b).map fun s => ⟨p.chars, some s⟩
  | some s =>
    if s.least ≤ b ∧ b ≤ s.greatest then
      let s := s.extend b
      if s.missing = 0 then some ⟨p.chars ++ [Char.ofNat s.value], none⟩
      else some ⟨p.chars, some s⟩
    else none

def after? (p : Progress) (bytes : List UInt8) : Option Progress := bytes.foldlM next? p

/-- What it means to end here, the place of the next byte given. -/
def decoded (p : Progress) (place : Nat) : Decoded :=
  ⟨p.chars, p.begun.map fun s => ⟨.unexpectedEnd, place - s.bytes.length, s.bytes.reverse⟩⟩

/-- The same behind more characters. -/
def behind (chars : List Char) (p : Progress) : Progress := { p with chars := chars ++ p.chars }

variable {p q : Progress} {bytes more : List UInt8} {b : UInt8}

theorem after?_cons : p.after? (b :: bytes) = p.next? b >>= fun q => q.after? bytes :=
  List.foldlM_cons

theorem after?_append : p.after? (bytes ++ more) = p.after? bytes >>= fun q => q.after? more :=
  List.foldlM_append

theorem after?_concat : p.after? (bytes ++ [b]) = p.after? bytes >>= fun q => q.next? b := by
  rw [after?_append]
  congr 1
  funext q
  rw [after?_cons]
  exact bind_pure _

theorem next?_behind (chars : List Char) (p : Progress) (b : UInt8) :
    (p.behind chars).next? b = (p.next? b).map (behind chars) := by
  obtain ⟨read, begun⟩ := p
  cases begun with
  | none =>
    simp only [next?, behind, List.append_assoc]
    split
    · rfl
    · rw [Option.map_map]
      rfl
  | some s =>
    simp only [next?, behind, List.append_assoc]
    split
    · split <;> rfl
    · rfl

theorem after?_behind (chars : List Char) (p : Progress) (bytes : List UInt8) :
    (p.behind chars).after? bytes = (p.after? bytes).map (behind chars) := by
  induction bytes generalizing p with
  | nil => rfl
  | cons b bytes ih =>
    rw [after?_cons, after?_cons, next?_behind]
    cases p.next? b with
    | none => rfl
    | some q => exact ih q

/-- What follows is read as if the characters before it were not there. -/
theorem after?_append_of_after {chars : List Char} {begun : Option Sequence}
    (h : start.after? bytes = some ⟨chars, begun⟩) :
    start.after? (bytes ++ more) = ((mk [] begun).after? more).map (behind chars) := by
  rw [after?_append, h, ← after?_behind]
  simp [behind]

/-- A sequence is begun by its own bytes, the last ones that were read. -/
theorem exists_eq_append_of_begun {s : Sequence} (h : start.after? bytes = some p)
    (hs : p.begun = some s) :
    (∃ before, bytes = before ++ s.bytes.reverse) ∧
      start.after? s.bytes.reverse = some ⟨[], some s⟩ := by
  induction bytes using List.reverseRecOn generalizing p s with
  | nil =>
    cases h
    cases hs
  | append_singleton bytes b ih =>
    rw [after?_concat] at h
    obtain ⟨q, hq, hb⟩ := Option.bind_eq_some_iff.mp h
    cases hbegun : q.begun with
    | none =>
      simp only [next?, hbegun] at hb
      split at hb
      case isTrue =>
        cases hb
        cases hs
      case isFalse hhigh =>
        obtain ⟨s', hbegin, rfl⟩ := Option.map_eq_some_iff.mp hb
        cases hs
        have hbytes : s.bytes.reverse = [b] := by rw [Sequence.bytes_of_begin? hbegin]; rfl
        rw [hbytes]
        refine ⟨⟨bytes, rfl⟩, ?_⟩
        rw [after?_cons, next?, start, if_neg hhigh, hbegin]
        rfl
    | some s' =>
      obtain ⟨⟨before, rfl⟩, hbefore⟩ := ih hq hbegun
      simp only [next?, hbegun] at hb
      split at hb
      case isFalse => cases hb
      case isTrue hrange =>
        split at hb
        case isTrue =>
          cases hb
          cases hs
        case isFalse hmissing =>
          cases hb
          cases hs
          have hbytes : (s'.extend b).bytes.reverse = s'.bytes.reverse ++ [b] :=
            List.reverse_cons
          rw [hbytes]
          refine ⟨⟨before, List.append_assoc _ _ _⟩, ?_⟩
          rw [after?_concat, hbefore]
          simp [next?, hrange, hmissing]

end Progress

/-! ## Decoding -/

variable {p q : Progress} {bytes rest : List UInt8} {b : UInt8}

/-- A byte that may follow is read, and the rest as from what is then held. -/
theorem decodeFrom_cons_of_next {place : Nat} (h : p.next? b = some q) :
    decodeFrom place p.begun p.chars.reverse (b :: rest) =
      decodeFrom (place + 1) q.begun q.chars.reverse rest := by
  obtain ⟨read, begun⟩ := p
  unfold Progress.next? at h
  cases begun with
  | none =>
    simp only at h
    simp only [decodeFrom]
    split at h
    case isTrue hlow =>
      cases h
      rw [if_pos hlow, List.reverse_concat]
    case isFalse hlow =>
      obtain ⟨s, hbegin, rfl⟩ := Option.map_eq_some_iff.mp h
      rw [if_neg hlow, hbegin]
  | some s =>
    simp only at h
    simp only [decodeFrom]
    split at h
    case isFalse => cases h
    case isTrue hrange =>
      rw [if_pos hrange]
      split at h
      case isTrue hmissing =>
        cases h
        rw [if_pos hmissing, List.reverse_concat]
      case isFalse hmissing =>
        cases h
        rw [if_neg hmissing]

/-- A byte that may not follow is a fault, and not that of an early end. -/
theorem fault_decodeFrom_cons_of_next {place : Nat} (h : p.next? b = none) :
    ∃ f, (decodeFrom place p.begun p.chars.reverse (b :: rest)).fault = some f ∧
      f.reason ≠ .unexpectedEnd := by
  obtain ⟨read, begun⟩ := p
  unfold Progress.next? at h
  cases begun with
  | none =>
    simp only at h
    simp only [decodeFrom]
    split at h
    case isTrue => cases h
    case isFalse hlow =>
      rw [if_neg hlow, Option.map_eq_none_iff.mp h]
      exact ⟨_, rfl, nofun⟩
  | some s =>
    simp only at h
    simp only [decodeFrom]
    split at h
    case isTrue => split at h <;> cases h
    case isFalse hrange =>
      rw [if_neg hrange]
      exact ⟨_, rfl, nofun⟩

theorem decodeFrom_of_after (h : p.after? bytes = some q) (place : Nat) :
    decodeFrom place p.begun p.chars.reverse bytes = q.decoded (place + bytes.length) := by
  induction bytes generalizing place p with
  | nil =>
    cases h
    cases hbegun : q.begun <;> simp [decodeFrom, Progress.decoded, hbegun]
  | cons b bytes ih =>
    rw [Progress.after?_cons] at h
    obtain ⟨r, hr, hrest⟩ := Option.bind_eq_some_iff.mp h
    rw [decodeFrom_cons_of_next hr, ih hrest, List.length_cons, Nat.add_assoc, Nat.add_comm 1]

theorem fault_decodeFrom_of_after (h : p.after? bytes = none) (place : Nat) :
    ∃ f, (decodeFrom place p.begun p.chars.reverse bytes).fault = some f ∧
      f.reason ≠ .unexpectedEnd := by
  induction bytes generalizing place p with
  | nil => cases h
  | cons b bytes ih =>
    rw [Progress.after?_cons] at h
    cases hr : p.next? b with
    | none => exact fault_decodeFrom_cons_of_next hr
    | some r =>
      rw [hr] at h
      rw [decodeFrom_cons_of_next hr]
      exact ih h _

theorem decode_of_after (h : Progress.start.after? bytes = some p) :
    decode bytes = p.decoded bytes.length := by
  have hdecode := decodeFrom_of_after h 0
  rw [Nat.zero_add] at hdecode
  exact hdecode

theorem fault_decode_of_after (h : Progress.start.after? bytes = none) :
    ∃ f, (decode bytes).fault = some f ∧ f.reason ≠ .unexpectedEnd :=
  fault_decodeFrom_of_after h 0

/-- Bytes are UTF-8 if they can be read and end inside no sequence. -/
theorem fault_decode_eq_none_iff :
    (decode bytes).fault = none ↔ ∃ chars, Progress.start.after? bytes = some ⟨chars, none⟩ := by
  constructor
  · intro h
    cases hp : Progress.start.after? bytes with
    | none =>
      obtain ⟨f, hf, -⟩ := fault_decode_of_after hp
      exact absurd (hf.symm.trans h) nofun
    | some p =>
      rw [decode_of_after hp] at h
      obtain ⟨chars, begun⟩ := p
      obtain rfl := Option.map_eq_none_iff.mp h
      exact ⟨chars, rfl⟩
  · rintro ⟨chars, hp⟩
    rw [decode_of_after hp]
    rfl

end Utf8

namespace Stream

open Utf8 (Progress)

variable {begun bytes : List UInt8} {chunks : List (List UInt8)} {line : List Char}

/-! ## Chunks -/

theorem after?_of_halfSurrogate (h : halfSurrogate bytes = true) :
    Progress.start.after? bytes = none := by
  unfold halfSurrogate at h
  split at h
  case h_1 b =>
    -- Only a byte up to 0x9F continues the first one.
    have hb : ¬b ≤ 0x9F := by
      have hleast : (0xA0 : UInt8).toNat = 160 := rfl
      have hgreatest : (0x9F : UInt8).toNat = 159 := rfl
      simp only [Bool.and_eq_true, decide_eq_true_eq, UInt8.le_iff_toNat_le] at h ⊢
      omega
    simp [Progress.after?, Progress.next?, Progress.start, Utf8.Sequence.begin?, hb]
  case h_2 => cases h

/-- A chunk either fails, for bytes that cannot be read, or leaves the bytes of a sequence to the
chunks behind it. -/
theorem decodeChunks_cons (begun chunk : List UInt8) (rest : List (List UInt8)) :
    (∃ f, decodeChunks begun (chunk :: rest) = ⟨[], some f⟩ ∧
      Progress.start.after? (begun ++ chunk) = none) ∨
    ∃ cut chars, decodeChunks begun (chunk :: rest) = (decodeChunks cut rest).after chars ∧
      ∀ more, Progress.start.after? (begun ++ chunk ++ more) =
        (Progress.start.after? (cut ++ more)).map (Progress.behind chars) := by
  cases hread : Progress.start.after? (begun ++ chunk) with
  | none =>
    obtain ⟨f, hf, hreason⟩ := Utf8.fault_decode_of_after hread
    have hcut : cutOff (begun ++ chunk) f = halfSurrogate ((begun ++ chunk).drop f.start) := by
      rw [cutOff, decide_eq_false hreason, Bool.false_or]
    simp only [decodeChunks, hf, hcut]
    by_cases hhalf : halfSurrogate ((begun ++ chunk).drop f.start) = true
    · rw [if_pos hhalf]
      refine .inr ⟨_, _, rfl, fun more => ?_⟩
      rw [Progress.after?_append, hread, Progress.after?_append, after?_of_halfSurrogate hhalf]
      rfl
    · rw [if_neg hhalf]
      exact .inl ⟨f, rfl, trivial⟩
  | some p =>
    right
    obtain ⟨chars, pending⟩ := p
    have hdecode := Utf8.decode_of_after hread
    cases pending with
    | none =>
      refine ⟨[], chars, ?_, fun more => Progress.after?_append_of_after hread⟩
      simp only [decodeChunks, hdecode, Progress.decoded, Option.map_none]
    | some s =>
      obtain ⟨⟨before, hbytes⟩, hbegun⟩ := Progress.exists_eq_append_of_begun hread rfl
      have hdrop : (begun ++ chunk).drop ((begun ++ chunk).length - s.bytes.length) =
          s.bytes.reverse := by
        rw [hbytes, List.length_append, List.length_reverse, Nat.add_sub_cancel,
          List.drop_left]
      refine ⟨s.bytes.reverse, chars, ?_, fun more => ?_⟩
      · simp only [decodeChunks, hdecode, Progress.decoded, Option.map_some, cutOff, hdrop,
          decide_true, Bool.true_or, if_true]
      · rw [Progress.after?_append_of_after hread, Progress.after?_append, hbegun]
        rfl

/-- Chunks that make up UTF-8 are decoded to its characters, wherever they are cut. -/
theorem decodeChunks_of_after {chars : List Char}
    (h : Progress.start.after? (begun ++ chunks.flatten) = some ⟨chars, none⟩) :
    decodeChunks begun chunks = ⟨chars, none⟩ := by
  induction chunks generalizing begun chars with
  | nil =>
    rw [List.flatten_nil, List.append_nil] at h
    rw [decodeChunks, Utf8.decode_of_after h]
    rfl
  | cons chunk rest ih =>
    rw [List.flatten_cons, ← List.append_assoc] at h
    rcases decodeChunks_cons begun chunk rest with ⟨f, -, hread⟩ | ⟨cut, read, hdecode, hread⟩
    · rw [Progress.after?_append, hread] at h
      cases h
    · rw [hread] at h
      obtain ⟨⟨more, pending⟩, hmore, hbehind⟩ := Option.map_eq_some_iff.mp h
      cases hbehind
      rw [hdecode, ih hmore]
      rfl

theorem exists_after_of_decodeChunks (h : (decodeChunks begun chunks).fault = none) :
    ∃ chars, Progress.start.after? (begun ++ chunks.flatten) = some ⟨chars, none⟩ := by
  induction chunks generalizing begun with
  | nil =>
    rw [List.flatten_nil, List.append_nil]
    exact Utf8.fault_decode_eq_none_iff.mp h
  | cons chunk rest ih =>
    rw [List.flatten_cons, ← List.append_assoc]
    rcases decodeChunks_cons begun chunk rest with ⟨f, hdecode, -⟩ | ⟨cut, read, hdecode, hread⟩
    · rw [hdecode] at h
      cases h
    · rw [hdecode] at h
      obtain ⟨chars, hchars⟩ := ih h
      rw [hread, hchars]
      exact ⟨_, rfl⟩

/-! ## Streams -/

theorem flatten_chunksFrom (begun : List UInt8) (room : Nat) (bytes : List UInt8) :
    (chunksFrom begun room bytes).flatten = begun.reverse ++ bytes := by
  induction bytes generalizing begun room with
  | nil => simp [chunksFrom]
  | cons b rest ih =>
    unfold chunksFrom
    split <;> simp [ih]

theorem flatten_chunks (bytes : List UInt8) : (Stream.chunks bytes).flatten = bytes :=
  flatten_chunksFrom [] chunkSize bytes

/-- A stream of UTF-8 has the lines of the text, whatever its chunks are. -/
theorem ofChunks_of_valid (h : (Utf8.decode chunks.flatten).fault = none) :
    ofChunks chunks =
      ⟨Text.keepNewlines (Text.unifyNewlines (Utf8.decode chunks.flatten).chars), none⟩ := by
  obtain ⟨chars, hread⟩ := Utf8.fault_decode_eq_none_iff.mp h
  rw [ofChunks, decodeChunks_of_after hread, Utf8.decode_of_after hread]
  rfl

theorem ending_ofChunks_eq_none_iff :
    (ofChunks chunks).ending = none ↔ (Utf8.decode chunks.flatten).fault = none := by
  constructor
  · intro h
    have hfault : (decodeChunks [] chunks).fault = none := by
      unfold ofChunks ofDecoded at h
      cases hfault : (decodeChunks [] chunks).fault with
      | none => rfl
      | some f =>
        rw [hfault] at h
        cases h
    exact Utf8.fault_decode_eq_none_iff.mpr (exists_after_of_decodeChunks hfault)
  · intro h
    rw [ofChunks_of_valid h]

/-- The lines of a stream are lines of a text. -/
theorem exists_text_of_mem_ofChunks (h : line ∈ (ofChunks chunks).lines) :
    ∃ text, line ∈ Text.keepNewlines text := by
  unfold ofChunks ofDecoded at h
  cases hfault : (decodeChunks [] chunks).fault with
  | none =>
    rw [hfault] at h
    exact ⟨_, h⟩
  | some f =>
    rw [hfault] at h
    exact ⟨_, (List.mem_filter.mp h).1⟩

end Stream
end MatrixStack
