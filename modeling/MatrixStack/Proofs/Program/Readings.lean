/-
Ways of reading a program.

A program comes as a text, as lines that still have their newlines, or as bytes in a stream or in a
file.  The lines of a text lose their ends before they are read, so cutting it behind its newlines
or at them makes no difference (`ofLines_keepNewlines`).  A stream cuts the characters that a file
joins, whatever its chunks are (`ofStream_ofChunks`), and a text in which carriage returns stand before newlines only has the
same lines before the line ends are unified as after it (`load_unifyNewlines`).
-/
import MatrixStack.Proofs.Program.SourceLines
import MatrixStack.Proofs.Terminal.Chunks
import MatrixStack.Session

namespace MatrixStack
namespace Program

variable {conv : Converters} {type : NumberType} {bytes : List UInt8}

theorem ofLines_keepNewlines (conv : Converters) (type : NumberType) (text : List Char) :
    ofLines conv type (Text.keepNewlines text) = ofLines conv type (Text.splitLines text) := by
  unfold ofLines
  rw [Text.map_dropLineEnd_keepNewlines]

theorem load_unifyNewlines {text : List Char} (h : Text.ReturnsEndLines text) :
    load conv type (String.ofList (Text.unifyNewlines text)) =
      load conv type (String.ofList text) := by
  unfold load
  rw [String.toList_ofList, String.toList_ofList, Text.splitLines_unifyNewlines h]

/-! ## Bytes -/

theorem textOfBytes_of_valid (h : (Utf8.decode bytes).fault = none) (file : String) :
    textOfBytes file bytes =
      .ok (String.ofList (Text.unifyNewlines (Utf8.decode bytes).chars)) := by
  simp only [textOfBytes, h]

theorem ofStream_ofChunks {chunks : List (List UInt8)}
    (h : (Utf8.decode chunks.flatten).fault = none) (name : String) :
    ofStream conv type name (Stream.ofChunks chunks) =
      load conv type (String.ofList (Text.unifyNewlines (Utf8.decode chunks.flatten).chars)) := by
  rw [Stream.ofChunks_of_valid h, load, String.toList_ofList, ← ofLines_keepNewlines]
  rfl

theorem ofStream_ofBytes (h : (Utf8.decode bytes).fault = none) (name : String) :
    ofStream conv type name (Stream.ofBytes bytes) =
      load conv type (String.ofList (Text.unifyNewlines (Utf8.decode bytes).chars)) := by
  have hchunks := Stream.flatten_chunks bytes
  rw [Stream.ofBytes, ofStream_ofChunks (by rw [hchunks]; exact h), hchunks]

/-! ## Sessions -/

theorem machine_loadText (s : Session) (source name : String) :
    (s.loadText source name).map Session.machine =
      (load (.ofType s.numberType) s.numberType source).map some := by
  unfold Session.loadText
  cases load (.ofType s.numberType) s.numberType source with
  | error e => rfl
  | ok m => rfl

/-- A session that opens a file has the machine that the text of the file is loaded as. -/
theorem machine_loadFile {tree : FileTree} {file : String}
    (hread : tree.read (Path.ofString file) = .ok bytes) (s : Session) :
    (s.loadFile tree file).map Session.machine =
      ((textOfBytes (Path.ofString file).text bytes >>=
        load (.ofType s.numberType) s.numberType).map some).mapError OpenError.load := by
  have hopen : s.loadFile tree file =
      (textOfBytes (Path.ofString file).text bytes).mapError OpenError.load >>= fun source =>
        (s.loadText source (Path.ofString file).text).mapError OpenError.load := by
    rw [Session.loadFile, hread]
    rfl
  rw [hopen]
  cases textOfBytes (Path.ofString file).text bytes with
  | error e => rfl
  | ok source =>
    rw [Outcome.ok_bind, ← machine_loadText s source (Path.ofString file).text, Except.mapError,
      Outcome.ok_bind]
    cases s.loadText source (Path.ofString file).text with
    | error e => rfl
    | ok s' => rfl

/-- However a program is read, it becomes the same machine or fails with the same error. -/
theorem readings_agree (conv : Converters) (type : NumberType) :
    (∀ source : String,
      ofLines conv type (Text.keepNewlines source.toList) = load conv type source) ∧
    ∀ bytes, (Utf8.decode bytes).fault = none →
      (∀ name file, ofStream conv type name (Stream.ofBytes bytes) =
        textOfBytes file bytes >>= load conv type) ∧
      (Text.ReturnsEndLines (Utf8.decode bytes).chars → ∀ file,
        textOfBytes file bytes >>= load conv type =
          load conv type (String.ofList (Utf8.decode bytes).chars)) ∧
      ∀ (s : Session) (tree : FileTree) (file name : String),
        tree.read (Path.ofString file) = .ok bytes →
        (s.loadFile tree file).map Session.machine =
          ((ofStream (.ofType s.numberType) s.numberType name (Stream.ofBytes bytes)).map
            some).mapError OpenError.load := by
  refine ⟨fun source => ofLines_keepNewlines conv type source.toList, fun bytes hvalid => ?_⟩
  refine ⟨fun name file => ?_, fun hreturns file => ?_, fun s tree file name hread => ?_⟩
  · rw [ofStream_ofBytes hvalid, textOfBytes_of_valid hvalid, Outcome.ok_bind]
  · rw [textOfBytes_of_valid hvalid, Outcome.ok_bind]
    exact load_unifyNewlines hreturns
  · rw [machine_loadFile hread, ofStream_ofBytes hvalid, textOfBytes_of_valid hvalid,
      Outcome.ok_bind]

theorem readings_agree_with_returns :
    let byte := NumberType.signed .bits8
    let source := "s 0 0 7\r\n\r\n.p\r\n"
    let bytes := source.toList.map fun c => c.toNat.toUInt8
    let tree := FileTree.ofList [("a.msc", .file bytes)]
    let session := Session.start byte
    (Utf8.decode bytes).fault = none ∧ Text.ReturnsEndLines (Utf8.decode bytes).chars ∧
      tree.read (Path.ofString "a.msc") = .ok bytes ∧
      (load (.ofType byte) byte source).isOk = true ∧
      textOfBytes "a.msc" bytes >>= load (.ofType byte) byte = load (.ofType byte) byte source ∧
      (session.loadFile tree "a.msc").map Session.machine =
        ((ofStream (.ofType byte) byte "<stdin>" (Stream.ofBytes bytes)).map some).mapError
          OpenError.load := by
  intro byte source bytes tree session
  have hvalid : (Utf8.decode bytes).fault = none := by decide
  have hreturns : Text.ReturnsEndLines (Utf8.decode bytes).chars := by decide
  have hread : tree.read (Path.ofString "a.msc") = .ok bytes := by decide
  have hsource : String.ofList (Utf8.decode bytes).chars = source := by decide
  obtain ⟨-, hbytes⟩ := readings_agree (.ofType byte) byte
  obtain ⟨-, hfile, hsession⟩ := hbytes bytes hvalid
  have hload := hfile hreturns "a.msc"
  rw [hsource] at hload
  exact ⟨hvalid, hreturns, hread, by decide, hload, hsession session tree "a.msc" "<stdin>" hread⟩

end Program
end MatrixStack
