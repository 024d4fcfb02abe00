/-
A stream of text that is read line by line.

The bytes of a stream come in chunks, and a chunk is decoded as a whole once a line is asked for that
the chunks before it do not complete.  A byte that breaks UTF-8 therefore fails the read that needs
its chunk: the lines that are complete before that chunk are read first, and no line of the chunk is
read at all.  A sequence that is cut off by the end of a chunk goes on in the next one; at the end of
the stream it is found to be broken.

How a stream is cut into chunks is up to the system.  `ofChunks` takes any chunks, and `ofBytes` those
of a file, which all have one size but for the last.
-/
import MatrixStack.Text.Line
import MatrixStack.Text.Utf8

namespace MatrixStack

/-- The lines still to be read, each with its newline, and the fault that a read past them meets;
without a fault, the stream has ended there. -/
structure Stream where
  lines : List (List Char)
  ending : Option Utf8.Fault
  deriving DecidableEq

namespace Stream

/-- The first two bytes of a sequence for a surrogate, which no complete sequence continues. -/
def halfSurrogate : List UInt8 → Bool
  | [0xED, b] => 0xA0 ≤ b && b ≤ 0xBF
  | _ => false

/-- The bytes after the fault's start are a sequence that might have gone on past the end. -/
def cutOff (bytes : List UInt8) (f : Utf8.Fault) : Bool :=
  f.reason = .unexpectedEnd || halfSurrogate (bytes.drop f.start)

/-- What chunks are decoded to, up to the first that cannot be decoded, where `begun` is a sequence
that the chunk before has cut off. -/
def decodeChunks (begun : List UInt8) : List (List UInt8) → Utf8.Decoded
  | [] => Utf8.decode begun
  | chunk :: rest =>
    let bytes := begun ++ chunk
    let decoded := Utf8.decode bytes
    match decoded.fault with
    | none => (decodeChunks [] rest).after decoded.chars
    | some f =>
      if cutOff bytes f then (decodeChunks (bytes.drop f.start) rest).after decoded.chars
      else ⟨[], some f⟩

/-- The lines of a text that have their newline; a carriage return at the very end is not yet
one, since a newline might have followed. -/
def completeLines (chars : List Char) : List (List Char) :=
  (Text.keepNewlines (Text.unifyNewlines (Text.dropReturn chars))).filter fun line =>
    line.getLast? = some '\n'

def ofDecoded (decoded : Utf8.Decoded) : Stream :=
  match decoded.fault with
  | none => ⟨Text.keepNewlines (Text.unifyNewlines decoded.chars), none⟩
  | some f => ⟨completeLines decoded.chars, some f⟩

/-- The stream of bytes that come in chunks. -/
def ofChunks (chunks : List (List UInt8)) : Stream := ofDecoded (decodeChunks [] chunks)

/-- The greatest size of a chunk. -/
def chunkSize : Nat := 8192

/-- `chunks` with the chunk begun, its latest byte first, and the number of bytes it has room for. -/
def chunksFrom (begun : List UInt8) (room : Nat) : List UInt8 → List (List UInt8)
  | [] => [begun.reverse]
  | b :: rest =>
    if room = 0 then begun.reverse :: chunksFrom [b] (chunkSize - 1) rest
    else chunksFrom (b :: begun) (room - 1) rest

/-- The bytes of a file, cut into chunks that are as large as possible. -/
def chunks (bytes : List UInt8) : List (List UInt8) := chunksFrom [] chunkSize bytes

def ofBytes (bytes : List UInt8) : Stream := ofChunks (chunks bytes)

/-- The next line, which is empty at the end of the stream. -/
def read (s : Stream) : Except Utf8.Fault (List Char) × Stream :=
  match s.lines with
  | line :: rest => (.ok line, { s with lines := rest })
  | [] =>
    match s.ending with
    | none => (.ok [], s)
    | some f => (.error f, s)

end Stream
end MatrixStack
