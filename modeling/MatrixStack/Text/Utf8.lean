/-
Reading bytes as UTF-8.

The reader goes from byte to byte with the sequence that is still incomplete, so it knows at every
place which bytes may follow.  The first byte that may not is a fault: a byte that starts no
sequence, a byte that does not continue the one begun, or the end inside a sequence.
`decode` keeps the characters read before the fault.
-/
namespace MatrixStack
namespace Utf8

inductive Reason where
  | invalidStart | invalidContinuation | unexpectedEnd
  deriving DecidableEq

def Reason.text : Reason → String
  | .invalidStart => "invalid start byte"
  | .invalidContinuation => "invalid continuation byte"
  | .unexpectedEnd => "unexpected end of data"

/-- A fault, with the bytes of the sequence that it breaks and the place where that begins. -/
structure Fault where
  reason : Reason
  start : Nat
  bytes : List UInt8
  deriving DecidableEq

def hexDigit (n : Nat) : Char := Nat.digitChar n

def hexByte (b : UInt8) : String :=
  String.ofList [hexDigit (b.toNat / 16), hexDigit (b.toNat % 16)]

def Fault.message (f : Fault) : String :=
  let place := match f.bytes with
    | [b] => "byte 0x" ++ hexByte b ++ " in position " ++ f.start.repr
    | bytes => "bytes in position " ++ f.start.repr ++ "-" ++ (f.start + bytes.length - 1).repr
  "'utf-8' codec can't decode " ++ place ++ ": " ++ f.reason.text

/-- A sequence that has begun: its bytes, latest first, their value so far, the number of bytes
that must follow, and the range of the next one. -/
structure Sequence where
  bytes : List UInt8
  value : Nat
  missing : Nat
  least : UInt8
  greatest : UInt8

/-- The sequence that a byte above the ASCII range begins. -/
def Sequence.begin? (b : UInt8) : Option Sequence :=
  let n := b.toNat
  if n < 0xC2 then none
  else if n < 0xE0 then some ⟨[b], n - 0xC0, 1, 0x80, 0xBF⟩
  else if n < 0xF0 then
    some ⟨[b], n - 0xE0, 2, if n = 0xE0 then 0xA0 else 0x80, if n = 0xED then 0x9F else 0xBF⟩
  else if n < 0xF5 then
    some ⟨[b], n - 0xF0, 3, if n = 0xF0 then 0x90 else 0x80, if n = 0xF4 then 0x8F else 0xBF⟩
  else none

def Sequence.extend (s : Sequence) (b : UInt8) : Sequence :=
  ⟨b :: s.bytes, 64 * s.value + (b.toNat - 0x80), s.missing - 1, 0x80, 0xBF⟩

structure Decoded where
  chars : List Char
  fault : Option Fault

/-- The same behind more characters. -/
def Decoded.after (d : Decoded) (chars : List Char) : Decoded := { d with chars := chars ++ d.chars }

/-- `decode` with the place of the next byte, the sequence begun, and the characters read so far,
latest first. -/
def decodeFrom (place : Nat) (begun : Option Sequence) (read : List Char) :
    List UInt8 → Decoded
  | [] =>
    match begun with
    | none => ⟨read.reverse, none⟩
    | some s =>
      ⟨read.reverse, some ⟨.unexpectedEnd, place - s.bytes.length, s.bytes.reverse⟩⟩
  | b :: rest =>
    match begun with
    | none =>
      if b.toNat < 0x80 then decodeFrom (place + 1) none (Char.ofNat b.toNat :: read) rest
      else
        match Sequence.begin? b with
        | none => ⟨read.reverse, some ⟨.invalidStart, place, [b]⟩⟩
        | some s => decodeFrom (place + 1) (some s) read rest
    | some s =>
      if s.least ≤ b ∧ b ≤ s.greatest then
        let s := s.extend b
        if s.missing = 0 then decodeFrom (place + 1) none (Char.ofNat s.value :: read) rest
        else decodeFrom (place + 1) (some s) read rest
      else
        ⟨read.reverse, some ⟨.invalidContinuation, place - s.bytes.length, s.bytes.reverse⟩⟩

def decode (bytes : List UInt8) : Decoded := decodeFrom 0 none [] bytes

end Utf8
end MatrixStack
