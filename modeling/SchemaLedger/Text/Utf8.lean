/-! Bytes are read as UTF-8, and what cannot be read is marked in its place. -/

namespace SchemaLedger

namespace Utf8

/-- A character whose first bytes have been read. -/
structure Pending where
  /-- How many bytes are still missing. -/
  missing : Nat
  /-- The least and the greatest value of the next byte. -/
  least : Nat
  greatest : Nat
  value : Nat

/-- What a byte at the beginning of a character says: what can be told at once, and what follows. -/
def start (byte : Nat) : List (Option Char) × Option Pending :=
  if byte < 0x80 then ([some (Char.ofNat byte)], none)
  else if byte < 0xc2 ∨ 0xf4 < byte then ([none], none)
  else if byte < 0xe0 then ([], some ⟨1, 0x80, 0xbf, byte - 0xc0⟩)
  else if byte < 0xf0 then
    -- Longer forms than necessary and halves of surrogate pairs are left out.
    ([], some ⟨2, if byte = 0xe0 then 0xa0 else 0x80, if byte = 0xed then 0x9f else 0xbf,
      byte - 0xe0⟩)
  else ([], some ⟨3, if byte = 0xf0 then 0x90 else 0x80, if byte = 0xf4 then 0x8f else 0xbf,
    byte - 0xf0⟩)

/-- The characters of some bytes, with nothing in the place of bytes that are no character. -/
def decode (pending : Option Pending) : List UInt8 → List (Option Char)
  | [] => if pending.isSome then [none] else []
  | byte :: rest =>
    let opened := start byte.toNat
    match pending with
    | none => opened.1 ++ decode opened.2 rest
    | some awaited =>
      if awaited.least ≤ byte.toNat ∧ byte.toNat ≤ awaited.greatest then
        let value := awaited.value * 64 + byte.toNat % 64
        if awaited.missing ≤ 1 then some (Char.ofNat value) :: decode none rest
        else decode (some ⟨awaited.missing - 1, 0x80, 0xbf, value⟩) rest
      else none :: opened.1 ++ decode opened.2 rest

end Utf8

/-- Bytes as a reader of text finds them. -/
inductive RawText where
  | text (value : String)
  /-- Bytes that are no text. -/
  | binary (bytes : List UInt8)
  deriving DecidableEq, Repr

namespace RawText

/-- What some bytes are to a reader of text. -/
def ofBytes (bytes : List UInt8) : RawText :=
  let chars := Utf8.decode none bytes
  if chars.all Option.isSome then .text (String.ofList (chars.filterMap id)) else .binary bytes

/-- A text to show, with a replacement character wherever bytes cannot be read. -/
def display : RawText → String
  | .text value => value
  | .binary bytes => String.ofList ((Utf8.decode none bytes).map (·.getD '\ufffd'))

/-- How many bytes there are. -/
def byteSize : RawText → Nat
  | .text value => value.utf8ByteSize
  | .binary bytes => bytes.length

/-- The text, if it is one. -/
def text? : RawText → Option String
  | .text value => some value
  | .binary _ => none

end RawText

end SchemaLedger
