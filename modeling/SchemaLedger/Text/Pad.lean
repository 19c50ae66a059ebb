import SchemaLedger.Text.Unprintable

/-! Texts on display stand quoted on one line, and labels are padded to a width or cut to one. -/

namespace SchemaLedger

/-- The lowercase hexadecimal digits of a number, without leading zeros. -/
def hexDigits (n : Nat) : List Char := Nat.toDigits 16 n

/-- How one character appears inside quoted text. -/
def quotedChar (c : Char) : List Char :=
  if c = '\x00' then ['\\', '0']
  else if c = '\t' then ['\\', 't']
  else if c = '\r' then ['\\', 'r']
  else if c = '\n' then ['\\', 'n']
  else if c = '\\' ∨ c = '"' then ['\\', c]
  -- What cannot be seen is written by its code point.
  else if isUnprintable c then "\\u\x7b".toList ++ hexDigits c.toNat ++ "\x7d".toList
  else [c]

/-- A string between double quotes, with single quotes left as they are. -/
def quoted (text : String) : String :=
  String.ofList ('"' :: text.toList.flatMap quotedChar ++ ['"'])

/-- On which side of a padded text the text stands. -/
inductive Alignment where
  | left
  | right
  | center
  deriving DecidableEq, Repr

/-- A text with spaces added up to a width, where a center leans to the left. -/
def pad (alignment : Alignment) (width : Nat) (text : String) : String :=
  let chars := text.toList
  let space := width - chars.length
  let before := match alignment with
    | .left => 0
    | .right => space
    | .center => space / 2
  String.ofList (List.replicate before ' ' ++ chars ++ List.replicate (space - before) ' ')

/-- The first characters of a text, up to a width. -/
def cut (width : Nat) (text : String) : String := String.ofList (text.toList.take width)

end SchemaLedger
