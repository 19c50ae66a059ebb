import SchemaLedger.Json.Value

/-! JSON text comes compact or with one item to a line, and escapes no more than it has to. -/

namespace SchemaLedger.Json

/-- JSON writes a fraction digit in every plain number, an exponent in very large or small ones. -/
def numberStyle : NumberStyle := { tie := .even, plain := some (-5, 16), fraction := true }

/-- The text of a number. -/
def Number.text : Number → List Char
  | .integer value => signedDigits value
  | .float value => (value.text numberStyle).toList

/-- One hexadecimal digit, in lower case. -/
def hexDigit (n : Nat) : Char := Nat.digitChar n

/-- How one character appears between quotes. -/
def escapedChar (c : Char) : List Char :=
  if c = '"' ∨ c = '\\' then ['\\', c]
  else if c = '\x08' then ['\\', 'b']
  else if c = '\t' then ['\\', 't']
  else if c = '\n' then ['\\', 'n']
  else if c = '\x0c' then ['\\', 'f']
  else if c = '\r' then ['\\', 'r']
  -- Only control characters are left to escape, and all of them lie below thirty-two.
  else if c.toNat < 0x20 then
    ['\\', 'u', '0', '0', hexDigit (c.toNat / 16), hexDigit (c.toNat % 16)]
  else [c]

/-- The text of a string. -/
def stringText (text : String) : List Char :=
  '"' :: text.toList.flatMap escapedChar ++ ['"']

/-- How a value is spread over lines: on one line, or with its items indented this deep. -/
inductive Spread where
  | compact
  | indented (depth : Nat)
  deriving DecidableEq, Repr

/-- The spread of the items of a value. -/
def Spread.inner : Spread → Spread
  | .compact => .compact
  | .indented depth => .indented (depth + 1)

/-- What stands before an item or a closing bracket. -/
def Spread.lineBreak : Spread → List Char
  | .compact => []
  | .indented depth => '\n' :: List.replicate (2 * depth) ' '

/-- What stands between a key and its value. -/
def Spread.colon : Spread → List Char
  | .compact => [':']
  | .indented _ => [':', ' ']

/-- Items between brackets, where an empty list keeps its brackets together. -/
def bracketed (spread : Spread) (opening closing : Char) : List (List Char) → List Char
  | [] => [opening, closing]
  | first :: rest =>
    opening :: spread.inner.lineBreak ++ first ++
      rest.flatMap (fun item => ',' :: spread.inner.lineBreak ++ item) ++
      spread.lineBreak ++ [closing]

mutual

/-- The text of a value in the given spread. -/
def textChars (spread : Spread) : Json → List Char
  | .null => "null".toList
  | .bool true => "true".toList
  | .bool false => "false".toList
  | .number value => value.text
  | .string value => stringText value
  | .array items => bracketed spread '[' ']' (itemTexts spread.inner items)
  | .object fields => bracketed spread '\x7b' '\x7d' (fieldTexts spread.inner fields)

/-- The texts of the items of an array. -/
def itemTexts (spread : Spread) : List Json → List (List Char)
  | [] => []
  | item :: rest => textChars spread item :: itemTexts spread rest

/-- The texts of the fields of an object. -/
def fieldTexts (spread : Spread) : List (String × Json) → List (List Char)
  | [] => []
  | (key, value) :: rest =>
    (stringText key ++ spread.colon ++ textChars spread value) :: fieldTexts spread rest

end

/-- The text of a value on one line. -/
def compact (value : Json) : String := String.ofList (textChars .compact value)

/-- The text of a value with one item to a line. -/
def pretty (value : Json) : String := String.ofList (textChars (.indented 0) value)

end SchemaLedger.Json
