import SchemaLedger.Decimal.Layout
import SchemaLedger.Text.Scan

/-! Dollar quotes enclose any text between two equal tags, with nothing inside escaped. -/

namespace SchemaLedger.DollarQuote

/-- The tags in the order in which they are tried: `$$`, then `$c1$`, `$c2$` and so on. -/
def tag : Nat → List Char
  | 0 => ['$', '$']
  | n + 1 => '$' :: 'c' :: decimalDigits (n + 1) ++ ['$']

/-- A tag closes a text when it occurs for the first time right behind the text. -/
def closes (text tag : List Char) : Bool :=
  firstIndex? tag (text ++ tag) == some text.length

/-- The first tag from a number on that closes a text. -/
def search (text : List Char) : Nat → Nat → Nat
  | 0, number => number
  | fuel + 1, number => if closes text (tag number) then number else search text fuel (number + 1)

/-- The number of the tag chosen for a text. -/
def tagNumber (text : List Char) : Nat :=
  -- Each dollar sign of the text can spoil one tag at most, and the end of the text one more.
  search text (text.count '$' + 1) 0

/-- A text between its tags. -/
def chars (text : List Char) : List Char :=
  tag (tagNumber text) ++ text ++ tag (tagNumber text)

end SchemaLedger.DollarQuote

namespace SchemaLedger

/-- The literal for a text between dollar quotes. -/
def dollarQuote (text : String) : String := String.ofList (DollarQuote.chars text.toList)

end SchemaLedger
