import SchemaLedger.Text.LetterCase

/-! Snake case spells a name with separators written as underscores and words in lower case. -/

namespace SchemaLedger

/-- An uppercase letter opens a word after a small letter or digit, or as the last of capitals. -/
def opensWord (before after : Option Char) : Bool :=
  before.any (fun c => LetterCase.isLower c || c.isDigit) ||
    before.any LetterCase.isUpper && after.any LetterCase.isLower

/-- What one character of a name contributes, given its neighbours and the last one written. -/
def snakePiece (before written : Option Char) (c : Char) (after : Option Char) : List Char :=
  if c = '-' ∨ c = ' ' then
    -- A separator never follows an underscore that is already there.
    if written = some '_' then [] else ['_']
  else if LetterCase.isUpper c then
    if opensWord before after ∧ written.isSome ∧ written ≠ some '_' then '_' :: LetterCase.lower c
    else LetterCase.lower c
  else [c]

/-- The snake case of the rest of a name, given the character before it and the last one written. -/
def snakeTail (before written : Option Char) : List Char → List Char
  | [] => []
  | c :: rest =>
    let piece := snakePiece before written c rest.head?
    piece ++ snakeTail (some c) (piece.getLast?.or written) rest

/-- The snake case of a name, under which a column is known to the database. -/
def snakeCase (name : String) : String :=
  String.ofList (snakeTail none none name.toList)

end SchemaLedger
