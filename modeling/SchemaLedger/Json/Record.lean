import SchemaLedger.Json.Reader

/-! Records are read field by field, so that the first fault of a text is the one reported. -/

namespace SchemaLedger.Json

/-- A value that does not fit, noticed before the next character. -/
def misfitAt {α : Type} (cause : Misfit) (rest : List Char) : Except ReadError α :=
  .error ⟨.misfit cause, byteLength rest⟩

/-- The fault of a value of the wrong kind, at the start of the value. -/
def wrongKind {α : Type} (expected : String) (text : List Char) : Except ReadError α :=
  match text with
  | [] => malformedAhead .endInValue []
  | c :: rest =>
    if c = 'n' then do misfitAt (.wrongKind .null expected) (← word "ull".toList rest)
    else if c = 't' then do misfitAt (.wrongKind (.bool true) expected) (← word "rue".toList rest)
    else if c = 'f' then do misfitAt (.wrongKind (.bool false) expected) (← word "alse".toList rest)
    else if c = '-' then do
      let (value, rest) ← readNumber true rest
      misfitAt (.wrongKind (.number value) expected) rest
    else if c.isDigit then do
      let (value, rest) ← readNumber false (c :: rest)
      misfitAt (.wrongKind (.number value) expected) rest
    else if c = '"' then do
      let (body, rest) ← stringBody rest
      misfitAt (.wrongKind (.text (String.ofList body)) expected) rest
    -- Scalars are read to be named in the message, while lists and objects are not entered.
    else if c = '[' then misfitAt (.wrongKind .list expected) (c :: rest)
    else if c = '\x7b' then misfitAt (.wrongKind .object expected) (c :: rest)
    else malformedAhead .noValue (c :: rest)

/-- A string where a value described by `expected` is asked for. -/
def readTextAs (expected : String) (text : List Char) : Except ReadError (String × List Char) :=
  match skipSpaces text with
  | '"' :: rest => do
    let (body, rest) ← stringBody rest
    return (String.ofList body, rest)
  | other => wrongKind expected other

/-- A string. -/
def readText (text : List Char) : Except ReadError (String × List Char) :=
  readTextAs "a string" text

/-- A list of values that are all read in the same way. -/
def readList {α : Type} (item : Reader α)
    (text : List Char) : Except ReadError (List α × List Char) :=
  match skipSpaces text with
  | '[' :: rest => do
    let (items, rest) ← readItems nextItem item (rest.length + 1) true rest
    return (items, ← endOfList rest)
  | other => wrongKind "a sequence" other

/-- A null or a value. -/
def readOptional {α : Type} (value : Reader α)
    (text : List Char) : Except ReadError (Option α × List Char) :=
  match skipSpaces text with
  | 'n' :: rest => do return (none, ← word "ull".toList rest)
  | other => do
    let (found, rest) ← value other
    return (some found, rest)

/-- One field of a record that is read into a draft. -/
structure Slot (δ : Type) where
  key : String
  required : Bool
  isFilled : δ → Bool
  fill : δ → Reader δ

/-- The fields of a record, in the order in which it may also be written as a list. -/
structure RecordShape (δ : Type) where
  title : String
  blank : δ
  slots : List (Slot δ)

namespace RecordShape

variable {δ : Type}

/-- What a list of the wrong length should have been. -/
def lengthExpected (shape : RecordShape δ) : String :=
  let count := shape.slots.length
  shape.title ++ " with " ++ decimalText count ++
    if count = 1 then " element" else " elements"

/-- The text behind an object whose reading stopped here, as far as it can still be closed. -/
def closing (text : List Char) : List Char :=
  match skipSpaces text with
  | '\x7d' :: rest => rest
  | other => other

/-- One member of the object form, where unknown keys are passed over. -/
def member (shape : RecordShape δ) (draft : δ) (text : List Char) :
    Except ReadError (δ × List Char) := do
  let (key, text) ← stringBody text
  -- A duplicate is found at its key, before the value behind it is read.
  match shape.slots.find? (·.key == String.ofList key) with
  | none => do
    let text ← afterColon text
    return (draft, ← skipValue (text.length + 1) text)
  | some slot =>
    if slot.isFilled draft then misfitAt (.duplicateField slot.key) (closing text)
    else do slot.fill draft (← afterColon text)

/-- The list form, whose items fill the slots in order. -/
def positional (shape : RecordShape δ) (first : Bool) (index : Nat) (draft : δ)
    (text : List Char) : List (Slot δ) → Except ReadError (δ × List Char)
  | [] => .ok (draft, text)
  | slot :: slots => do
    let (more, text) ← nextItem first text
    if more then
      let (draft, text) ← slot.fill draft text
      positional shape false (index + 1) draft text slots
    else if slot.required then
      -- The bracket that ends the list too early is read before the fault is reported.
      misfitAt (.wrongLength index shape.lengthExpected) (text.drop 1)
    else positional shape first (index + 1) draft text slots

/-- The draft of a record, with every required slot filled. -/
def read (shape : RecordShape δ) (text : List Char) : Except ReadError (δ × List Char) :=
  match skipSpaces text with
  | '[' :: rest => do
    let (draft, rest) ← shape.positional true 0 shape.blank rest shape.slots
    return (draft, ← endOfList rest)
  | '\x7b' :: rest => do
    let (draft, rest) ← readMembers nextKey shape.member (rest.length + 1) true shape.blank rest
    -- Of several fields that are missing the first in the order of the record is reported.
    match shape.slots.find? (fun slot => slot.required && !slot.isFilled draft) with
    | some slot => misfitAt (.missingField slot.key) (closing rest)
    | none => return (draft, ← endOfObject rest)
  | other => wrongKind shape.title other

end RecordShape

/-- The value that a whole text stands for, read in the given way. -/
def decode {α : Type} (value : Reader α) (text : String) :
    Except LocatedFault α :=
  (do let (found, rest) ← value text.toList
      ended rest
      return found).mapError (ReadError.locate text.toList)

/-- The JSON value that a whole text stands for. -/
def parse (text : String) : Except LocatedFault Json := decode (readValue maxDepth) text

end SchemaLedger.Json
