import SchemaLedger.Keyed
import SchemaLedger.Json.Scalar

/-! Reading a value accepts JSON text nested up to a fixed depth; skipping one has no such limit. -/

namespace SchemaLedger.Json

/-- Values may be nested this many levels deep. -/
def maxDepth : Nat := 127

/-- The text behind the colon that must follow a key. -/
def afterColon (text : List Char) : Except ReadError (List Char) :=
  match skipSpaces text with
  | ':' :: rest => .ok rest
  | [] => malformedAhead .endInObject []
  | other => malformedAhead .noColon other

/-- Whether another item of a list follows, and the text from there on. -/
def nextItem (first : Bool) (text : List Char) : Except ReadError (Bool × List Char) :=
  match skipSpaces text with
  | [] => malformedAhead .endInList []
  | ']' :: rest => .ok (false, ']' :: rest)
  | ',' :: rest =>
    -- No comma belongs before the first item, and the reader of the item will refuse it.
    if first then .ok (true, ',' :: rest)
    else match skipSpaces rest with
      | [] => malformedAhead .endInValue []
      | ']' :: rest => malformedAhead .trailingComma (']' :: rest)
      | item => .ok (true, item)
  | item => if first then .ok (true, item) else malformedAhead .noListEnd item

/-- Whether another item of a list follows, where items are passed over and may be missing. -/
def nextPassedItem (first : Bool) (text : List Char) : Except ReadError (Bool × List Char) :=
  match skipSpaces text with
  | [] => malformedAhead .endInList []
  | ']' :: rest => .ok (false, ']' :: rest)
  | ',' :: rest => .ok (true, if first then ',' :: rest else rest)
  | item => if first then .ok (true, item) else malformedAhead .noListEnd item

/-- Whether another key of an object follows, and the text behind its opening quote. -/
def nextKey (first : Bool) (text : List Char) : Except ReadError (Bool × List Char) :=
  match skipSpaces text with
  | [] => malformedAhead .endInObject []
  | '\x7d' :: rest => .ok (false, '\x7d' :: rest)
  -- A second key without a comma before it is taken for an object that should have ended.
  | '"' :: rest => if first then .ok (true, rest) else malformedAhead .noObjectEnd ('"' :: rest)
  | ',' :: rest =>
    if first then malformedAhead .keyNotText (',' :: rest)
    else match skipSpaces rest with
      | '"' :: rest => .ok (true, rest)
      | '\x7d' :: rest => malformedAhead .trailingComma ('\x7d' :: rest)
      | [] => malformedAhead .endInValue []
      | other => malformedAhead .keyNotText other
  | other => malformedAhead (if first then .keyNotText else .noObjectEnd) other

/-- The text behind the opening quote of a key that must follow. -/
def passedKey (text : List Char) : Except ReadError (Bool × List Char) :=
  match skipSpaces text with
  | [] => malformedAhead .endInObject []
  | '"' :: rest => .ok (true, rest)
  | other => malformedAhead .keyNotText other

/-- Whether another key of an object follows, where members are passed over. -/
def nextPassedKey (first : Bool) (text : List Char) : Except ReadError (Bool × List Char) :=
  match skipSpaces text with
  | [] => malformedAhead .endInObject []
  | '\x7d' :: rest => .ok (false, '\x7d' :: rest)
  | ',' :: rest => passedKey (if first then ',' :: rest else rest)
  | other => if first then passedKey other else malformedAhead .noObjectEnd other

/-- The text behind the bracket that ends a list. -/
def endOfList (text : List Char) : Except ReadError (List Char) :=
  match skipSpaces text with
  | [] => malformedAhead .endInList []
  | ']' :: rest => .ok rest
  | ',' :: rest =>
    -- A comma alone before the bracket has a message of its own.
    match skipSpaces rest with
    | ']' :: rest => malformedAhead .trailingComma (']' :: rest)
    | other => malformedAhead .trailingText other
  | other => malformedAhead .trailingText other

/-- The text behind the brace that ends an object. -/
def endOfObject (text : List Char) : Except ReadError (List Char) :=
  match skipSpaces text with
  | [] => malformedAhead .endInObject []
  | '\x7d' :: rest => .ok rest
  | ',' :: rest => malformedAhead .trailingComma (',' :: rest)
  | other => malformedAhead .trailingText other

/-- The items of a list behind its opening bracket, each read in the same way. -/
def readItems {α : Type} (next : Bool → Reader Bool) (item : Reader α) :
    Nat → Bool → Reader (List α)
  -- Each item takes at least one character, so the length of the text bounds their number.
  | 0, _, text => malformedAt .endInList text
  | fuel + 1, first, text => do
    let (more, text) ← next first text
    if more then
      let (head, text) ← item text
      let (tail, text) ← readItems next item fuel false text
      return (head :: tail, text)
    else return ([], text)

/-- A value is followed by others, so its fields are folded as they come. -/
def readMembers {α : Type} (next : Bool → Reader Bool) (member : α → Reader α) :
    Nat → Bool → α → Reader α
  -- Each member takes at least one character, so the length of the text bounds their number.
  | 0, _, _, text => malformedAt .endInObject text
  | fuel + 1, first, state, text => do
    let (more, text) ← next first text
    if more then
      let (state, text) ← member state text
      readMembers next member fuel false state text
    else return (state, text)

/-- A value nested at most as deep as allowed, and the text behind it. -/
def readValue (depth : Nat) (text : List Char) : Except ReadError (Json × List Char) :=
  match skipSpaces text with
  | [] => malformedAhead .endInValue []
  | c :: rest =>
    if c = 'n' then do return (.null, ← word "ull".toList rest)
    else if c = 't' then do return (.bool true, ← word "rue".toList rest)
    else if c = 'f' then do return (.bool false, ← word "alse".toList rest)
    else if c = '-' then do
      let (value, rest) ← readNumber true rest
      return (.number value, rest)
    else if c.isDigit then do
      let (value, rest) ← readNumber false (c :: rest)
      return (.number value, rest)
    else if c = '"' then do
      let (body, rest) ← stringBody rest
      return (.string (String.ofList body), rest)
    else if c = '[' then
      match depth with
      | 0 => malformedAhead .tooDeep (c :: rest)
      | inner + 1 => do
        let (items, rest) ← readItems nextItem (readValue inner) (rest.length + 1) true rest
        return (.array items, ← endOfList rest)
    else if c = '\x7b' then
      match depth with
      | 0 => malformedAhead .tooDeep (c :: rest)
      | inner + 1 => do
        -- Of two fields with one key the later one counts.
        let member := fun (fields : List (String × Json)) text => do
          let (key, text) ← stringBody text
          let (value, text) ← readValue inner (← afterColon text)
          return (insertEntry (String.ofList key) value fields, text)
        let (fields, rest) ← readMembers nextKey member (rest.length + 1) true [] rest
        return (.object fields, ← endOfObject rest)
    else malformedAhead .noValue (c :: rest)

/-- The text behind a value of any depth whose content does not matter. -/
def skipValue : Nat → List Char → Except ReadError (List Char)
  -- Each level of nesting takes a character, so the length of the text bounds the depth.
  | 0, text => malformedAt .endInValue text
  | fuel + 1, text =>
    match skipSpaces text with
    | [] => malformedAhead .endInValue []
    | c :: rest =>
      if c = 'n' then word "ull".toList rest
      else if c = 't' then word "rue".toList rest
      else if c = 'f' then word "alse".toList rest
      else if c = '-' then skipNumber true rest
      else if c.isDigit then skipNumber false (c :: rest)
      else if c = '"' then skipString rest
      else if c = '[' then do
        let item := fun text => do return ((), ← skipValue fuel text)
        let (_, rest) ← readItems nextPassedItem item (rest.length + 1) true rest
        endOfList rest
      else if c = '\x7b' then do
        let member := fun (_ : Unit) text => do
          return ((), ← skipValue fuel (← afterColon (← skipString text)))
        let (_, rest) ← readMembers nextPassedKey member (rest.length + 1) true () rest
        endOfObject rest
      else malformedAhead .noValue (c :: rest)

/-- Nothing but blanks may follow a value. -/
def ended (text : List Char) : Except ReadError Unit :=
  match skipSpaces text with
  | [] => .ok ()
  | other => malformedAhead .trailingText other

end SchemaLedger.Json
