import SchemaLedger.Text.Pad
import SchemaLedger.Json.Printer

/-! Faults of JSON text are malformed text or a value that does not fit what is expected of it. -/

namespace SchemaLedger.Json

/-- Ways in which text is not JSON. -/
inductive Malformed where
  | endInList
  | endInObject
  | endInString
  | endInValue
  | noColon
  | noListEnd
  | noObjectEnd
  | unknownWord
  | noValue
  | badEscape
  | badNumber
  | numberTooLarge
  | controlCharacter
  | keyNotText
  | loneSurrogate
  | trailingComma
  | trailingText
  | brokenPair
  | tooDeep
  deriving DecidableEq, Repr

/-- The words for malformed text. -/
def Malformed.message : Malformed → String
  | .endInList => "EOF while parsing a list"
  | .endInObject => "EOF while parsing an object"
  | .endInString => "EOF while parsing a string"
  | .endInValue => "EOF while parsing a value"
  | .noColon => "expected `:`"
  | .noListEnd => "expected `,` or `]`"
  | .noObjectEnd => "expected `,` or `\x7d`"
  | .unknownWord => "expected ident"
  | .noValue => "expected value"
  | .badEscape => "invalid escape"
  | .badNumber => "invalid number"
  | .numberTooLarge => "number out of range"
  | .controlCharacter => "control character (\\u0000-\\u001F) found while parsing a string"
  | .keyNotText => "key must be a string"
  | .loneSurrogate => "lone leading surrogate in hex escape"
  | .trailingComma => "trailing comma"
  | .trailingText => "trailing characters"
  | .brokenPair => "unexpected end of hex escape"
  | .tooDeep => "recursion limit exceeded"

/-- What stands where something else is expected. -/
inductive Found where
  | null
  | bool (value : Bool)
  | number (value : Number)
  | text (value : String)
  | list
  | object
  deriving DecidableEq, Repr

/-- The words for a found value, with scalars shown in full. -/
def Found.describe : Found → String
  | .null => "null"
  | .bool value => "boolean `" ++ (if value then "true" else "false") ++ "`"
  | .number (.integer value) => "integer `" ++ String.ofList (Number.integer value).text ++ "`"
  | .number (.float value) => "floating point `" ++ value.text numberStyle ++ "`"
  | .text value => "string " ++ quoted value
  | .list => "sequence"
  | .object => "map"

/-- Ways in which a value does not fit. -/
inductive Misfit where
  | wrongKind (found : Found) (expected : String)
  | wrongLength (length : Nat) (expected : String)
  | missingField (name : String)
  | duplicateField (name : String)
  | badInstant
  deriving DecidableEq, Repr

/-- The words for a value that does not fit. -/
def Misfit.message : Misfit → String
  | .wrongKind found expected => "invalid type: " ++ found.describe ++ ", expected " ++ expected
  | .wrongLength length expected =>
    "invalid length " ++ decimalText length ++ ", expected " ++ expected
  | .missingField name => "missing field `" ++ name ++ "`"
  | .duplicateField name => "duplicate field `" ++ name ++ "`"
  | .badInstant => "invalid timestamp"

/-- What is wrong with a text. -/
inductive Fault where
  | malformed (cause : Malformed)
  | misfit (cause : Misfit)
  deriving DecidableEq, Repr

/-- The words for a fault. -/
def Fault.message : Fault → String
  | .malformed cause => cause.message
  | .misfit cause => cause.message

/-- A fault, with the number of bytes that were still unread when it was noticed. -/
structure ReadError where
  fault : Fault
  unread : Nat
  deriving DecidableEq, Repr

/-- A fault with its place, where columns count the bytes of a line. -/
structure LocatedFault where
  fault : Fault
  line : Nat
  column : Nat
  deriving DecidableEq, Repr

/-- The words for a fault and its place. -/
def LocatedFault.message (located : LocatedFault) : String :=
  located.fault.message ++ " at line " ++ decimalText located.line ++
    " column " ++ decimalText located.column

/-- The number of bytes that characters take in UTF-8. -/
def byteLength : List Char → Nat
  | [] => 0
  | c :: rest => c.utf8Size + byteLength rest

/-- The line and column reached after some bytes of a text. -/
def place : List Char → Nat → Nat × Nat → Nat × Nat
  | [], _, reached => reached
  | c :: rest, consumed, (line, column) =>
    if consumed = 0 then (line, column)
    else if c = '\n' then place rest (consumed - 1) (line + 1, 0)
    else place rest (consumed - c.utf8Size) (line, column + min consumed c.utf8Size)

/-- An error of reading a text, with its place in the text. -/
def ReadError.locate (text : List Char) (error : ReadError) : LocatedFault :=
  let (line, column) := place text (byteLength text - error.unread) (1, 0)
  ⟨error.fault, line, column⟩

end SchemaLedger.Json
