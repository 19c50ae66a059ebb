import SchemaLedger.Text.Pad
import SchemaLedger.Decimal.Shortest
import SchemaLedger.Schema.Error

/-! Default values become literals that need no escaping, or no literal at all. -/

namespace SchemaLedger

/-- A value that a column may default to. -/
inductive DefaultValue where
  | boolean (value : Bool)
  | integer (value : Int64)
  | float (value : Binary64)
  | text (value : String)
  /-- An expression of the database, which is written as it stands. -/
  | expression (value : String)
  deriving DecidableEq

namespace DefaultValue

/-- Numbers in messages are written in full, without exponents. -/
def messageStyle : NumberStyle := { tie := .up, plain := none, fraction := false }

/-- The largest integer up to which floating point numbers represent all integers. -/
def largestSafe : Nat := 9007199254740991

/-- The number of decimal places in the literal of a number that is not a small integer. -/
def places : Nat := 4

/-- The literal of a floating point number, if one with few decimal places reads back as it. -/
def floatLiteral (x : Binary64) : Except SchemaError String :=
  if !x.isFinite then .error (.unquotable (x.text messageStyle) .notFinite)
  else if x.numerator % x.denominator = 0 ∧ x.numerator / x.denominator ≤ largestSafe then
    -- Integers have one zero, so the sign of a negative zero is lost here.
    .ok (integerText x.toInt64.toInt)
  else if Binary64.nearestMagnitude (x.fixedSteps places) (Nat.pow 10 places) = x.magnitude then
    .ok (x.fixedText places)
  else .error (.unquotable (x.text messageStyle) .tooPrecise)

/-- The literal of a value. -/
def literal : DefaultValue → Except SchemaError String
  | .boolean value => .ok (if value then "true" else "false")
  | .integer value => .ok (integerText value.toInt)
  | .float value => floatLiteral value
  | .text value =>
    if value.toList.contains '\'' then .error (.unquotable (quoted value) .singleQuote)
    else .ok ("'" ++ value ++ "'")
  | .expression value => .ok value

end DefaultValue

end SchemaLedger
