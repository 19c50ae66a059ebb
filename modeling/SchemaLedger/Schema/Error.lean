/-! Errors of a schema definition name the column or value at fault. -/

namespace SchemaLedger

/-- What makes a column incomplete or contradictory. -/
inductive ColumnFlaw where
  | noName
  | typeAndReference
  | neitherTypeNorReference
  deriving DecidableEq, Repr

/-- The words for a flaw of a column. -/
def ColumnFlaw.message : ColumnFlaw → String
  | .noName => "Column name not specified"
  | .typeAndReference => "Cannot specify both references and type"
  | .neitherTypeNorReference => "Column type nor referenced table not specified"

/-- Why a value has no literal. -/
inductive QuotingFlaw where
  | notFinite
  | tooPrecise
  | singleQuote
  deriving DecidableEq, Repr

/-- The words for why a value has no literal. -/
def QuotingFlaw.message : QuotingFlaw → String
  | .notFinite => "number is not finite"
  | .tooPrecise => "number is not exactly representable with 4 decimal places"
  | .singleQuote => "strings containing a single quote are not supported"

/-- Errors of a schema definition. -/
inductive SchemaError where
  | invalidColumn (column : String) (flaw : ColumnFlaw)
  | unquotable (value : String) (flaw : QuotingFlaw)
  | secondDescription
  deriving DecidableEq, Repr

/-- The words for an error of a schema definition. -/
def SchemaError.message : SchemaError → String
  | .invalidColumn column flaw => "Invalid column '" ++ column ++ "': " ++ flaw.message
  | .unquotable value flaw => "Cannot quote value " ++ value ++ ": " ++ flaw.message
  | .secondDescription => "Cannot specify multiple descriptions"

end SchemaLedger
