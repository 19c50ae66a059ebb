import SchemaLedger.Text.Snake
import SchemaLedger.Sql.Literal
import SchemaLedger.Sql.Statement
import SchemaLedger.Schema.Converter

/-! Columns are described piece by piece and defined once the description is complete. -/

namespace SchemaLedger

/-- The description of a column, any part of which may still be missing. -/
structure Column where
  name : Option String := none
  type : Option String := none
  nullable : Bool := false
  unique : Bool := false
  default : Option DefaultValue := none
  references : Option String := none
  comment : Option String := none
  deriving DecidableEq

namespace Column

/-- A column known by the snake case of a name. -/
def named (column : Column) (name : String) : Column :=
  { column with name := some (snakeCase name) }

/-- A column with a comment that describes a converter. -/
def converted (column : Column) (converter : Converter) : Column :=
  { column with comment := some converter.comment }

/-- What an unnamed column is called in messages. -/
def unnamed : String := "<unnamed>"

/-- The error of a column with a flaw. -/
def flawed (column : Column) (flaw : ColumnFlaw) : SchemaError :=
  .invalidColumn (column.name.getD unnamed) flaw

/-- The name of a column, which it must have. -/
def requireName (column : Column) : Except SchemaError String :=
  match column.name with
  | some name => .ok name
  | none => .error (column.flawed .noName)

/-- The clause with the type of a column, or with the table whose key it refers to. -/
def typeClause (column : Column) : Except SchemaError String :=
  match column.type, column.references with
  -- A reference brings its own type, so that only one of the two may be given.
  | some _, some _ => .error (column.flawed .typeAndReference)
  | none, none => .error (column.flawed .neitherTypeNorReference)
  | some type, none => .ok type
  | none, some table => .ok ("integer references " ++ Statement.identifier table ++ " (id)")

/-- The clause with the default value, if there is one. -/
def defaultClauses (column : Column) : Except SchemaError (List String) :=
  match column.default with
  | none => .ok []
  | some value => do return ["default " ++ (← value.literal)]

/-- The definition of a complete column. -/
def definition (column : Column) : Except SchemaError ColumnDefinition := do
  let name ← column.requireName
  let type ← column.typeClause
  let default ← column.defaultClauses
  let required := if column.nullable then [] else ["not null"]
  let unique := if column.unique then ["unique"] else []
  return ⟨name, type :: required ++ unique ++ default⟩

end Column

end SchemaLedger
