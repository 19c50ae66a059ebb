import SchemaLedger.Sql.DollarQuote

/-! Statements change tables and their columns, and are written as the database reads them. -/

namespace SchemaLedger

/-- A column as a table definition writes it: its name and the clauses behind the name. -/
structure ColumnDefinition where
  name : String
  clauses : List String
  deriving DecidableEq, Repr

/-- A change to the database that a migration makes. -/
inductive Statement where
  | createTable (table : String) (columns : List ColumnDefinition)
  | dropTable (table : String)
  | addColumn (table : String) (column : ColumnDefinition)
  | dropColumn (table column : String)
  /-- Sets the comment of a column, or clears it. -/
  | commentOn (table column : String) (comment : Option String)
  /-- A statement that the library does not look into. -/
  | raw (text : String)
  deriving DecidableEq, Repr

namespace Statement

/-- A name between double quotes. -/
def identifier (name : String) : String := "\"" ++ name ++ "\""

/-- The definition of a column within a statement. -/
def columnText (column : ColumnDefinition) : String :=
  " ".intercalate (identifier column.name :: column.clauses)

/-- The column that every table starts with. -/
def keyColumnText : String := "id serial primary key"

/-- The text of a statement. -/
def text : Statement → String
  | .createTable table columns =>
    let lines := (keyColumnText :: columns.map columnText).map ("  " ++ ·)
    "create table " ++ identifier table ++ " (\n" ++ ",\n".intercalate lines ++ "\n);"
  | .dropTable table => "drop table " ++ identifier table ++ ";"
  | .addColumn table column =>
    "alter table " ++ identifier table ++ " add column " ++ columnText column ++ ";"
  | .dropColumn table column =>
    "alter table " ++ identifier table ++ " drop column " ++ identifier column ++ ";"
  | .commentOn table column comment =>
    "comment on column " ++ identifier table ++ "." ++ identifier column ++ " is " ++
      comment.elim "null" dollarQuote ++ ";"
  | .raw text => text

/-- The script of several statements, one behind the other. -/
def script (statements : List Statement) : String :=
  "\n".intercalate (statements.map text)

end Statement

end SchemaLedger
