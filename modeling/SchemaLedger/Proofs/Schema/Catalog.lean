import Mathlib.Logic.Function.Basic
import SchemaLedger.Proofs.Schema.Blueprint

/-! A catalog of tables and columns gives statements a meaning, under which undoing restores it. -/

namespace SchemaLedger

/-- What a catalog knows of a column: how it is defined, and its comment. -/
structure CatalogColumn where
  fragment : String
  comment : Option String := none
  deriving DecidableEq, Repr

/-- The columns of a table by their names, in no order. -/
abbrev CatalogTable := String → Option CatalogColumn

/-- The tables of a database by their names. -/
abbrev Catalog := String → Option CatalogTable

/-- A column definition without the name that it is for. -/
def ColumnDefinition.fragment (column : ColumnDefinition) : String :=
  " ".intercalate column.clauses

/-- A column as it is defined, before any comment. -/
def ColumnDefinition.entry (column : ColumnDefinition) : String × CatalogColumn :=
  (column.name, ⟨column.fragment, none⟩)

/-- A column as it is described, with its comment, if the description is sound. -/
def Column.entry? (column : Column) : Option (String × CatalogColumn) :=
  match column.definition with
  | .ok definition => some (definition.name, ⟨definition.fragment, column.comment⟩)
  | .error _ => none

namespace CatalogTable

/-- The column that every table starts with. -/
def keyEntry : String × CatalogColumn := ("id", ⟨"serial primary key", none⟩)

/-- The table with some columns, the first of which counts where names are repeated. -/
def ofEntries (entries : List (String × CatalogColumn)) : CatalogTable :=
  fun name => entries.lookup name

/-- Columns are listed for a table if they are its columns, each of them once. -/
def ListedBy (table : CatalogTable) (entries : List (String × CatalogColumn)) : Prop :=
  (entries.map (·.1)).Nodup ∧ table = ofEntries entries

variable {before after : List (String × CatalogColumn)} {name : String} {old new : CatalogColumn}

/-- A column is found behind columns of other names. -/
theorem ofEntries_append_cons (free : name ∉ before.map (·.1)) :
    ofEntries (before ++ (name, old) :: after) name = some old := by
  -- The search passes by all columns before.
  have missing : before.lookup name = none := List.lookup_eq_none_iff.mpr fun entry member => by
    simpa using fun same : name = entry.1 => free (List.mem_map.mpr ⟨entry, member, same.symm⟩)
  simp [ofEntries, List.lookup_append, missing]

/-- A column is exchanged in its place. -/
theorem update_ofEntries (free : name ∉ before.map (·.1)) :
    Function.update (ofEntries (before ++ (name, old) :: after)) name (some new) =
      ofEntries (before ++ (name, new) :: after) := by
  funext other
  by_cases same : other = name
  · subst same
    rw [Function.update_self, ofEntries_append_cons free]
  · -- The search for any other name passes by.
    have differs : (other == name) = false := by simpa using same
    simp [Function.update_of_ne same, ofEntries, List.lookup_append, List.lookup_cons, differs]

end CatalogTable

namespace Catalog

/-- The column of a name in a table. -/
def column? (catalog : Catalog) (table name : String) : Option CatalogColumn :=
  (catalog table).bind fun columns => columns name

/-- A catalog with something else, or nothing, in the place of a column of a table. -/
def setColumn (catalog : Catalog) (table name : String) (column : Option CatalogColumn) :
    Catalog :=
  Function.update catalog table
    ((catalog table).map fun columns => Function.update columns name column)

section Columns

variable {catalog : Catalog} {table name : String} {column other : Option CatalogColumn}

/-- Of two columns put into one place the later one remains. -/
@[simp] theorem setColumn_setColumn :
    setColumn (setColumn catalog table name column) table name other =
      setColumn catalog table name other := by
  -- The second setting overwrites the first.
  simp [setColumn, Function.comp_def]

/-- Putting a column where it already is changes nothing. -/
@[simp] theorem setColumn_column? :
    setColumn catalog table name (column? catalog table name) = catalog := by
  -- The columns of a table stay the same, and a table that is not there stays away.
  have same : (catalog table).map
      (fun columns => Function.update columns name (column? catalog table name)) =
        catalog table := by
    cases present : catalog table <;> simp [column?, present]
  rw [setColumn, same, Function.update_eq_self]

/-- The column that was put into a place of a table is found there. -/
theorem column?_setColumn (present : (catalog table).isSome) :
    column? (setColumn catalog table name column) table name = column := by
  -- The table is there, so that the column is set in it.
  obtain ⟨columns, found⟩ := Option.isSome_iff_exists.mp present
  simp [column?, setColumn, found]

/-- A column is put into the table that has just taken its place. -/
theorem setColumn_update (columns : CatalogTable) :
    setColumn (Function.update catalog table (some columns)) table name column =
      Function.update catalog table (some (Function.update columns name column)) := by
  -- The table has just been put there, so that it is the one the column is set in.
  simp [setColumn]

/-- A table stays where it is, whatever becomes of its columns. -/
@[simp] theorem isSome_setColumn :
    (setColumn catalog table name column table).isSome = (catalog table).isSome := by
  -- Setting a column neither makes a table nor drops one.
  simp [setColumn]

/-- A table with a column is there. -/
theorem isSome_of_column? {standing : CatalogColumn}
    (found : column? catalog table name = some standing) : (catalog table).isSome := by
  -- A column is found only in a table.
  obtain ⟨columns, there, _⟩ := Option.bind_eq_some_iff.mp found
  simp [there]

end Columns

/-- The catalog behind a statement, unless it finds something missing or in its way. -/
def apply (catalog : Catalog) : Statement → Option Catalog
  | .createTable table columns =>
    let entries := CatalogTable.keyEntry :: columns.map ColumnDefinition.entry
    if (catalog table).isNone ∧ (entries.map (·.1)).Nodup then
      some (Function.update catalog table (some (.ofEntries entries)))
    else none
  -- A table is dropped with its columns and their comments.
  | .dropTable table =>
    if (catalog table).isSome then some (Function.update catalog table none) else none
  | .addColumn table column =>
    if (catalog table).isSome ∧ (column? catalog table column.name).isNone then
      some (setColumn catalog table column.name (some column.entry.2))
    else none
  | .dropColumn table name =>
    if (column? catalog table name).isSome then some (setColumn catalog table name none) else none
  | .commentOn table name comment => (column? catalog table name).map fun column =>
    setColumn catalog table name (some { column with comment })
  -- Nothing is known about a statement that is not looked into.
  | .raw _ => none

/-- The catalog behind statements that run one after the other. -/
def run (catalog : Catalog) (statements : List Statement) : Option Catalog :=
  statements.foldlM apply catalog

variable {catalog next last : Catalog}

/-- No statements leave a catalog as it is. -/
@[simp] theorem run_nil (catalog : Catalog) : run catalog [] = some catalog := rfl

/-- The first statement is applied, and the others run behind it. -/
theorem run_cons (catalog : Catalog) (statement : Statement) (later : List Statement) :
    run catalog (statement :: later) = (apply catalog statement).bind (run · later) := rfl

/-- A single statement is applied. -/
@[simp] theorem run_singleton (catalog : Catalog) (statement : Statement) :
    run catalog [statement] = apply catalog statement := by
  -- Running nothing behind it changes nothing.
  rw [run_cons]
  cases apply catalog statement <;> rfl

/-- Statements run in two parts, one behind the other. -/
theorem run_append (catalog : Catalog) (first second : List Statement) :
    run catalog (first ++ second) = (run catalog first).bind (run · second) :=
  List.foldlM_append

end Catalog

namespace Step

/-- A step says of what it takes away or replaces how it stands in a catalog. -/
def DocumentsIn (catalog : Catalog) : Step → Prop
  | .dropTable table columns => ∃ standing, catalog table = some standing ∧
    standing.ListedBy (CatalogTable.keyEntry :: columns.filterMap Column.entry?)
  | .dropColumn table column => ∃ name standing,
    catalog.column? table name = some standing ∧ column.entry? = some (name, standing)
  | .setComment table column _ previous => ∃ standing,
    catalog.column? table (snakeCase column) = some standing ∧ standing.comment = previous
  | .setConverter table column _ previous => ∃ standing,
    catalog.column? table (snakeCase column) = some standing ∧
      standing.comment = previous.map Converter.comment
  | _ => True

/-- Every step says how things stand when its turn comes. -/
def Documented (catalog : Catalog) : List Step → Prop
  | [] => True
  | step :: later => step.DocumentsIn catalog ∧
    ∀ operations next, step.operations = .ok operations →
      catalog.run (operations.flatMap Operation.up) = some next → Documented next later

end Step

end SchemaLedger
