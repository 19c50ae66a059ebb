import SchemaLedger.Schema.Column

/-! A blueprint collects changes with their undoing, and compiles them into one migration. -/

namespace SchemaLedger

/-- Statements that make a change, and statements that undo it. -/
structure Operation where
  up : List Statement
  down : List Statement
  deriving DecidableEq, Repr

namespace Operation

/-- The operation that undoes this one. -/
def inverse (operation : Operation) : Operation := ⟨operation.down, operation.up⟩

/-- The script that makes the change. -/
def upText (operation : Operation) : String := Statement.script operation.up

/-- The script that undoes the change. -/
def downText (operation : Operation) : String := Statement.script operation.down

/-- An operation with scripts of its own. -/
def ofTexts (up down : String) : Operation := ⟨[.raw up], [.raw down]⟩

end Operation

/-- The scripts of a migration with a description. -/
structure CompiledMigration where
  description : String
  up : String
  down : String
  deriving DecidableEq, Repr

/-- One thing that a migration is told to do. -/
inductive Step where
  | describe (text : String)
  | createTable (table : String) (columns : List Column)
  /-- Drops a table whose columns are given so that it can be created again. -/
  | dropTable (table : String) (columns : List Column)
  | addColumn (table : String) (column : Column)
  /-- Drops a column that is given in full so that it can be added again. -/
  | dropColumn (table : String) (column : Column)
  | setComment (table column : String) (value previous : Option String)
  | setConverter (table column : String) (value previous : Option Converter)
  | raw (operation : Operation)
  deriving DecidableEq

/-- What a migration has been told to do so far. -/
structure Blueprint where
  operations : List Operation := []
  description : Option String := none
  deriving DecidableEq, Repr

namespace Step

/-- The comment of a described column as a statement of its own. -/
def columnComment (table name : String) (column : Column) : List Statement :=
  column.comment.toList.map fun comment => .commentOn table name (some comment)

/-- The definitions and comments of columns, up to the first one that is flawed. -/
def defineColumns (table : String) :
    List Column → Except SchemaError (List ColumnDefinition × List Statement)
  | [] => .ok ([], [])
  | column :: rest => do
    let definition ← column.definition
    let (definitions, comments) ← defineColumns table rest
    return (definition :: definitions, columnComment table definition.name column ++ comments)

/-- Creating a table, with the comments of its columns, is undone by dropping it. -/
def tableCreation (table : String) (columns : List Column) : Except SchemaError Operation := do
  let (definitions, comments) ← defineColumns table columns
  return ⟨.createTable table definitions :: comments, [.dropTable table]⟩

/-- The operations that a step adds to a migration. -/
def operations : Step → Except SchemaError (List Operation)
  | .describe _ => .ok []
  | .createTable table columns => do return [← tableCreation table columns]
  | .dropTable table columns => do return [(← tableCreation table columns).inverse]
  | .addColumn table column => do
    let definition ← column.definition
    -- Dropping the column drops its comment, which therefore needs no undoing of its own.
    let comments := (columnComment table definition.name column).map fun comment =>
      (⟨[comment], []⟩ : Operation)
    return ⟨[.addColumn table definition], [.dropColumn table definition.name]⟩ :: comments
  | .dropColumn table column => do
    let definition ← column.definition
    let comments := columnComment table definition.name column
    return [⟨[.dropColumn table definition.name], .addColumn table definition :: comments⟩]
  | .setComment table column value previous =>
    let name := snakeCase column
    .ok [⟨[.commentOn table name value], [.commentOn table name previous]⟩]
  | .setConverter table column value previous =>
    let name := snakeCase column
    .ok [⟨[.commentOn table name (value.map Converter.comment)],
      [.commentOn table name (previous.map Converter.comment)]⟩]
  | .raw operation => .ok [operation]

/-- The comments of columns under the names that their definitions give them. -/
def columnComments (table : String) (definitions : List ColumnDefinition)
    (columns : List Column) : List Statement :=
  (definitions.zip columns).flatMap fun (definition, column) =>
    columnComment table definition.name column

/-- The statements that a step writes for its changes and for their undoing, as they run. -/
inductive Writes : Step → List Statement → List Statement → Prop
  | describe (text : String) : Writes (.describe text) [] []
  | createTable (table : String) {columns : List Column} {definitions : List ColumnDefinition}
      (sound : columns.map Column.definition = definitions.map .ok) :
      Writes (.createTable table columns)
        (.createTable table definitions :: columnComments table definitions columns)
        [.dropTable table]
  | dropTable (table : String) {columns : List Column} {definitions : List ColumnDefinition}
      (sound : columns.map Column.definition = definitions.map .ok) :
      Writes (.dropTable table columns) [.dropTable table]
        (.createTable table definitions :: columnComments table definitions columns)
  | addColumn (table : String) {column : Column} {definition : ColumnDefinition}
      (sound : column.definition = .ok definition) :
      Writes (.addColumn table column)
        (.addColumn table definition :: columnComment table definition.name column)
        [.dropColumn table definition.name]
  | dropColumn (table : String) {column : Column} {definition : ColumnDefinition}
      (sound : column.definition = .ok definition) :
      Writes (.dropColumn table column) [.dropColumn table definition.name]
        (.addColumn table definition :: columnComment table definition.name column)
  | setComment (table column : String) (value previous : Option String) :
      Writes (.setComment table column value previous)
        [.commentOn table (snakeCase column) value] [.commentOn table (snakeCase column) previous]
  | setConverter (table column : String) (value previous : Option Converter) :
      Writes (.setConverter table column value previous)
        [.commentOn table (snakeCase column) (value.map Converter.comment)]
        [.commentOn table (snakeCase column) (previous.map Converter.comment)]
  | raw (operation : Operation) : Writes (.raw operation) operation.up operation.down

section Writing

variable {table : String} {column : Column} {columns : List Column}
  {definitions : List ColumnDefinition} {comments : List Statement} {operations : List Operation}

/-- Columns are defined one after the other, and each has its comment. -/
theorem defineColumns_cons {rest : List Column} :
    defineColumns table (column :: rest) = .ok (definitions, comments) ↔
      ∃ definition others more, column.definition = .ok definition ∧
        defineColumns table rest = .ok (others, more) ∧ definitions = definition :: others ∧
        comments = columnComment table definition.name column ++ more := by
  -- The first column is defined before the others, and its comment stands before theirs.
  simp only [defineColumns]
  cases column.definition with
  | error error => simp [bind, Except.bind]
  | ok definition =>
    rcases defineColumns table rest with error | ⟨others, more⟩
    · simp [bind, Except.bind]
    · constructor
      · rintro ⟨⟩
        exact ⟨definition, others, more, rfl, rfl, rfl, rfl⟩
      · rintro ⟨_, _, _, ⟨⟩, ⟨⟩, rfl, rfl⟩
        rfl

/-- Columns are defined if each of them is sound, with the comments of all behind each other. -/
theorem defineColumns_eq_ok : defineColumns table columns = .ok (definitions, comments) ↔
    columns.map Column.definition = definitions.map .ok ∧
      comments = columnComments table definitions columns := by
  -- There are as many definitions as columns, so that both lists are taken apart together.
  induction columns generalizing definitions comments with
  | nil => cases definitions <;> simp [defineColumns, columnComments, eq_comm]
  | cons column rest ih =>
    rw [defineColumns_cons]
    constructor
    · rintro ⟨definition, others, more, own, further, rfl, rfl⟩
      obtain ⟨sound, rfl⟩ := ih.mp further
      exact ⟨by rw [List.map_cons, List.map_cons, own, sound], rfl⟩
    · rintro ⟨sound, rfl⟩
      cases definitions with
      | nil => simp at sound
      | cons definition others =>
        obtain ⟨own, further⟩ := List.cons.inj sound
        exact ⟨definition, others, _, own, ih.mpr ⟨further, rfl⟩, rfl, rfl⟩

/-- A table is created with definitions, followed by comments, and dropped as a whole. -/
theorem tableCreation_eq_ok {creation : Operation} :
    tableCreation table columns = .ok creation ↔
      ∃ definitions, columns.map Column.definition = definitions.map .ok ∧
        creation = ⟨.createTable table definitions :: columnComments table definitions columns,
          [.dropTable table]⟩ := by
  cases outcome : defineColumns table columns with
  | error error =>
    -- Definitions for all columns would be what the columns are defined as.
    simp only [tableCreation, outcome, bind, Except.bind, reduceCtorEq, false_iff]
    rintro ⟨definitions, sound, -⟩
    rw [defineColumns_eq_ok.mpr ⟨sound, rfl⟩] at outcome
    cases outcome
  | ok defined =>
    -- The definitions of the columns determine the statements and their order.
    obtain ⟨definitions, comments⟩ := defined
    simp only [tableCreation, outcome, bind, Except.bind, pure, Except.pure, Except.ok.injEq]
    constructor
    · rintro rfl
      obtain ⟨sound, rfl⟩ := defineColumns_eq_ok.mp outcome
      exact ⟨definitions, sound, rfl⟩
    · rintro ⟨others, sound, rfl⟩
      rw [defineColumns_eq_ok.mpr ⟨sound, rfl⟩] at outcome
      cases outcome
      rfl

/-- Creating a table is one operation. -/
theorem createTable_eq_ok : (createTable table columns).operations = .ok operations ↔
    ∃ creation, tableCreation table columns = .ok creation ∧ operations = [creation] := by
  -- The only thing that can fail is the creation.
  simp only [Step.operations]
  cases tableCreation table columns <;> simp [bind, Except.bind, pure, Except.pure, eq_comm]

/-- Dropping a table is the inverse operation. -/
theorem dropTable_eq_ok : (dropTable table columns).operations = .ok operations ↔
    ∃ creation, tableCreation table columns = .ok creation ∧ operations = [creation.inverse] := by
  -- The only thing that can fail is the creation, which is then turned round.
  simp only [Step.operations]
  cases tableCreation table columns <;> simp [bind, Except.bind, pure, Except.pure, eq_comm]

/-- Adding a column is one operation, and its comment another one without an undoing. -/
theorem addColumn_eq_ok : (addColumn table column).operations = .ok operations ↔
    ∃ definition, column.definition = .ok definition ∧
      operations = ⟨[.addColumn table definition], [.dropColumn table definition.name]⟩ ::
        (columnComment table definition.name column).map fun comment => ⟨[comment], []⟩ := by
  -- The only thing that can fail is the definition of the column.
  simp only [Step.operations]
  cases column.definition <;> simp [bind, Except.bind, pure, Except.pure, eq_comm]

/-- Dropping a column is one operation, which adds it again together with its comment. -/
theorem dropColumn_eq_ok : (dropColumn table column).operations = .ok operations ↔
    ∃ definition, column.definition = .ok definition ∧
      operations = [⟨[.dropColumn table definition.name],
        .addColumn table definition :: columnComment table definition.name column⟩] := by
  -- The only thing that can fail is the definition of the column.
  simp only [Step.operations]
  cases column.definition <;> simp [bind, Except.bind, pure, Except.pure, eq_comm]

/-- A step adds operations exactly if it writes their statements, with the last one undone first. -/
theorem writes_iff {step : Step} {up down : List Statement} : step.Writes up down ↔
    ∃ operations, step.operations = .ok operations ∧ up = operations.flatMap Operation.up ∧
      down = operations.reverse.flatMap Operation.down := by
  constructor
  · intro writes
    -- Each step is told by what it adds, from which its statements are gathered.
    cases writes with
    | createTable table sound =>
      exact ⟨_, createTable_eq_ok.mpr ⟨_, tableCreation_eq_ok.mpr ⟨_, sound, rfl⟩, rfl⟩,
        by simp, by simp⟩
    | dropTable table sound =>
      exact ⟨_, dropTable_eq_ok.mpr ⟨_, tableCreation_eq_ok.mpr ⟨_, sound, rfl⟩, rfl⟩,
        by simp [Operation.inverse], by simp [Operation.inverse]⟩
    | addColumn table sound =>
      -- The comment is an operation of its own, without anything that undoes it.
      refine ⟨_, addColumn_eq_ok.mpr ⟨_, sound, rfl⟩, ?_, ?_⟩
      · simp [List.flatMap_map]
      · simp [← List.map_reverse, List.flatMap_map]
    | dropColumn table sound => exact ⟨_, dropColumn_eq_ok.mpr ⟨_, sound, rfl⟩, by simp, by simp⟩
    | describe | setComment | setConverter => exact ⟨_, rfl, rfl, rfl⟩
    | raw operation => exact ⟨_, rfl, by simp, by simp⟩
  · rintro ⟨operations, adds, rfl, rfl⟩
    -- The operations are known for each kind of step, if there are any.
    cases step with
    | createTable table columns =>
      obtain ⟨creation, created, rfl⟩ := createTable_eq_ok.mp adds
      obtain ⟨definitions, sound, rfl⟩ := tableCreation_eq_ok.mp created
      simpa using Writes.createTable table sound
    | dropTable table columns =>
      obtain ⟨creation, created, rfl⟩ := dropTable_eq_ok.mp adds
      obtain ⟨definitions, sound, rfl⟩ := tableCreation_eq_ok.mp created
      simpa [Operation.inverse] using Writes.dropTable table sound
    | addColumn table column =>
      obtain ⟨definition, sound, rfl⟩ := addColumn_eq_ok.mp adds
      have unmarked : (columnComment table definition.name column).reverse.flatMap
          (fun _ => ([] : List Statement)) = [] := by simp
      simpa [← List.map_reverse, List.flatMap_map, unmarked] using Writes.addColumn table sound
    | dropColumn table column =>
      obtain ⟨definition, sound, rfl⟩ := dropColumn_eq_ok.mp adds
      simpa using Writes.dropColumn table sound
    | describe text =>
      cases adds
      exact .describe text
    | setComment table column value previous =>
      cases adds
      exact .setComment ..
    | setConverter table column value previous =>
      cases adds
      exact .setConverter ..
    | raw operation =>
      cases adds
      simpa using Writes.raw operation

end Writing

end Step

namespace Blueprint

/-- What a migration is described as that was given no description. -/
def noDescription : String := "No description specified"

/-- A blueprint with one more step, unless the step is flawed. -/
def add (blueprint : Blueprint) (step : Step) : Except SchemaError Blueprint :=
  match step, blueprint.description with
  | .describe _, some _ => .error .secondDescription
  | .describe text, none => .ok { blueprint with description := some text }
  | step, _ => do
    return { blueprint with operations := blueprint.operations ++ (← step.operations) }

/-- A blueprint with the steps up to the first flawed one, whose error is returned with it. -/
def addAll (blueprint : Blueprint) : List Step → Blueprint × Option SchemaError
  | [] => (blueprint, none)
  | step :: rest =>
    match blueprint.add step with
    | .ok blueprint => blueprint.addAll rest
    | .error error => (blueprint, some error)

/-- The migration that does the operations in order, and undoes them in reverse. -/
def compile (blueprint : Blueprint) : CompiledMigration where
  description := blueprint.description.getD noDescription
  up := "\n".intercalate (blueprint.operations.map Operation.upText)
  down := "\n".intercalate (blueprint.operations.reverse.map Operation.downText)

end Blueprint

/-- The migration that some steps define, or the error of the first flawed one. -/
def compileSteps (steps : List Step) : Except SchemaError CompiledMigration :=
  match (Blueprint.addAll {} steps) with
  | (blueprint, none) => .ok blueprint.compile
  | (_, some error) => .error error

end SchemaLedger
