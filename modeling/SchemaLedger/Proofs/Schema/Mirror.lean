import SchemaLedger.Proofs.Schema.Blueprint
import SchemaLedger.Proofs.Text.Lines

/-! Steps told backwards, each turned around, compile into the same scripts with their roles swapped. -/

namespace SchemaLedger

namespace Operation

/-- An operation turned around twice is the operation itself. -/
@[simp] theorem inverse_inverse (operation : Operation) : operation.inverse.inverse = operation :=
  rfl

/-- The forward script of an inverse is the script that undoes. -/
@[simp] theorem upText_inverse (operation : Operation) :
    operation.inverse.upText = operation.downText := rfl

/-- The undoing script of an inverse is the forward script. -/
@[simp] theorem downText_inverse (operation : Operation) :
    operation.inverse.downText = operation.upText := rfl

end Operation

namespace Step

/-- The step that undoes a step; a description stays what it is. -/
def mirror : Step → Step
  | .describe text => .describe text
  | .createTable table columns => .dropTable table columns
  | .dropTable table columns => .createTable table columns
  | .addColumn table column => .dropColumn table column
  | .dropColumn table column => .addColumn table column
  | .setComment table column value previous => .setComment table column previous value
  | .setConverter table column value previous => .setConverter table column previous value
  | .raw operation => .raw operation.inverse

/-- The steps that undo some steps, the last of them first. -/
def mirrorAll (steps : List Step) : List Step := (steps.map mirror).reverse

/-- The column that a step adds to a table or drops from it. -/
def movedColumn? : Step → Option Column
  | .addColumn _ column | .dropColumn _ column => some column
  | _ => none

/-- A step turned around twice is the step itself. -/
@[simp] theorem mirror_mirror (step : Step) : step.mirror.mirror = step := by
  -- Creating and dropping change places twice.
  cases step <;> simp [mirror]

/-- Steps told backwards twice are told forwards. -/
@[simp] theorem mirrorAll_mirrorAll (steps : List Step) : mirrorAll (mirrorAll steps) = steps := by
  -- The order is turned round twice, and so is each step.
  simp [mirrorAll, Function.comp_def]

/-- Turning steps around reverses the order of their descriptions. -/
theorem descriptions_mirrorAll (steps : List Step) :
    descriptions (mirrorAll steps) = (descriptions steps).reverse := by
  -- A step and its mirror are described alike, and the order is turned round.
  have same (step : Step) : step.mirror.description? = step.description? := by
    cases step <;> rfl
  simp [descriptions, mirrorAll, List.filterMap_map, same]

end Step

/-- The lines of a script are those of its statements. -/
theorem Statement.filledLines_script (statements : List Statement) :
    filledLines (script statements) =
      statements.flatMap fun statement => filledLines statement.text := by
  -- Statements are joined by line ends, which no line holds.
  rw [script, filledLines_intercalate, List.flatMap_map]

/-- Operations are undone by others, and undo those, except for empty lines. -/
structure Undone (operations mirrored : List Operation) : Prop where
  up : (mirrored.map Operation.upText).flatMap filledLines =
    (operations.reverse.map Operation.downText).flatMap filledLines
  down : (mirrored.reverse.map Operation.downText).flatMap filledLines =
    (operations.map Operation.upText).flatMap filledLines

namespace Undone

variable {first second firstMirrored secondMirrored operations mirrored : List Operation}

/-- Inverse operations in reverse order undo exactly. -/
theorem of_inverse (operations : List Operation) :
    Undone operations (operations.map Operation.inverse).reverse where
  up := by simp [Function.comp_def]
  down := by simp [Function.comp_def]

/-- What is done first is undone last. -/
theorem append (one : Undone first firstMirrored) (other : Undone second secondMirrored) :
    Undone (first ++ second) (secondMirrored ++ firstMirrored) where
  -- Undoing goes the other way, so that the second list is undone first.
  up := by
    simp only [List.reverse_append, List.map_append, List.flatMap_append, one.up, other.up]
  down := by
    simp only [List.reverse_append, List.map_append, List.flatMap_append, one.down, other.down]

/-- Of two lists of operations that undo each other either may be done first. -/
theorem symm (undone : Undone operations mirrored) : Undone mirrored operations :=
  -- Each of the two directions is the other one's.
  ⟨undone.down.symm, undone.up.symm⟩

/-- Adding a column takes one more operation for its comment, which leaves an empty line behind. -/
theorem of_column (table : String) (definition : ColumnDefinition) (comments : List Statement) :
    Undone
      (⟨[.addColumn table definition], [.dropColumn table definition.name]⟩ ::
        comments.map fun comment => ⟨[comment], []⟩)
      [⟨[.dropColumn table definition.name], .addColumn table definition :: comments⟩] where
  -- One operation drops what several add, in the order in which they add it.
  up := by simp [Operation.upText, Operation.downText, Statement.filledLines_script]
  down := by
    simp [Operation.upText, Operation.downText, Statement.filledLines_script, List.flatMap_map]

/-- The scripts of operations differ from those of their mirror in empty lines at most. -/
theorem compiled (undone : Undone operations mirrored) (description : Option String) :
    withoutEmptyLines (Blueprint.compile ⟨mirrored, description⟩).up =
        withoutEmptyLines (Blueprint.compile ⟨operations, description⟩).down ∧
      withoutEmptyLines (Blueprint.compile ⟨mirrored, description⟩).down =
        withoutEmptyLines (Blueprint.compile ⟨operations, description⟩).up := by
  -- Compiling joins the texts of the operations, whose filled lines agree.
  simp only [withoutEmptyLines, Blueprint.compile, filledLines_intercalate, undone.up, undone.down,
    and_self]

end Undone

namespace Step

variable {step : Step} {operations : List Operation}

/-- The mirror of a sound step is sound, and undoes what the step does. -/
theorem mirror_operations (sound : step.operations = .ok operations) :
    ∃ mirrored, step.mirror.operations = .ok mirrored ∧ Undone operations mirrored ∧
      ((∀ column, step.movedColumn? = some column → column.comment = none) →
        mirrored = (operations.map Operation.inverse).reverse) := by
  cases step with
  | describe text =>
    cases sound
    exact ⟨[], rfl, .of_inverse [], fun _ => rfl⟩
  | setComment | setConverter | raw =>
    -- These add one operation, whose sides the mirror exchanges.
    cases sound
    exact ⟨_, rfl, .of_inverse _, fun _ => rfl⟩
  | createTable table columns =>
    obtain ⟨creation, created, rfl⟩ := createTable_eq_ok.mp sound
    exact ⟨_, dropTable_eq_ok.mpr ⟨creation, created, rfl⟩, .of_inverse _, fun _ => rfl⟩
  | dropTable table columns =>
    obtain ⟨creation, created, rfl⟩ := dropTable_eq_ok.mp sound
    exact ⟨_, createTable_eq_ok.mpr ⟨creation, created, rfl⟩, .of_inverse _, fun _ => rfl⟩
  | addColumn table column =>
    obtain ⟨definition, defined, rfl⟩ := addColumn_eq_ok.mp sound
    refine ⟨_, dropColumn_eq_ok.mpr ⟨definition, defined, rfl⟩, .of_column .., fun plain => ?_⟩
    -- Without a comment there is one operation in either direction.
    simp [columnComment, plain column rfl, Operation.inverse]
  | dropColumn table column =>
    obtain ⟨definition, defined, rfl⟩ := dropColumn_eq_ok.mp sound
    refine ⟨_, addColumn_eq_ok.mpr ⟨definition, defined, rfl⟩, (Undone.of_column ..).symm,
      fun plain => ?_⟩
    simp [columnComment, plain column rfl, Operation.inverse]

/-- The mirror of sound steps is sound, and undoes what the steps do. -/
theorem mirrorAll_adds {steps : List Step} {added : List (List Operation)}
    (adds : Adds steps added) :
    ∃ mirrored, Adds (mirrorAll steps) mirrored ∧ Undone added.flatten mirrored.flatten ∧
      ((∀ step ∈ steps, ∀ column, step.movedColumn? = some column → column.comment = none) →
        mirrored.flatten = (added.flatten.map Operation.inverse).reverse) := by
  -- The mirror of the first step comes last, behind that of all others.
  induction adds with
  | nil => exact ⟨[], .nil, .of_inverse [], fun _ => rfl⟩
  | @cons step operations rest others sound _ ih =>
    obtain ⟨first, reversed, undone, exactly⟩ := mirror_operations sound
    obtain ⟨later, adds, lastUndone, lastExactly⟩ := ih
    refine ⟨later ++ [first], ?_, ?_, fun plain => ?_⟩
    · rw [mirrorAll, List.map_cons, List.reverse_cons]
      exact List.rel_append adds (.cons reversed .nil)
    · -- Either side takes the operations of the first step to its other end.
      simpa using undone.append lastUndone
    · have one := exactly fun column moved => plain step List.mem_cons_self column moved
      have many := lastExactly fun other member => plain other (List.mem_cons_of_mem _ member)
      simp [one, many]

end Step

/-- What the scripts of mirrored steps have in common with those of the steps themselves. -/
structure Reflects (steps : List Step) (mirrored compiled : CompiledMigration) : Prop where
  description : mirrored.description = compiled.description
  up : withoutEmptyLines mirrored.up = withoutEmptyLines compiled.down
  down : withoutEmptyLines mirrored.down = withoutEmptyLines compiled.up
  /-- Only a column that is moved with its comment leaves an empty line behind. -/
  exactly : (∀ step ∈ steps, ∀ column, step.movedColumn? = some column → column.comment = none) →
    mirrored.up = compiled.down ∧ mirrored.down = compiled.up

/-- Where steps compile their mirror does, and its scripts reflect theirs. -/
theorem compiled_mirror {steps : List Step} {compiled : CompiledMigration}
    (succeeded : compileSteps steps = .ok compiled) :
    ∃ mirrored, compileSteps (Step.mirrorAll steps) = .ok mirrored ∧
      Reflects steps mirrored compiled := by
  obtain ⟨added, adds, few, rfl⟩ := compileSteps_eq_ok.mp succeeded
  obtain ⟨reversed, mirrors, undone, exactly⟩ := Step.mirrorAll_adds adds
  -- There is one description at most, so that its place does not matter.
  have described : Step.descriptions (Step.mirrorAll steps) = Step.descriptions steps := by
    rw [Step.descriptions_mirrorAll]
    match Step.descriptions steps, few with
    | [], _ | [_], _ => rfl
  refine ⟨_, compileSteps_eq_ok.mpr ⟨reversed, mirrors, described ▸ few, rfl⟩, ?_⟩
  rw [described]
  obtain ⟨up, down⟩ := undone.compiled (Step.descriptions steps).head?
  refine ⟨rfl, up, down, fun plain => ?_⟩
  -- The operations are inverse one by one, so that the lines are the same one by one.
  simp [Blueprint.compile, exactly plain, Function.comp_def]

/-- Steps compile exactly if their mirror does, and then the two have each other's scripts. -/
theorem mirror_compiles (steps : List Step) :
    ((Blueprint.addAll {} (Step.mirrorAll steps)).2 = none ↔
      (Blueprint.addAll {} steps).2 = none) ∧
    ∀ compiled, compileSteps steps = .ok compiled →
      ∃ mirrored, compileSteps (Step.mirrorAll steps) = .ok mirrored ∧
        Reflects steps mirrored compiled := by
  refine ⟨?_, fun compiled succeeded => compiled_mirror succeeded⟩
  rw [addAll_sound_iff, addAll_sound_iff]
  constructor
  · rintro ⟨mirrored, succeeded⟩
    -- The mirror of the mirror are the steps themselves.
    obtain ⟨compiled, again, _⟩ := compiled_mirror succeeded
    exact ⟨compiled, by simpa using again⟩
  · rintro ⟨compiled, succeeded⟩
    obtain ⟨mirrored, again, _⟩ := compiled_mirror succeeded
    exact ⟨mirrored, again⟩

/-- A table and a column with a comment, whose undoing starts with an empty line. -/
theorem mirror_compiles_sample :
    let steps := [.createTable "t" [{ name := some "a", type := some "text" }],
      .addColumn "t" { name := some "c", type := some "text", comment := some "x" }]
    let compiled : CompiledMigration := ⟨"No description specified",
      "create table \"t\" (\n  id serial primary key,\n  \"a\" text not null\n);\n" ++
        "alter table \"t\" add column \"c\" text not null;\n" ++
        "comment on column \"t\".\"c\" is $$x$$;",
      "\nalter table \"t\" drop column \"c\";\ndrop table \"t\";"⟩
    compileSteps steps = .ok compiled ∧
      ∃ mirrored, compileSteps (Step.mirrorAll steps) = .ok mirrored ∧
        Reflects steps mirrored compiled := by
  intro steps compiled
  -- A comment has no undoing of its own, which leaves an empty line in the down script.
  have succeeded : compileSteps steps = .ok compiled := by decide +kernel
  exact ⟨succeeded, (mirror_compiles steps).2 compiled succeeded⟩

end SchemaLedger
