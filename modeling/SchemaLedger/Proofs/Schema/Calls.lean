import SchemaLedger.Proofs.Schema.Blueprint
import SchemaLedger.Proofs.Schema.Column

/-! A call adds all that it stands for or nothing at all, and is refused exactly for a flawed column
or a second description. -/

namespace SchemaLedger

/-- The first of some columns that lacks something decides for which error they are refused. -/
def FirstFlaw (columns : List Column) (error : SchemaError) : Prop :=
  ∃ before column after, columns = before ++ column :: after ∧
    (∀ earlier ∈ before, earlier.Complete) ∧ column.Flawed error

section Columns

variable {column : Column} {columns : List Column} {error : SchemaError}

/-- Without columns there is no flaw. -/
theorem not_firstFlaw_nil : ¬ FirstFlaw [] error := by
  -- Among no columns there is none with a flaw.
  rintro ⟨before, found, after, split, -⟩
  simp at split

/-- Columns have a first flaw if the first of them has, or else the others. -/
theorem firstFlaw_cons : FirstFlaw (column :: columns) error ↔
    column.Flawed error ∨ column.Complete ∧ FirstFlaw columns error := by
  -- The first flaw is that of the first column or lies behind it.
  constructor
  · rintro ⟨_ | ⟨first, before⟩, found, after, split, sound, flawed⟩
    · obtain ⟨rfl, rfl⟩ := List.cons.inj split
      exact .inl flawed
    · obtain ⟨rfl, rfl⟩ := List.cons.inj split
      obtain ⟨complete, others⟩ := List.forall_mem_cons.mp sound
      exact .inr ⟨complete, before, found, after, rfl, others, flawed⟩
  · rintro (flawed | ⟨complete, before, found, after, rfl, sound, flawed⟩)
    · exact ⟨[], column, columns, rfl, List.forall_mem_nil _, flawed⟩
    · exact ⟨column :: before, found, after, rfl, List.forall_mem_cons.mpr ⟨complete, sound⟩, flawed⟩

/-- Columns have a first flaw exactly if one of them lacks something. -/
theorem exists_firstFlaw :
    (∃ error, FirstFlaw columns error) ↔ ∃ column ∈ columns, ¬ column.Complete := by
  -- By induction on the columns: there is a first flaw if there is any.
  induction columns with
  | nil => simp [not_firstFlaw_nil]
  | cons column rest ih =>
    simp only [firstFlaw_cons, exists_or, exists_and_left, ih, Column.exists_flawed,
      List.exists_mem_cons_iff]
    by_cases complete : column.Complete <;> simp [complete]

/-- Columns are refused for their first flaw. -/
theorem Step.defineColumns_eq_error (table : String) :
    defineColumns table columns = .error error ↔ FirstFlaw columns error := by
  induction columns with
  | nil => exact iff_of_false nofun not_firstFlaw_nil
  | cons column rest ih =>
    -- The rest is only looked at behind a column that is defined.
    rw [firstFlaw_cons, ← Column.definition_eq_error, ← Column.definition_eq_ok, ← ih]
    cases defined : column.definition with
    | error first => simp [defineColumns, defined, bind, Except.bind]
    | ok definition =>
      cases later : defineColumns table rest <;>
        simp [defineColumns, defined, later, bind, Except.bind, pure, Except.pure]

end Columns

namespace Step

variable {step : Step} {operations : List Operation} {error : SchemaError}

/-- The columns that a step is given. -/
def givenColumns : Step → List Column
  | .createTable _ columns | .dropTable _ columns => columns
  | .addColumn _ column | .dropColumn _ column => [column]
  | _ => []

/-- The number of operations that a step adds: one, and another one for the comment of an added
column, but none for a description. -/
def addedCount : Step → Nat
  | .describe _ => 0
  | .addColumn _ column => if column.comment.isSome then 2 else 1
  | _ => 1

/-- A step is refused for the first flaw among its columns. -/
theorem operations_eq_error :
    step.operations = .error error ↔ FirstFlaw step.givenColumns error := by
  -- Steps are told apart by the columns they are given: several, one or none.
  cases step with
  | createTable table columns | dropTable table columns =>
    rw [givenColumns, ← defineColumns_eq_error table]
    cases defined : defineColumns table columns <;>
      simp [Step.operations, tableCreation, defined, bind, Except.bind, pure, Except.pure]
  | addColumn table column | dropColumn table column =>
    rw [givenColumns, firstFlaw_cons, ← Column.definition_eq_error]
    cases defined : column.definition <;>
      simp [Step.operations, defined, not_firstFlaw_nil, bind, Except.bind, pure, Except.pure]
  | _ => simp [Step.operations, givenColumns, not_firstFlaw_nil]

/-- A sound step adds as many operations as it counts. -/
theorem length_operations (sound : step.operations = .ok operations) :
    operations.length = step.addedCount := by
  -- By the kind of step: only an added column with a comment makes a second operation.
  cases step with
  | createTable table columns =>
    obtain ⟨creation, -, rfl⟩ := createTable_eq_ok.mp sound
    rfl
  | dropTable table columns =>
    obtain ⟨creation, -, rfl⟩ := dropTable_eq_ok.mp sound
    rfl
  | addColumn table column =>
    obtain ⟨definition, -, rfl⟩ := addColumn_eq_ok.mp sound
    -- The comment is an operation of its own, behind the one that adds the column.
    cases commented : column.comment <;> simp [columnComment, addedCount, commented]
  | dropColumn table column =>
    obtain ⟨definition, -, rfl⟩ := dropColumn_eq_ok.mp sound
    rfl
  | _ =>
    cases sound
    rfl

end Step

namespace Blueprint

/-- A blueprint refuses a step for the first flaw among its columns, and a second description. -/
inductive Refuses (blueprint : Blueprint) : Step → SchemaError → Prop
  | column {step : Step} {error : SchemaError} (flaw : FirstFlaw step.givenColumns error) :
    Refuses blueprint step error
  | description {text : String} (described : blueprint.description.isSome = true) :
    Refuses blueprint (.describe text) .secondDescription

variable {blueprint after : Blueprint} {step : Step} {steps : List Step} {error : SchemaError}

/-- A step is refused for its columns, or for being a description behind another one. -/
theorem refuses_iff : blueprint.Refuses step error ↔ FirstFlaw step.givenColumns error ∨
    (step.description?.isSome = true ∧ blueprint.description.isSome = true) ∧
      error = .secondDescription := by
  -- A refusal is about a column or about a second description.
  constructor
  · rintro (flaw | described)
    · exact .inl flaw
    · exact .inr ⟨⟨rfl, described⟩, rfl⟩
  · rintro (flaw | ⟨⟨describes, described⟩, rfl⟩)
    · exact .column flaw
    · cases step with
      | describe text => exact .description described
      | _ => cases describes

/-- A step is refused exactly if one of its columns lacks something, or it describes again. -/
theorem exists_refuses (blueprint : Blueprint) (step : Step) : (∃ error, blueprint.Refuses step error) ↔
    (∃ column ∈ step.givenColumns, ¬ column.Complete) ∨
      step.description?.isSome = true ∧ blueprint.description.isSome = true := by
  -- Each kind of refusal has an error of its own.
  simp [refuses_iff, exists_or, exists_firstFlaw]

/-- A step is not taken exactly if it is refused. -/
theorem add_eq_error : blueprint.add step = .error error ↔ blueprint.Refuses step error := by
  -- The description is the only step whose refusal depends on the calls before it.
  rw [refuses_iff, ← Step.operations_eq_error]
  cases step with
  | describe text =>
    cases described : blueprint.description <;>
      simp [add, described, Step.operations, Step.description?, eq_comm]
  | _ =>
    simp only [add, Step.description?]
    generalize Step.operations _ = outcome
    cases outcome <;> cases blueprint.description <;>
      simp [bind, Except.bind, pure, Except.pure]

/-- Steps are not all taken if one is refused by what those before it have built. -/
theorem addAll_eq_some : blueprint.addAll steps = (after, some error) ↔
    ∃ taken step rest, steps = taken ++ step :: rest ∧ blueprint.addAll taken = (after, none) ∧
      after.Refuses step error := by
  induction steps generalizing blueprint with
  | nil => simp [addAll]
  | cons step rest ih =>
    -- The first step is the one refused, or it is taken and the refusal comes later.
    cases outcome : blueprint.add step with
    | error first =>
      simp only [addAll, outcome, Prod.mk.injEq, Option.some.injEq]
      constructor
      · rintro ⟨rfl, rfl⟩
        exact ⟨[], step, rest, rfl, rfl, add_eq_error.mp outcome⟩
      · rintro ⟨_ | ⟨again, taken⟩, found, later, split, took, refuses⟩
        · obtain ⟨rfl, rfl⟩ := List.cons.inj split
          obtain rfl : blueprint = after := congrArg Prod.fst took
          exact ⟨rfl, Except.error.inj (outcome.symm.trans (add_eq_error.mpr refuses))⟩
        · obtain ⟨rfl, rfl⟩ := List.cons.inj split
          -- With the first step taken the chain would have failed at it already.
          simp [addAll, outcome] at took
    | ok next =>
      simp only [addAll, outcome, ih]
      constructor
      · rintro ⟨taken, found, later, rfl, took, refuses⟩
        exact ⟨step :: taken, found, later, rfl, by simp [addAll, outcome, took], refuses⟩
      · rintro ⟨_ | ⟨again, taken⟩, found, later, split, took, refuses⟩
        · -- The first step was taken.
          obtain ⟨rfl, rfl⟩ := List.cons.inj split
          obtain rfl : blueprint = after := congrArg Prod.fst took
          rw [add_eq_error.mpr refuses] at outcome
          cases outcome
        · obtain ⟨rfl, rfl⟩ := List.cons.inj split
          simp only [addAll, outcome] at took
          exact ⟨taken, found, later, rfl, took, refuses⟩

end Blueprint

/-- The building of a blueprint keeps what was added before a check fails. -/
abbrev Construction := EStateM SchemaError Blueprint

namespace Construction

/-- A check stops the building if it fails. -/
def check {α : Type} : Except SchemaError α → Construction α
  | .ok value => pure value
  | .error error => throw error

/-- Adds one operation to a blueprint. -/
def push (operation : Operation) : Construction Unit :=
  modify fun blueprint => { blueprint with operations := blueprint.operations ++ [operation] }

end Construction

/-- A step carried out piece by piece: checks where they stand, and operations one at a time. -/
def Step.construct : Step → Construction Unit
  | .describe text => do
    if (← get).description.isSome then throw .secondDescription
    modify fun blueprint => { blueprint with description := some text }
  | .createTable table columns => do
    Construction.push (← Construction.check (tableCreation table columns))
  | .dropTable table columns => do
    Construction.push (← Construction.check (tableCreation table columns)).inverse
  | .addColumn table column => do
    let name ← Construction.check column.requireName
    let definition ← Construction.check column.definition
    Construction.push ⟨[.addColumn table definition], [.dropColumn table name]⟩
    if let some comment := column.comment then
      Construction.push ⟨[.commentOn table name (some comment)], []⟩
  | .dropColumn table column => do
    let name ← Construction.check column.requireName
    let definition ← Construction.check column.definition
    Construction.push ⟨[.dropColumn table name],
      .addColumn table definition :: columnComment table name column⟩
  | .setComment table column value previous =>
    let name := snakeCase column
    Construction.push ⟨[.commentOn table name value], [.commentOn table name previous]⟩
  | .setConverter table column value previous =>
    let name := snakeCase column
    Construction.push ⟨[.commentOn table name (value.map Converter.comment)],
      [.commentOn table name (previous.map Converter.comment)]⟩
  | .raw operation => Construction.push operation

/-- Where a column is defined after its name is checked, it is defined as a whole. -/
theorem Construction.check_definition (column : Column)
    (next : String → ColumnDefinition → Construction Unit) (blueprint : Blueprint) :
    (do let name ← check column.requireName
        let definition ← check column.definition
        next name definition : Construction Unit) blueprint =
      match column.definition with
      | .ok definition => next definition.name definition blueprint
      | .error error => .error error blueprint := by
  cases defined : column.definition with
  | ok definition =>
    -- A column with a definition has the name that it is defined under.
    rw [column.requireName_of_definition defined]
    rfl
  | error error =>
    cases named : column.requireName with
    | ok name => rfl
    | error first =>
      -- The definition fails with the same error.
      have same := Column.definition_eq_error_iff.mpr (.inl named)
      rw [defined] at same
      obtain rfl := Except.error.inj same
      rfl

/-- A step that is carried out piece by piece leaves what it leaves as a whole: all checks come before
the first operation that is added. -/
theorem Step.construct_eq (step : Step) (blueprint : Blueprint) :
    step.construct blueprint = match blueprint.addAll [step] with
      | (next, none) => .ok () next
      | (next, some error) => .error error next := by
  -- Steps that check nothing add what they add at once.
  cases step with
  | describe text => obtain ⟨operations, _ | earlier⟩ := blueprint <;> rfl
  | createTable table columns | dropTable table columns =>
    simp only [construct, Blueprint.addAll, Blueprint.add, Step.operations]
    cases tableCreation table columns <;> rfl
  | addColumn table column =>
    rw [construct, Construction.check_definition]
    simp only [Blueprint.addAll, Blueprint.add, Step.operations, columnComment]
    cases column.definition with
    | error error => rfl
    | ok definition =>
      cases column.comment with
      | none => rfl
      | some comment =>
        -- Two operations added one at a time are added together.
        refine congrArg (EStateM.Result.ok ()) ?_
        exact congrArg (Blueprint.mk · blueprint.description) (List.append_assoc _ _ _)
  | dropColumn table column =>
    rw [construct, Construction.check_definition]
    simp only [Blueprint.addAll, Blueprint.add, Step.operations]
    cases column.definition <;> rfl
  | setComment | setConverter | raw => rfl

/-- What a single call does to a blueprint, with the error if there is one: it fails exactly for a
column that lacks something and for a second description, and then leaves the blueprint as it was;
otherwise it adds its operations, as many as it counts, behind those that are there. -/
structure SingleCall (blueprint : Blueprint) (step : Step) (after : Blueprint)
    (error? : Option SchemaError) : Prop where
  refused : error?.isSome = true ↔ (∃ column ∈ step.givenColumns, ¬ column.Complete) ∨
    step.description?.isSome = true ∧ blueprint.description.isSome = true
  kept : ∀ error, error? = some error → after = blueprint ∧ blueprint.Refuses step error
  added : error? = none → ∃ operations, step.operations = .ok operations ∧
    operations.length = step.addedCount ∧
    after = ⟨blueprint.operations ++ operations, blueprint.description.or step.description?⟩

/-- Every single call adds all that it stands for, or fails without a trace. -/
theorem singleCall (blueprint : Blueprint) (step : Step) :
    SingleCall blueprint step (blueprint.addAll [step]).1 (blueprint.addAll [step]).2 := by
  -- The outcome of the call decides which half of the claim is in question.
  have refused := blueprint.exists_refuses step
  cases outcome : blueprint.add step with
  | error error =>
    have refuses := Blueprint.add_eq_error.mp outcome
    simp only [Blueprint.addAll, outcome]
    refine ⟨iff_of_true rfl (refused.mp ⟨error, refuses⟩), fun found same => ?_, by simp⟩
    obtain rfl : error = found := Option.some.inj same
    exact ⟨rfl, refuses⟩
  | ok next =>
    obtain ⟨operations, sound, -, rfl⟩ := Blueprint.add_eq_ok.mp outcome
    simp only [Blueprint.addAll, outcome]
    refine ⟨iff_of_false (by simp) fun refusal => ?_, by simp, fun _ => ?_⟩
    · -- Had it been refused, the call would have failed.
      obtain ⟨error, refuses⟩ := refused.mpr refusal
      rw [Blueprint.add_eq_error.mpr refuses] at outcome
      cases outcome
    · refine ⟨operations, sound, step.length_operations sound, ?_⟩
      cases blueprint.description <;> simp

/-- Steps do not compile if they are not all taken. -/
theorem compileSteps_eq_error {steps : List Step} {error : SchemaError} :
    compileSteps steps = .error error ↔
      ∃ after, Blueprint.addAll {} steps = (after, some error) := by
  -- Compiling fails exactly if one of the calls does.
  rcases outcome : Blueprint.addAll {} steps with ⟨blueprint, _ | first⟩ <;>
    simp [compileSteps, outcome]

/-- Calls are carried out as a whole, also piece by piece; a chain of calls that fails keeps what the
calls before the failing one have added, and a migration fails with the first error of its calls. -/
theorem calls_atomic :
    (∀ blueprint step,
      SingleCall blueprint step (blueprint.addAll [step]).1 (blueprint.addAll [step]).2) ∧
    (∀ (blueprint : Blueprint) (step : Step),
      step.construct blueprint = match blueprint.addAll [step] with
        | (next, none) => .ok () next
        | (next, some error) => .error error next) ∧
    (∀ (blueprint : Blueprint) steps after error, blueprint.addAll steps = (after, some error) →
      ∃ taken step rest added, steps = taken ++ step :: rest ∧ Step.Adds taken added ∧
        after.operations = blueprint.operations ++ added.flatten ∧ after.Refuses step error) ∧
    ∀ steps error, compileSteps steps = .error error ↔
      ∃ between taken step rest, steps = taken ++ step :: rest ∧
        Blueprint.addAll {} taken = (between, none) ∧ between.Refuses step error := by
  refine ⟨singleCall, fun blueprint step => step.construct_eq blueprint, ?_, ?_⟩
  · intro blueprint steps after error failed
    obtain ⟨taken, step, rest, split, took, refuses⟩ := Blueprint.addAll_eq_some.mp failed
    -- The calls before the one that fails have each added their operations.
    obtain ⟨added, adds, -, rfl⟩ := Blueprint.addAll_eq_none.mp took
    exact ⟨taken, step, rest, added, split, adds, rfl, refuses⟩
  · intro steps error
    simp only [compileSteps_eq_error, Blueprint.addAll_eq_some]

/-- A column with a comment is added, and then a table is refused for its second column, which has no
name, although the third one has no type. -/
theorem calls_atomic_sample :
    let steps : List Step :=
      [.addColumn "users" { name := some "age", type := some "integer", comment := some "years" },
        .createTable "posts" [{ name := some "title", type := some "text" },
          { type := some "text" }, { name := some "body" }]]
    let after : Blueprint :=
      { operations := [
          ⟨[.addColumn "users" ⟨"age", ["integer", "not null"]⟩], [.dropColumn "users" "age"]⟩,
          ⟨[.commentOn "users" "age" (some "years")], []⟩] }
    Blueprint.addAll {} steps = (after, some (.invalidColumn "<unnamed>" .noName)) ∧
      ∃ taken step rest added, steps = taken ++ step :: rest ∧ Step.Adds taken added ∧
        after.operations = added.flatten ∧
        after.Refuses step (.invalidColumn "<unnamed>" .noName) := by
  intro steps after
  -- The second call is flawed in its second column, and adds nothing.
  have failed : Blueprint.addAll {} steps =
      (after, some (.invalidColumn "<unnamed>" .noName)) := by decide
  exact ⟨failed, calls_atomic.2.2.1 {} steps after _ failed⟩

end SchemaLedger
