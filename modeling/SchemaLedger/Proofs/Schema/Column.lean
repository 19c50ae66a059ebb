import SchemaLedger.Schema.Blueprint
import SchemaLedger.Proofs.Text.Snake

/-! A column is defined unless it has a flaw, and known by a name under which it is found again unless
the name hides a capital. -/

namespace SchemaLedger

namespace Column

/-- A column that lacks nothing: a name, either a type or a reference, and for a default value a
literal. -/
structure Complete (column : Column) : Prop where
  named : column.name.isSome = true
  typed : column.type.isSome ≠ column.references.isSome
  quotable : ∀ value, column.default = some value → ∃ text, value.literal = .ok text

/-- The first flaw of a column, and the error that it is refused with. -/
inductive Flawed (column : Column) : SchemaError → Prop
  | unnamed (missing : column.name = none) : Flawed column (.invalidColumn unnamed .noName)
  | overspecified {name : String} (named : column.name = some name)
    (both : column.type.isSome = true ∧ column.references.isSome = true) :
    Flawed column (.invalidColumn name .typeAndReference)
  | unspecified {name : String} (named : column.name = some name)
    (neither : column.type = none ∧ column.references = none) :
    Flawed column (.invalidColumn name .neitherTypeNorReference)
  | unquotable {value : DefaultValue} {error : SchemaError} (named : column.name.isSome = true)
    (typed : column.type.isSome ≠ column.references.isSome) (given : column.default = some value)
    (refused : value.literal = .error error) : Flawed column error

variable {column : Column} {error : SchemaError}

/-- A column without a name is refused. -/
theorem requireName_eq_error : column.requireName = .error error ↔
    column.name = none ∧ error = .invalidColumn unnamed .noName := by
  -- A column has a name or it has none.
  cases named : column.name <;> simp [requireName, flawed, named, eq_comm]

/-- A column with both a type and a reference is refused, and one with neither. -/
theorem typeClause_eq_error : column.typeClause = .error error ↔
    (column.type.isSome = true ∧ column.references.isSome = true) ∧
        error = column.flawed .typeAndReference ∨
      (column.type = none ∧ column.references = none) ∧
        error = column.flawed .neitherTypeNorReference := by
  -- The cases are which of type and reference are given; exactly one has to be.
  cases typed : column.type <;> cases referring : column.references <;>
    simp [typeClause, typed, referring, eq_comm]

/-- A type or a reference alone makes a clause. -/
theorem typeClause_eq_ok : (∃ clause, column.typeClause = .ok clause) ↔
    column.type.isSome ≠ column.references.isSome := by
  -- The cases are which of type and reference are given; exactly one has to be.
  cases typed : column.type <;> cases referring : column.references <;>
    simp [typeClause, typed, referring]

/-- A default value without a literal is refused with the error of the value. -/
theorem defaultClauses_eq_error : column.defaultClauses = .error error ↔
    ∃ value, column.default = some value ∧ value.literal = .error error := by
  -- A default fails only if it has no literal.
  cases given : column.default with
  | none => simp [defaultClauses, given]
  | some value =>
    cases literal : value.literal <;>
      simp [defaultClauses, given, literal, bind, Except.bind, pure, Except.pure]

/-- A column is defined under its name. -/
theorem requireName_of_definition {definition : ColumnDefinition}
    (defined : column.definition = .ok definition) : column.requireName = .ok definition.name := by
  -- A definition is made only of a name, a type clause and default clauses that all succeed.
  cases named : column.requireName with
  | error error => simp [Column.definition, named, bind, Except.bind] at defined
  | ok name =>
    cases typed : column.typeClause <;> cases given : column.defaultClauses <;>
      simp [Column.definition, named, typed, given, bind, Except.bind, pure, Except.pure] at defined
    simp [← defined]

/-- The name is looked at first, then the type and the reference, then the default value. -/
theorem definition_eq_error_iff : column.definition = .error error ↔
    column.requireName = .error error ∨ column.name.isSome = true ∧
      (column.typeClause = .error error ∨ (∃ clause, column.typeClause = .ok clause) ∧
        column.defaultClauses = .error error) := by
  -- The three parts are tried in order, and the first that fails is reported.
  cases named : column.name with
  | none => simp [definition, requireName, named, bind, Except.bind]
  | some name =>
    cases typed : column.typeClause <;> cases given : column.defaultClauses <;>
      simp [definition, requireName, named, typed, given, bind, Except.bind, pure, Except.pure]

/-- A column is refused with the error of its first flaw. -/
theorem definition_eq_error : column.definition = .error error ↔ column.Flawed error := by
  -- The three parts that can fail are the kinds of flaws, in the order they are tried.
  rw [definition_eq_error_iff, requireName_eq_error, typeClause_eq_error, typeClause_eq_ok,
    defaultClauses_eq_error]
  constructor
  · rintro (⟨missing, rfl⟩ | ⟨named, (⟨both, rfl⟩ | ⟨neither, rfl⟩) | ⟨typed, value, given, refused⟩⟩)
    · exact .unnamed missing
    · -- The error names the column, as the name has been found by then.
      obtain ⟨name, named⟩ := Option.isSome_iff_exists.mp named
      rw [flawed, named]
      exact .overspecified named both
    · obtain ⟨name, named⟩ := Option.isSome_iff_exists.mp named
      rw [flawed, named]
      exact .unspecified named neither
    · exact .unquotable named typed given refused
  · rintro (missing | ⟨named, both⟩ | ⟨named, neither⟩ | ⟨named, typed, given, refused⟩)
    · exact .inl ⟨missing, rfl⟩
    · exact .inr ⟨by simp [named], .inl (.inl ⟨both, by simp [flawed, named]⟩)⟩
    · exact .inr ⟨by simp [named], .inl (.inr ⟨neither, by simp [flawed, named]⟩)⟩
    · exact .inr ⟨named, .inr ⟨typed, _, given, refused⟩⟩

/-- A column has a flaw exactly if it lacks something. -/
theorem exists_flawed : (∃ error, column.Flawed error) ↔ ¬ column.Complete := by
  constructor
  · rintro ⟨error, flawed⟩ ⟨named, typed, quotable⟩
    -- Each flaw contradicts one of the three parts of being complete.
    cases flawed with
    | unnamed missing => simp [missing] at named
    | overspecified _ both => simp [both] at typed
    | unspecified _ neither => simp [neither] at typed
    | unquotable _ _ given refused =>
      obtain ⟨text, literal⟩ := quotable _ given
      rw [refused] at literal
      cases literal
  · intro incomplete
    cases named : column.name with
    | none => exact ⟨_, .unnamed named⟩
    | some name =>
      by_cases typed : column.type.isSome = column.references.isSome
      · -- Type and reference are both given or both missing, and either is a flaw.
        cases type : column.type with
        | none => exact ⟨_, .unspecified named ⟨type, by simpa [type] using typed⟩⟩
        | some type' => exact ⟨_, .overspecified named ⟨by simp [type], by simpa [type] using typed⟩⟩
      · -- What is left to lack is a literal for the default value.
        by_contra sound
        refine incomplete ⟨by simp [named], typed, fun value given => ?_⟩
        cases literal : value.literal with
        | ok text => exact ⟨text, rfl⟩
        | error error => exact absurd ⟨error, .unquotable (by simp [named]) typed given literal⟩ sound

/-- A column is defined exactly if it lacks nothing. -/
theorem definition_eq_ok : (∃ definition, column.definition = .ok definition) ↔ column.Complete := by
  -- A column is complete if it has no flaw, and a flaw is an error of its definition.
  rw [← not_iff_not, ← exists_flawed]
  simp only [← definition_eq_error]
  cases column.definition <;> simp

section Addressing

/-- A name given back as it is known names the same column, and has a step address the same column,
exactly if all capitals of the name are noticed. -/
theorem addressed_again_iff (name : String) :
    (snakeCase (snakeCase name) = snakeCase name ↔ Noticed name) ∧
      (∀ column : Column,
        column.named (snakeCase name) = column.named name ↔ Noticed name) ∧
      ∀ (table : String) (value previous : Option String),
        (Step.setComment table (snakeCase name) value previous).operations =
          (Step.setComment table name value previous).operations ↔ Noticed name := by
  -- Columns and comments are addressed by the name, so that all three say the same of it.
  have settled := snakeCase_settled_iff name
  refine ⟨settled, fun column => ?_, fun table value previous => ?_⟩
  · simp [named, settled]
  · simp [Step.operations, settled]

/-- A capital without a small letter stands behind another one, and opens a word only once that one
has become small. -/
theorem known_name_names_another :
    let column := ({} : Column).named "Aℂ"
    column.name = some "aℂ" ∧ (column.named "aℂ").name = some "a_ℂ" ∧
      snakeCase (snakeCase "Aℂ") ≠ snakeCase "Aℂ" := by
  -- The letter ℂ is a capital without a lowercase form.
  decide +kernel

end Addressing

end Column

end SchemaLedger
