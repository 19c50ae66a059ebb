import Mathlib.Data.List.Forall2
import SchemaLedger.Registry

/-! A registry compiles to a migration for each definition, or to the error of the first flawed
one. -/

namespace SchemaLedger.Registry

variable {registry : Registry} {name : String} {steps : List Step} {migration : Migration}
  {migrations : List Migration}

/-- A definition compiles to the migration of its name with the scripts of its steps. -/
theorem compileEntry_eq_ok : compileEntry name steps = .ok migration ↔
    ∃ compiled, compileSteps steps = .ok compiled ∧ migration = .ofCompiled name compiled := by
  -- The migration is made of what has been compiled, under the name of its entry.
  cases scripts : compileSteps steps <;> simp [compileEntry, scripts, eq_comm]

/-- Definitions that all compile give a migration each, in the same order. -/
theorem compiled_of_mapM {entries : List (String × List Step)}
    (recorded : (entries.mapM fun entry => compileEntry entry.1 entry.2) = .ok migrations) :
    List.Forall₂ (fun entry migration => compileEntry entry.1 entry.2 = .ok migration)
      entries migrations := by
  -- The first definition is compiled, and only then the others are.
  induction entries generalizing migrations with
  | nil =>
    cases recorded
    exact .nil
  | cons entry rest ih =>
    rw [List.mapM_cons] at recorded
    -- Neither part can have failed, as there would be no records then.
    cases first : compileEntry entry.1 entry.2 with
    | error error => simp [first, bind, Except.bind] at recorded
    | ok migration =>
      cases others : (rest.mapM fun entry => compileEntry entry.1 entry.2) with
      | error error => simp [first, others, bind, Except.bind] at recorded
      | ok more =>
        simp only [first, others, bind, Except.bind, pure, Except.pure, Except.ok.injEq] at recorded
        rw [← recorded]
        exact .cons first (ih others)

/-- All definitions have been compiled, each to the migration in its place. -/
theorem compiled_of_records (recorded : registry.records = .ok migrations) :
    List.Forall₂ (fun entry migration => compileEntry entry.1 entry.2 = .ok migration)
      registry.definitions.entries migrations :=
  compiled_of_mapM recorded

/-- Every definition has been compiled to one of the migrations. -/
theorem mem_records (recorded : registry.records = .ok migrations)
    (member : (name, steps) ∈ registry.definitions.entries) :
    ∃ migration ∈ migrations, compileEntry name steps = .ok migration := by
  have compiled := compiled_of_records recorded
  generalize registry.definitions.entries = entries at compiled member
  clear recorded
  -- By induction on the entries, each of which has been compiled.
  induction compiled with
  | nil => simp at member
  | @cons entry migration _ _ first _ ih =>
    rcases List.mem_cons.mp member with rfl | behind
    · exact ⟨migration, List.mem_cons_self, first⟩
    · obtain ⟨other, inside, later⟩ := ih behind
      exact ⟨other, .tail _ inside, later⟩

/-- What was compiled has the names of the definitions, in the same order. -/
theorem names_of_records (recorded : registry.records = .ok migrations) :
    migrations.map (·.name) = registry.names := by
  have compiled := compiled_of_records recorded
  -- Each migration stands where its definition does.
  rw [names, Keyed.names]
  generalize registry.definitions.entries = entries at compiled ⊢
  clear recorded
  induction compiled with
  | nil => rfl
  | cons first _ ih =>
    obtain ⟨scripts, -, rfl⟩ := compileEntry_eq_ok.mp first
    rw [List.map_cons, List.map_cons, ih]
    rfl

/-- Names that increase are all different. -/
theorem names_nodup (registry : Registry) : registry.names.Nodup :=
  List.pairwise_map.mpr (registry.definitions.ordered.imp String.ne_of_lt)

/-- The error of the first definition that does not compile is reported. -/
theorem records_of_flawed {error : SchemaError}
    (first : registry.definitions.entries.find? (fun entry => !(compileSteps entry.2).isOk) =
      some (name, steps))
    (flawed : compileSteps steps = .error error) : registry.records = .error (.schema error) := by
  obtain ⟨-, before, after, split, sound⟩ := List.find?_eq_some_iff_append.mp first
  rw [records, split]
  clear split first
  -- The definitions before it are compiled, and then nothing behind it matters.
  induction before with
  | nil => simp [List.mapM_cons, compileEntry, flawed, bind, Except.bind]
  | cons entry rest ih =>
    have onward := ih fun other member => sound other (.tail _ member)
    have sounds := sound entry List.mem_cons_self
    -- Each of them compiles, as the flawed one is the first that does not.
    cases compiled : compileSteps entry.2 with
    | error other => simp [compiled, Except.isOk, Except.toBool] at sounds
    | ok result =>
      simp only [List.cons_append, List.mapM_cons, onward, bind, Except.bind]
      simp [compileEntry, compiled]

end SchemaLedger.Registry
