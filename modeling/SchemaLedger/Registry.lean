import SchemaLedger.Keyed
import SchemaLedger.Migration.Basic
import SchemaLedger.Migration.Error

/-! The registry holds migrations that are defined step by step, under their names.

A definition is a straight list of calls to a blueprint, one step for each call. The steps are taken
in order up to the first flawed one, whose error is that of the definition. A definition has no
other effect, and cannot choose its steps by what the blueprint holds or by anything else. -/

namespace SchemaLedger

/-- Definitions of migrations by name, each of them the list of its steps. -/
structure Registry where
  definitions : Keyed (List Step)

namespace Registry

/-- The registry without definitions. -/
def empty : Registry := ⟨.empty⟩

/-- Registers a definition, in place of an earlier one under the same name. -/
def register (registry : Registry) (name : String) (steps : List Step) : Registry :=
  ⟨registry.definitions.insert name steps⟩

/-- The registered names, in order. -/
def names (registry : Registry) : List String := registry.definitions.names

/-- The number of definitions. -/
def size (registry : Registry) : Nat := registry.definitions.entries.length

/-- Nothing is registered. -/
def isEmpty (registry : Registry) : Bool := registry.definitions.entries.isEmpty

/-- There is a definition under a name. -/
def contains (registry : Registry) (name : String) : Bool :=
  (registry.definitions.get? name).isSome

/-- The migration that a definition compiles to. -/
def compileEntry (name : String) (steps : List Step) : Except MigrationError Migration :=
  match compileSteps steps with
  | .ok compiled => .ok (.ofCompiled name compiled)
  | .error error => .error (.schema error)

/-- The migration defined under a name, and none where nothing is registered. -/
def compile? (registry : Registry) (name : String) : Except MigrationError (Option Migration) :=
  match registry.definitions.get? name with
  | none => .ok none
  | some steps => (compileEntry name steps).map some

/-- All migrations in order of their names, or the error of the first that does not compile. -/
def records (registry : Registry) : Except MigrationError (List Migration) :=
  registry.definitions.entries.mapM fun (name, steps) => compileEntry name steps

end Registry

end SchemaLedger
