import SchemaLedger.Time.Instant
import SchemaLedger.Schema.Blueprint

/-! A migration is a pair of scripts under a name, with the time at which it was applied. -/

namespace SchemaLedger

/-- A migration as it is defined, or as the ledger recorded it. -/
structure Migration where
  name : String
  up : String
  down : String
  description : String
  appliedAt : Option Instant := none
  deriving DecidableEq

namespace Migration

/-- A compiled migration under a name. -/
def ofCompiled (name : String) (compiled : CompiledMigration) : Migration :=
  { name, up := compiled.up, down := compiled.down, description := compiled.description }

/-- The migration as applied at a given time. -/
def stamped (migration : Migration) (time : Instant) : Migration :=
  { migration with appliedAt := some time }

/-- Two migrations differ in what is recorded beside the forward script. -/
def descriptorDiffers (migration other : Migration) : Bool :=
  migration.down != other.down || migration.description != other.description

end Migration

end SchemaLedger
