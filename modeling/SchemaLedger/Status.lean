import SchemaLedger.Migration.Order
import SchemaLedger.Ledger.Basic

/-! The status of migrations compares those defined locally with those in the ledger. -/

namespace SchemaLedger

/-- How a migration stands towards the ledger. -/
inductive MigrationState where
  /-- Recorded, and not found to differ. -/
  | applied
  | pending
  /-- Recorded with another up script, which is checked for the last local migration only. -/
  | changed
  /-- Recorded, but not defined locally. -/
  | orphaned
  deriving DecidableEq, Repr

/-- The word for a state. -/
def MigrationState.label : MigrationState → String
  | .applied => "applied"
  | .pending => "pending"
  | .changed => "changed"
  | .orphaned => "orphaned"

/-- One line of a status report. -/
structure MigrationStatus where
  name : String
  description : String
  state : MigrationState
  appliedAt : Option Instant
  deriving DecidableEq

namespace Status

/-- The state of a local migration, given whether it is the last one. -/
def stateOf (ledger : Ledger) (migration : Migration) (last : Bool) : MigrationState :=
  match ledger.get? migration.name with
  | none => .pending
  -- Only the last migration is compared, as a run would do it.
  | some stored => if last && stored.up != migration.up then .changed else .applied

/-- The status of local migrations, in the order given. -/
def locals (ledger : Ledger) : List Migration → List MigrationStatus
  | [] => []
  | migration :: rest =>
    { name := migration.name
      description := migration.description
      state := stateOf ledger migration rest.isEmpty
      appliedAt := (ledger.get? migration.name).bind (·.appliedAt) } :: locals ledger rest

/-- The records of a ledger without a local migration, in the order of the ledger. -/
def orphans (ledger : Ledger) (migrations : List Migration) : List Migration :=
  ledger.records.filter fun record => !(migrations.map (·.name)).contains record.name

/-- The status of the records without a local migration. -/
def orphaned (record : Migration) : MigrationStatus where
  name := record.name
  description := record.description
  state := .orphaned
  appliedAt := record.appliedAt

end Status

/-- The status of local migrations in canonical order, followed by that of orphans. -/
def statusReport (migrations : List Migration) (ledger : Ledger) :
    Except MigrationError (List MigrationStatus) := do
  let sorted ← canonicalOrder migrations
  return Status.locals ledger sorted ++ (Status.orphans ledger sorted).map Status.orphaned

end SchemaLedger
