import SchemaLedger.Reconcile.Report
import SchemaLedger.Reconcile.Session
import SchemaLedger.Status

/-! Reconciling brings a store in line with local migrations, and keeps its ledger up to date. -/

namespace SchemaLedger

/-- A store with the clock and the mode under which migrations are run on it. -/
structure Reconciler (σ : Type) where
  store : Store σ
  clock : Nat → Instant
  /-- Orphans are reverted and a changed migration is replayed in development only. -/
  development : Bool

namespace Reconciler

variable {σ : Type} (r : Reconciler σ)

/-- The savepoint before the stored down script of a replay. -/
def replaySavepoint : String := "keel_replay_stored_down"

/-- Runs a script of a migration, and names the migration where it fails. -/
def runScript (name script : String) : Run σ Unit := do
  match ← Run.attempt (Run.execute r.store script) with
  | .ok () => return
  | .error source => do
    Run.report (.scriptFailed name script)
    throw (.scriptFailed name script source)

/-- Writes a ledger, with which the run then goes on. -/
def persist (ledger next : Ledger) : Run σ Ledger := do
  Run.swap r.store ledger next
  return next

/-- Reports that some migrations in a row were found in the ledger. -/
def reportAlreadyRun (count : Nat) : Run σ Unit :=
  if 0 < count then Run.report (.alreadyRun count) else return

/-- Reverts orphans in development, and reports them otherwise. -/
def settleOrphans (ledger : Ledger) (report : Report) :
    List Migration → Run σ (Ledger × Report)
  | [] => return (ledger, report)
  | orphan :: rest => do
    Run.report (.orphanFound orphan.name)
    if r.development then
      Run.report (.orphanReverting orphan.name)
      r.runScript orphan.name orphan.down
      -- The record goes at once, so that a later failure leaves no record of what is reverted.
      let ledger ← r.persist ledger (ledger.remove orphan.name)
      settleOrphans ledger { report with reverted := report.reverted ++ [orphan.name] } rest
    -- Elsewhere its effects stay, and so does its record.
    else settleOrphans ledger { report with orphaned := report.orphaned ++ [orphan.name] } rest

/-- Runs the stored down script, and the current one where the stored one fails. -/
def revertForReplay (stored current : Migration) : Run σ Unit := do
  Run.report (.storedDownRunning current.name)
  Run.transact r.store (.savepoint replaySavepoint)
  match ← Run.attempt (Run.execute r.store stored.down) with
  | .ok () => Run.transact r.store (.release replaySavepoint)
  | .error error => do
    Run.report (.storedDownFailed current.name error)
    -- Whatever the stored script has done before it failed is undone, within the transaction.
    Run.transact r.store (.rollbackTo replaySavepoint)
    Run.transact r.store (.release replaySavepoint)
    r.runScript current.name current.down

/-- Reverts a migration, applies it in its current form and records that. -/
def replayInTransaction (ledger : Ledger) (stored current : Migration) : Run σ Ledger := do
  r.revertForReplay stored current
  Run.report (.upRunning current.name)
  r.runScript current.name current.up
  -- The record keeps its place in the ledger, with the new texts and a new time.
  let next := ledger.replace (current.stamped (← Run.stamp r.clock))
  r.persist ledger next

/-- Replays a changed migration within a transaction, which a failure rolls back. -/
def replay (ledger : Ledger) (stored current : Migration) : Run σ Ledger := do
  Run.report (.upChanged current.name)
  Run.transact r.store .begin
  match ← Run.attempt (r.replayInTransaction ledger stored current) with
  | .ok next => do
    Run.transact r.store .commit
    Run.report (.migrationReplayed current.name)
    return next
  | .error error => do
    -- The error that led to the rollback is the one to report, even if the rollback fails too.
    match ← Run.attempt (Run.transact r.store .rollback) with
    | .ok () => pure ()
    | .error rollback => Run.report (.rollbackFailed current.name rollback)
    throw error

/-- Compares the last local migration with its record, and brings the record up to date. -/
def settleLast (ledger : Ledger) (report : Report) (stored current : Migration) :
    Run σ (Ledger × Report) := do
  if stored.up ≠ current.up then
    if r.development then
      let ledger ← r.replay ledger stored current
      return (ledger, { report with replayed := report.replayed ++ [current.name] })
    else throw (.upChanged current.name)
  else if stored.descriptorDiffers current then
    Run.report (.descriptorChanged current.name)
    -- No script has to be run, because the up script is the one that was applied.
    let refreshed := { current with appliedAt := stored.appliedAt }
    let ledger ← r.persist ledger (ledger.replace refreshed)
    return (ledger, { report with refreshed := report.refreshed ++ [current.name] })
  else return (ledger, report)

/-- Applies a migration for the first time, and records it. -/
def apply (ledger : Ledger) (report : Report) (migration : Migration) :
    Run σ (Ledger × Report) := do
  Run.report (.migrationRunning migration.name migration.description)
  r.runScript migration.name migration.up
  -- The time is taken once the script has been run.
  let next ← ledger.push (migration.stamped (← Run.stamp r.clock))
  let ledger ← r.persist ledger next
  Run.report (.migrationApplied migration.name)
  return (ledger, { report with applied := report.applied ++ [migration.name] })

/-- Goes through local migrations in order, with the count of those found in a row. -/
def advance (ledger : Ledger) (report : Report) (found : Nat) :
    List Migration → Run σ Report
  | [] => do
    reportAlreadyRun found
    return report
  | migration :: rest =>
    match ledger.get? migration.name with
    | some stored => do
      -- Scripts of older migrations may be generated anew, with differences that do not matter.
      let (ledger, report) ←
        if rest.isEmpty then r.settleLast ledger report stored migration
        else pure (ledger, report)
      let alreadyApplied := report.alreadyApplied ++ [migration.name]
      advance ledger { report with alreadyApplied } (found + 1) rest
    | none => do
      -- The count of those found so far is reported before something new is run.
      reportAlreadyRun found
      let (ledger, report) ← r.apply ledger report migration
      advance ledger report 0 rest

/-- Reconciles the store with local migrations, which may come in any order. -/
def run (migrations : List Migration) : Run σ Report := do
  -- Names are checked before the store is called at all.
  let sorted ← canonicalOrder migrations
  let ledger ← Run.load r.store
  let (ledger, report) ← r.settleOrphans ledger {} (Status.orphans ledger sorted)
  r.advance ledger report 0 sorted

/-- The status of local migrations towards the ledger of the store. -/
def status (migrations : List Migration) : Run σ (List MigrationStatus) := do
  let ledger ← Run.load r.store
  statusReport migrations ledger

end Reconciler

end SchemaLedger
