/-! The report of a reconciliation lists what was done, by the names of migrations. -/

namespace SchemaLedger

/-- What a reconciliation did. -/
structure Report where
  /-- Local migrations found in the ledger, in canonical order. -/
  alreadyApplied : List String := []
  /-- Migrations applied for the first time, in the order of their application. -/
  applied : List String := []
  /-- Orphans that were reverted in development. -/
  reverted : List String := []
  /-- Orphans that were left alone outside development. -/
  orphaned : List String := []
  /-- Migrations reverted and applied again because their up script had changed. -/
  replayed : List String := []
  /-- Migrations whose record was brought up to date without running a script. -/
  refreshed : List String := []
  deriving DecidableEq, Repr

/-- No script of a migration was run. -/
def Report.isNoop (report : Report) : Bool :=
  report.applied.isEmpty && report.reverted.isEmpty && report.replayed.isEmpty

end SchemaLedger
