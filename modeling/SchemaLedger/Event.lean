import SchemaLedger.Migration.Error

/-! Events tell what happened while migrations were loaded and run, in the order in which it did. -/

namespace SchemaLedger

/-- How much attention an event asks for. -/
inductive Severity where
  | debug
  | info
  | warn
  | error
  deriving DecidableEq, Repr

/-- The word for a severity. -/
def Severity.label : Severity → String
  | .debug => "DEBUG"
  | .info => "INFO"
  | .warn => "WARN"
  | .error => "ERROR"

/-- Something that happened. -/
inductive Event where
  | orphanFound (name : String)
  | orphanReverting (name : String)
  | alreadyRun (count : Nat)
  | migrationRunning (name description : String)
  | migrationApplied (name : String)
  | scriptFailed (name script : String)
  | descriptorChanged (name : String)
  | upChanged (name : String)
  | storedDownRunning (name : String)
  | storedDownFailed (name : String) (error : MigrationError)
  | upRunning (name : String)
  | migrationReplayed (name : String)
  | rollbackFailed (name : String) (error : MigrationError)
  | statementExecuting (sql : String)
  | buildFileIgnored (path : String)
  | resolvedFromRegistry (name : String)
  | resolvedFromArtifact (name path : String)
  | artifactSkipped (name path : String)
  | artifactWritten (path : String)
  | migrationsLoaded (count : Nat)
  | developmentAnnounced
  deriving DecidableEq, Repr

namespace Event

/-- The severity of an event. -/
def severity : Event → Severity
  | .orphanFound _ | .storedDownFailed .. => .warn
  | .scriptFailed .. | .rollbackFailed .. => .error
  | .statementExecuting _ | .buildFileIgnored _ | .resolvedFromRegistry _
  | .resolvedFromArtifact .. | .artifactSkipped .. | .artifactWritten _ => .debug
  | .orphanReverting _ | .alreadyRun _ | .migrationRunning .. | .migrationApplied _
  | .descriptorChanged _ | .upChanged _ | .storedDownRunning _ | .upRunning _
  | .migrationReplayed _ | .migrationsLoaded _ | .developmentAnnounced => .info

/-- The words for an event. -/
def message : Event → String
  | .orphanFound _ => "Migration does not exist locally"
  | .orphanReverting _ => "Development mode, running down migration"
  | .alreadyRun count =>
    decimalText count ++ " migration" ++ (if 1 < count then "s" else "") ++
      " were already run"
  | .migrationRunning .. => "Running migration"
  | .migrationApplied _ => "Migration applied successfully"
  | .scriptFailed .. => "Migration script failed"
  | .descriptorChanged _ => "Migration down or description changed, updating ledger"
  | .upChanged _ => "Up migration changed, running down migration and following it with up again"
  | .storedDownRunning _ => "Running down from database"
  | .storedDownFailed .. => "Down from database failed, running down from disk"
  | .upRunning _ => "Running up"
  | .migrationReplayed _ => "Migration replayed successfully"
  | .rollbackFailed .. => "Rollback failed"
  | .statementExecuting _ => "Executing SQL"
  | .buildFileIgnored _ => "Ignoring non-artifact build file"
  | .resolvedFromRegistry _ => "Resolved migration from registry"
  | .resolvedFromArtifact .. => "Resolved migration from build artifact"
  | .artifactSkipped .. => "Skipping build artifact without a trusted source"
  | .artifactWritten _ => "Wrote build artifact"
  | .migrationsLoaded _ => "Loaded migrations"
  | .developmentAnnounced =>
    "Development mode - orphans are reverted and changed migrations replayed."

/-- The details of an event, each under a name. -/
def fields : Event → List (String × String)
  | .orphanFound name | .orphanReverting name | .migrationApplied name | .descriptorChanged name
  | .upChanged name | .storedDownRunning name | .upRunning name | .migrationReplayed name
  | .resolvedFromRegistry name => [("name", name)]
  | .alreadyRun _ | .developmentAnnounced => []
  | .migrationRunning name description => [("name", name), ("description", description)]
  | .scriptFailed name script => [("name", name), ("script", script)]
  | .storedDownFailed name error | .rollbackFailed name error =>
    [("name", name), ("error", error.message)]
  | .statementExecuting sql => [("sql", sql)]
  | .buildFileIgnored path | .artifactWritten path => [("path", path)]
  | .resolvedFromArtifact name path | .artifactSkipped name path => [("name", name), ("path", path)]
  | .migrationsLoaded count => [("count", decimalText count)]

end Event

end SchemaLedger
