import SchemaLedger.Event
import SchemaLedger.Ledger.Basic

/-! A store executes scripts and keeps the ledger, and any of its calls may fail. -/

namespace SchemaLedger

/-- The calls that open, close and divide a transaction. -/
inductive Transaction where
  | begin
  | commit
  | rollback
  | savepoint (name : String)
  /-- Undoes everything since a savepoint, which stays. -/
  | rollbackTo (name : String)
  /-- Forgets a savepoint, and keeps what was done since. -/
  | release (name : String)
  deriving DecidableEq, Repr

/-- The statement by which a database is told about a transaction. -/
def Transaction.statement : Transaction → String
  | .begin => "BEGIN"
  | .commit => "COMMIT"
  | .rollback => "ROLLBACK"
  | .savepoint name => "SAVEPOINT " ++ name
  | .rollbackTo name => "ROLLBACK TO SAVEPOINT " ++ name
  | .release name => "RELEASE SAVEPOINT " ++ name

/-- A call that a store answers. -/
inductive Call where
  | load
  /-- Writes a ledger, provided that the stored one is the expected one. -/
  | swap (expected next : Ledger)
  | execute (script : String)
  | transact (step : Transaction)
  deriving DecidableEq

/-- What a store in a state of type `σ` does for each call. -/
structure Store (σ : Type) where
  load : σ → Except MigrationError Ledger × σ
  swap : Ledger → Ledger → σ → Except MigrationError Unit × σ
  execute : String → σ → Except MigrationError Unit × σ
  transact : Transaction → σ → Except MigrationError Unit × σ
  /-- The events that the store itself reports for a call. -/
  notes : Call → List Event

/-- A store that takes transactions as statements, beside scripts and the ledger. -/
def Store.ofStatements {σ : Type} (load : σ → Except MigrationError Ledger × σ)
    (swap : Ledger → Ledger → σ → Except MigrationError Unit × σ)
    (execute : String → σ → Except MigrationError Unit × σ) : Store σ where
  load
  swap
  execute
  transact := fun step => execute step.statement
  notes := fun _ => []

end SchemaLedger
