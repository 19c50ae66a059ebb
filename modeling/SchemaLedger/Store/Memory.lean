import SchemaLedger.Store.Basic

/-! The memory store remembers scripts instead of running them, and rolls back to snapshots. -/

namespace SchemaLedger

/-- What a rollback goes back to: the number of scripts executed so far, and the ledger. -/
structure Snapshot where
  savepoint : Option String
  executed : Nat
  ledger : Option Ledger
  deriving DecidableEq

/-- The state of a memory store. -/
structure Memory where
  ledger : Option Ledger := none
  executed : List String := []
  failed : List String := []
  /-- Scripts that fail whenever they are executed. -/
  failing : List String := []
  /-- The snapshots of the open transaction, newest first, down to the one at its beginning. -/
  snapshots : List Snapshot := []
  writes : Nat := 0
  bootstrapped : Bool := false
  deriving DecidableEq

namespace Memory

/-- A store whose ledger is already there. -/
def withLedger (ledger : Ledger) : Memory := { ledger := some ledger }

/-- A store in which one more script fails. -/
def failOn (memory : Memory) (script : String) : Memory :=
  { memory with failing := script :: memory.failing }

/-- A store that has forgotten which scripts were executed. -/
def clearExecuted (memory : Memory) : Memory := { memory with executed := [], failed := [] }

/-- A transaction is open. -/
def inTransaction (memory : Memory) : Bool := !memory.snapshots.isEmpty

/-- The state of a store as a snapshot. -/
def snapshot (memory : Memory) (savepoint : Option String) : Snapshot :=
  ⟨savepoint, memory.executed.length, memory.ledger⟩

/-- A store gone back to a snapshot. -/
def restore (memory : Memory) (snapshot : Snapshot) : Memory :=
  { memory with executed := memory.executed.take snapshot.executed, ledger := snapshot.ledger }

/-- Why a store refuses a call. -/
inductive Refusal where
  | scriptFailed (script : String)
  | alreadyOpen
  | notOpen
  | noSavepoint (name : String)
  | noLedger
  deriving DecidableEq, Repr

/-- The words for a refusal. -/
def Refusal.reason : Refusal → String
  | .scriptFailed script => "script failed: " ++ script
  | .alreadyOpen => "transaction already in progress"
  | .notOpen => "no transaction in progress"
  | .noSavepoint name => "savepoint " ++ name ++ " does not exist"
  | .noLedger => "ledger table does not exist"

/-- The answer to a call that a store refuses. -/
def refuse {α : Type} (refusal : Refusal) (memory : Memory) : Except MigrationError α × Memory :=
  (.error (.store refusal.reason), memory)

/-- Executing a script only records it. -/
def execute (script : String) (memory : Memory) : Except MigrationError Unit × Memory :=
  if memory.failing.contains script then
    refuse (.scriptFailed script) { memory with failed := memory.failed ++ [script] }
  else (.ok (), { memory with executed := memory.executed ++ [script] })

/-- The snapshots from the newest one at a savepoint down to the beginning. -/
def fromSavepoint (memory : Memory) (name : String) : List Snapshot :=
  memory.snapshots.dropWhile (·.savepoint != some name)

/-- Transactions do not nest, but savepoints do, and a newer one hides an older one of its name. -/
def transact (step : Transaction) (memory : Memory) : Except MigrationError Unit × Memory :=
  match step with
  | .begin =>
    if memory.inTransaction then refuse .alreadyOpen memory
    else (.ok (), { memory with snapshots := [memory.snapshot none] })
  | .commit =>
    if memory.inTransaction then (.ok (), { memory with snapshots := [] })
    else refuse .notOpen memory
  | .rollback =>
    match memory.snapshots.getLast? with
    -- The oldest snapshot is the one taken when the transaction was opened.
    | some start => (.ok (), { memory.restore start with snapshots := [] })
    | none => refuse .notOpen memory
  | .savepoint name =>
    if memory.inTransaction then
      (.ok (), { memory with snapshots := memory.snapshot (some name) :: memory.snapshots })
    else refuse .notOpen memory
  | .rollbackTo name =>
    match memory.fromSavepoint name with
    -- The savepoint itself remains, so that it can be gone back to again.
    | found :: older => (.ok (), { memory.restore found with snapshots := found :: older })
    | [] => refuse (.noSavepoint name) memory
  | .release name =>
    match memory.fromSavepoint name with
    -- Newer savepoints are forgotten together with the one that is released.
    | _ :: older => (.ok (), { memory with snapshots := older })
    | [] => refuse (.noSavepoint name) memory

/-- Loading the ledger creates an empty one where there is none. -/
def load (memory : Memory) : Except MigrationError Ledger × Memory :=
  match memory.ledger with
  | some ledger => (.ok ledger, memory)
  | none => (.ok .empty, { memory with ledger := some .empty, bootstrapped := true })

/-- The ledger is written only where the stored one is the expected one. -/
def swap (expected next : Ledger) (memory : Memory) : Except MigrationError Unit × Memory :=
  match memory.ledger with
  | some current =>
    if current = expected then
      (.ok (), { memory with ledger := some next, writes := memory.writes + 1 })
    else (.error .ledgerConflict, memory)
  | none => refuse .noLedger memory

/-- The memory store reports every script before it is executed. -/
def notes : Call → List Event
  | .execute script => [.statementExecuting script]
  | _ => []

/-- The memory store. -/
def store : Store Memory where
  load := load
  swap := swap
  execute := execute
  transact := transact
  notes := notes

end Memory

end SchemaLedger
