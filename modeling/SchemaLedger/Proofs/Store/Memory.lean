import SchemaLedger.Proofs.Store.Answers
import SchemaLedger.Store.Memory

/-! What a memory store answers outside transactions, and within one that it has just opened. -/

namespace SchemaLedger.Memory

variable {memory : Memory} {ledger : Ledger} {script : String}

/-- A script that fails is only noted. -/
theorem answer_execute_of_failing (fails : memory.failing.contains script = true) :
    store.answer (.execute script) memory =
      (some (.store (Refusal.scriptFailed script).reason),
        { memory with failed := memory.failed ++ [script] }) := by
  -- The script is on the list of those that fail, and is noted.
  simp only [Store.answer, store, execute, if_pos fails, refuse, failure?]

/-- Any other script is executed. -/
theorem answer_execute (works : memory.failing.contains script = false) :
    store.answer (.execute script) memory =
      (none, { memory with executed := memory.executed ++ [script] }) := by
  -- The script is not on the list of those that fail, and is logged.
  simp only [Store.answer, store, execute, works, Bool.false_eq_true, if_false, failure?]

/-- A ledger is written in place of the one that is there. -/
theorem answer_swap (present : memory.ledger = some ledger) (next : Ledger) :
    store.answer (.swap ledger next) memory =
      (none, { memory with ledger := some next, writes := memory.writes + 1 }) := by
  -- The ledger that is expected is the one that is there.
  simp only [Store.answer, store, swap, present, if_true, failure?]

/--
A memory within a transaction, behind scripts that were executed or have failed since it began.

The frames are its savepoints, newest first, and then the beginning of the transaction.
-/
def inside (memory : Memory) (frames : List (Option String)) (ran failed : List String) : Memory :=
  { memory with
    executed := memory.executed ++ ran
    failed
    snapshots := frames.map memory.snapshot }

variable {frames : List (Option String)} {ran failed : List String} {savepoint : String}

/-- Within a transaction a script that fails is only noted. -/
theorem answer_execute_inside_of_failing (fails : memory.failing.contains script = true) :
    store.answer (.execute script) (memory.inside frames ran failed) =
      (some (.store (Refusal.scriptFailed script).reason),
        memory.inside frames ran (failed ++ [script])) :=
  -- The scripts that fail are the same ones within the transaction.
  @answer_execute_of_failing (memory.inside frames ran failed) script fails

/-- Within a transaction any other script is executed. -/
theorem answer_execute_inside (works : memory.failing.contains script = false) :
    store.answer (.execute script) (memory.inside frames ran failed) =
      (none, memory.inside frames (ran ++ [script]) failed) := by
  -- Whether a script fails does not depend on the transaction.
  have executed := @answer_execute (memory.inside frames ran failed) script works
  rw [executed]
  simp only [inside, List.append_assoc]

/-- A transaction is opened where there is none. -/
theorem answer_begin (closed : memory.snapshots = []) :
    store.answer (.transact .begin) memory = (none, memory.inside [none] [] memory.failed) := by
  -- None is open, so that the first copy is taken.
  simp [Store.answer, store, transact, inTransaction, closed, inside, failure?]

/-- A savepoint is set before anything is executed within the transaction. -/
theorem answer_savepoint :
    store.answer (.transact (.savepoint savepoint)) (memory.inside [none] [] failed) =
      (none, memory.inside [some savepoint, none] [] failed) := by
  -- A transaction is open, in front of whose copy another is put.
  simp [Store.answer, store, transact, inTransaction, inside, failure?, snapshot]

/-- Going back to that savepoint undoes all scripts. -/
theorem answer_rollbackTo :
    store.answer (.transact (.rollbackTo savepoint))
        (memory.inside [some savepoint, none] ran failed) =
      (none, memory.inside [some savepoint, none] [] failed) := by
  -- The newest copy has the name, and it holds none of what was run since.
  simp [Store.answer, store, transact, fromSavepoint, inside, snapshot, restore, failure?]

/-- Forgetting that savepoint undoes nothing. -/
theorem answer_release :
    store.answer (.transact (.release savepoint))
        (memory.inside [some savepoint, none] ran failed) =
      (none, memory.inside [none] ran failed) := by
  -- The newest copy has the name, and is dropped with what it held.
  simp [Store.answer, store, transact, fromSavepoint, inside, snapshot, failure?]

/-- Rolling back undoes all scripts and closes the transaction. -/
theorem answer_rollback (closed : memory.snapshots = []) :
    store.answer (.transact .rollback) (memory.inside [none] ran failed) =
      (none, { memory with failed }) := by
  -- The executed scripts are cut off where the transaction began.
  simp [Store.answer, store, transact, inside, snapshot, restore, failure?, closed]

/-- Committing keeps all scripts and what was written, and closes the transaction. -/
theorem answer_commit (closed : memory.snapshots = []) (next : Ledger) (writes : Nat) :
    store.answer (.transact .commit)
        { memory.inside [none] ran failed with ledger := some next, writes } =
      (none, { memory with
        ledger := some next
        executed := memory.executed ++ ran
        failed
        writes }) := by
  -- All copies are dropped, and what has been run and written stays.
  simp [Store.answer, store, transact, inTransaction, inside, failure?, closed]

/-- Loading the ledger of a memory gives the one that is there, or an empty one. -/
theorem load_eq (memory : Memory) :
    store.load memory = (.ok (memory.ledger.getD .empty), { memory with
      ledger := some (memory.ledger.getD .empty)
      bootstrapped := memory.bootstrapped || memory.ledger.isNone }) := by
  -- Only a ledger that is missing has to be created.
  cases present : memory.ledger with
  | none => simp [store, load, present]
  | some ledger =>
    simp only [store, load, present, Option.getD_some, Option.isNone_some, Bool.or_false]
    rw [← present]

/-- Loading a ledger that is there changes nothing. -/
theorem load_of_present (present : memory.ledger = some ledger) :
    store.load memory = (.ok ledger, memory) := by
  simp only [store, load, present]

/-- A memory never refuses to load its ledger. -/
theorem answer_load (memory : Memory) :
    store.answer .load memory = (none, { memory with
      ledger := some (memory.ledger.getD .empty)
      bootstrapped := memory.bootstrapped || memory.ledger.isNone }) := by
  -- Loading an absent ledger leaves an empty one, and is noted as such.
  simp only [Store.answer, load_eq, failure?]

end SchemaLedger.Memory
