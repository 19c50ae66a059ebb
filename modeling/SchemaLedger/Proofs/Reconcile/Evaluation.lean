import SchemaLedger.Proofs.Reconcile.Course
import SchemaLedger.Proofs.Store.Answers

/-! What the calls of a move come to is settled by the store and by the state they start from. -/

namespace SchemaLedger

open Reconciler (replaySavepoint)

namespace Store

variable {σ : Type} (store : Store σ)

/-- How a store answers calls made for a migration, up to the first that fails. -/
def attempt (name : String) : List Call → σ → Option MigrationError × σ
  | [], state => (none, state)
  | call :: later, state =>
    match store.answer call state with
    | (none, reached) => attempt name later reached
    | (some error, reached) => (some (call.blame name error), reached)

/-- How a store answers calls made within a transaction, together with the one that closes it. -/
def conclude (name : String) (calls : List Call) (state : σ) : Option MigrationError × σ :=
  match store.attempt name calls state with
  | (none, reached) => store.answer (.transact .commit) reached
  | (some error, reached) => (some error, (store.answer (.transact .rollback) reached).2)

/-- How a store answers a replay, from the beginning of its transaction to the end. -/
def replay (stored current : Migration) (ledger next : Ledger) (state : σ) :
    Option MigrationError × σ :=
  match store.answer (.transact .begin) state with
  | (some error, reached) => (some error, reached)
  | (none, opened) =>
    match store.answer (.transact (.savepoint replaySavepoint)) opened with
    | (some error, reached) => (some error, (store.answer (.transact .rollback) reached).2)
    | (none, guarded) =>
      match store.answer (.execute stored.down) guarded with
      | (none, reverted) =>
        store.conclude current.name (callsAfterRevert current ledger next) reverted
      | (some _, reached) =>
        store.conclude current.name (callsAfterFallback current ledger next) reached

/-- How a store answers a move that is to write a ledger in place of the one before it. -/
def perform (ledger next : Ledger) : Move → σ → Option MigrationError × σ
  | .revert orphan => store.attempt orphan.name [.execute orphan.down, .swap ledger next]
  | .append migration => store.attempt migration.name [.execute migration.up, .swap ledger next]
  | .refresh _ current => store.attempt current.name [.swap ledger next]
  | .replay stored current => store.replay stored current ledger next
  -- A refusal needs no answer of the store.
  | .refuse current => fun state => (some (.upChanged current.name), state)

end Store

variable {σ : Type} {store : Store σ} {before after : σ} {made : List CallRecord}
  {failure : Option MigrationError}

/-- A history of attempts is the one that its start leads to. -/
theorem Attempts.evaluated {name : String} {calls : List Call}
    (attempts : Attempts name calls made failure) (answers : store.Answers before made after) :
    store.attempt name calls before = (failure, after) := by
  -- The induction is on the calls, each of which is answered in the state left by those before it.
  induction attempts generalizing before with
  | done =>
    -- Without calls the state is left as it is.
    cases answers
    rfl
  | next _ ih =>
    cases answers with
    | next answered rest =>
      -- The call has succeeded, so the attempt goes on with the next one.
      simp only [Store.attempt, answered]
      exact ih rest
  | failed call later error =>
    cases answers with
    | next answered rest =>
      -- Nothing is called behind the failure.
      cases rest
      simp only [Store.attempt, answered]

/-- A call that succeeds within a transaction hands over to those behind it. -/
theorem Store.conclude_cons {name : String} {call : Call} {calls : List Call} {reached : σ}
    (answered : store.answer call before = (none, reached)) :
    store.conclude name (call :: calls) before = store.conclude name calls reached := by
  -- A call that succeeds hands its state on to the next.
  simp only [conclude, attempt, answered]

/-- A history within a transaction is the one that its start leads to. -/
theorem Transacted.evaluated {name : String} {calls : List Call}
    (transacted : Transacted name calls made failure) (answers : store.Answers before made after) :
    store.conclude name calls before = (failure, after) := by
  -- The induction passes by the calls that succeed, and ends with a commit or a rollback.
  induction transacted generalizing before with
  | committed | uncommitted =>
    cases answers with
    | next answered rest =>
      cases rest
      exact answered
  | next _ ih =>
    cases answers with
    | next answered rest =>
      rw [Store.conclude_cons answered]
      exact ih rest
  | rolledBack call later error rollback =>
    cases answers with
    | next answered rest =>
      cases rest with
      | next closed rest =>
        cases rest
        -- The answer to the rollback changes nothing about the failure.
        simp only [Store.conclude, Store.attempt, answered, closed]

/-- A history of a replay is the one that its start leads to. -/
theorem Replays.evaluated {stored current : Migration} {ledger next : Ledger}
    (replays : Replays stored current ledger next made failure)
    (answers : store.Answers before made after) :
    store.replay stored current ledger next before = (failure, after) := by
  cases replays with
  | unopened error =>
    -- Without a transaction nothing follows.
    cases answers with
    | next opened rest =>
      cases rest
      simp only [Store.replay, opened]
  | unguarded error rollback =>
    -- Without a savepoint the rollback follows, whatever its answer.
    cases answers with
    | next opened rest =>
      cases rest with
      | next guarded rest =>
        cases rest with
        | next closed rest =>
          cases rest
          simp only [Store.replay, opened, guarded, closed]
  | reverted transacted | fellBack error transacted =>
    -- What follows the stored down script is known from the calls behind it.
    cases answers with
    | next opened rest =>
      cases rest with
      | next guarded rest =>
        cases rest with
        | next ran rest =>
          simp only [Store.replay, opened, guarded, ran]
          exact transacted.evaluated rest

/-- A history of a move is the one that its start leads to. -/
theorem Move.Calls.evaluated {ledger next : Ledger} {move : Move}
    (calls : move.Calls ledger next made failure) (answers : store.Answers before made after) :
    store.perform ledger next move before = (failure, after) := by
  cases calls with
  -- Only a replay takes a transaction.
  | revert attempts | append attempts | refresh attempts => exact attempts.evaluated answers
  | replay replays => exact replays.evaluated answers

end SchemaLedger
