import SchemaLedger.Proofs.Reconcile.Evaluation
import SchemaLedger.Proofs.Store.Memory

/-! On a memory store a move is made as a whole, or it leaves nothing behind but failed scripts. -/

namespace SchemaLedger

/-- The scripts that a move executes one after the other, where some scripts fail. -/
def Move.runs (failing : List String) : Move → List String
  | .revert orphan => [orphan.down]
  | .append migration => [migration.up]
  | .replay stored current =>
    -- The current down script takes the place of a stored one that fails.
    [if failing.contains stored.down then current.down else stored.down, current.up]
  | .refresh _ _ | .refuse _ => []

namespace Memory

/-- Why the scripts of a migration are not all executed: the first of them that fails. -/
def obstacle? (failing : List String) (name : String) (scripts : List String) :
    Option MigrationError :=
  (scripts.find? failing.contains).map fun script =>
    .scriptFailed name script (.store (Refusal.scriptFailed script).reason)

/-- A memory behind scripts: they are recorded by a ledger, unless there was an error. -/
def settle (memory : Memory) (next : Ledger) (ran failed : List String) :
    Option MigrationError → Memory
  | none =>
    { memory with
      ledger := some next
      executed := memory.executed ++ ran
      failed
      writes := memory.writes + 1 }
  | some _ => { memory with failed }

end Memory

/-- Why a move cannot be made, where some scripts fail. -/
def Move.hindrance? (failing : List String) : Move → Option MigrationError
  | .refuse current => some (.upChanged current.name)
  | move => Memory.obstacle? failing move.name (move.runs failing)

namespace Memory

variable {memory : Memory} {ledger : Ledger} {script name : String} {scripts : List String}

/-- A script that fails stands in the way of those behind it. -/
theorem obstacle?_cons_of_failing {failing : List String}
    (fails : failing.contains script = true) :
    obstacle? failing name (script :: scripts) =
      some (.scriptFailed name script (.store (Refusal.scriptFailed script).reason)) := by
  -- The first script that fails is the one that is reported.
  simp only [obstacle?, List.find?_cons, fails, Option.map_some]

/-- Behind any other script what is in the way is to be found. -/
theorem obstacle?_cons {failing : List String} (works : failing.contains script = false) :
    obstacle? failing name (script :: scripts) = obstacle? failing name scripts := by
  -- A script that works is passed over.
  simp only [obstacle?, List.find?_cons, works]

/-- Where no script fails nothing is in the way. -/
theorem obstacle?_nil (name : String) (scripts : List String) :
    obstacle? [] name scripts = none := by
  -- Where no script fails nothing is found.
  simp [obstacle?]

/-- A script outside transactions is executed and recorded, or it leaves nothing behind. -/
theorem attempt_whole (name script : String) (present : memory.ledger = some ledger)
    (next : Ledger) :
    ∃ failed, store.attempt name [.execute script, .swap ledger next] memory =
      (obstacle? memory.failing name [script],
        memory.settle next [script] failed (obstacle? memory.failing name [script])) := by
  cases fails : memory.failing.contains script with
  | true =>
    -- The failure of the script keeps the ledger from being written.
    refine ⟨memory.failed ++ [script], ?_⟩
    simp only [Store.attempt, answer_execute_of_failing fails, obstacle?_cons_of_failing fails]
    rfl
  | false =>
    -- The execution has left the ledger alone, so that it can be replaced.
    have written := @answer_swap { memory with executed := memory.executed ++ [script] } ledger
      present next
    refine ⟨memory.failed, ?_⟩
    simp only [Store.attempt, answer_execute fails, written, obstacle?_cons fails]
    rfl

/-- Scripts within a transaction are all executed and recorded, or none of them is. -/
theorem conclude_whole (name : String) (closed : memory.snapshots = [])
    (present : memory.ledger = some ledger) (next : Ledger) (scripts ran failed : List String) :
    ∃ refused, store.conclude name (scripts.map .execute ++ [.swap ledger next])
        (memory.inside [none] ran failed) =
      (obstacle? memory.failing name scripts,
        memory.settle next (ran ++ scripts) refused (obstacle? memory.failing name scripts)) := by
  -- The induction is on the scripts still to come, behind those that were executed.
  induction scripts generalizing ran failed with
  | nil =>
    -- Behind the last script the ledger is written, and the commit keeps everything.
    refine ⟨failed, ?_⟩
    have written := @answer_swap (memory.inside [none] ran failed) ledger present next
    rw [List.map_nil, List.nil_append, Store.conclude_cons written, List.append_nil]
    exact answer_commit closed next (memory.writes + 1)
  | cons script rest ih =>
    cases fails : memory.failing.contains script with
    | true =>
      -- The first script that fails leads to the rollback.
      refine ⟨failed ++ [script], ?_⟩
      simp only [List.map_cons, List.cons_append, Store.conclude, Store.attempt,
        answer_execute_inside_of_failing fails, answer_rollback closed,
        obstacle?_cons_of_failing fails]
      rfl
    | false =>
      -- A script that works is one more of those executed.
      obtain ⟨refused, concluded⟩ := ih (ran ++ [script]) failed
      refine ⟨refused, ?_⟩
      rw [List.map_cons, List.cons_append, Store.conclude_cons (answer_execute_inside fails),
        concluded, obstacle?_cons fails, List.append_assoc, List.singleton_append]

/-- A replay executes its scripts and records them, or it leaves nothing behind. -/
theorem replay_whole (closed : memory.snapshots = []) (present : memory.ledger = some ledger)
    (stored current : Migration) (next : Ledger) :
    ∃ failed, store.replay stored current ledger next memory =
      ((Move.replay stored current).hindrance? memory.failing,
        memory.settle next ((Move.replay stored current).runs memory.failing) failed
          ((Move.replay stored current).hindrance? memory.failing)) := by
  simp only [Store.replay, answer_begin closed, answer_savepoint, Move.hindrance?, Move.runs]
  cases fails : memory.failing.contains stored.down with
  | true =>
    -- The stored down script is undone, and the current one is what comes first instead.
    simp only [answer_execute_inside_of_failing fails, callsAfterFallback, if_true]
    rw [Store.conclude_cons answer_rollbackTo, Store.conclude_cons answer_release]
    exact conclude_whole current.name closed present next [current.down, current.up] [] _
  | false =>
    -- The stored down script has been executed, so only the current up script is left.
    simp only [answer_execute_inside fails, callsAfterRevert, Bool.false_eq_true, if_false]
    rw [Store.conclude_cons answer_release, obstacle?_cons fails]
    exact conclude_whole current.name closed present next [current.up] [stored.down] memory.failed

/-- A move is made as a whole, or it leaves nothing behind but failed scripts. -/
theorem perform_whole (closed : memory.snapshots = []) (present : memory.ledger = some ledger)
    (next : Ledger) (move : Move) :
    ∃ failed, store.perform ledger next move memory =
      (move.hindrance? memory.failing,
        memory.settle next (move.runs memory.failing) failed
          (move.hindrance? memory.failing)) := by
  cases move with
  -- A revert and an application each attempt a single script.
  | revert orphan => exact attempt_whole orphan.name orphan.down present next
  | append migration => exact attempt_whole migration.name migration.up present next
  | refresh stored current =>
    -- Without a script there is nothing that could fail.
    refine ⟨memory.failed, ?_⟩
    simp [Store.perform, Store.attempt, answer_swap present, Move.hindrance?, Move.runs,
      obstacle?, settle]
  | replay stored current => exact replay_whole closed present stored current next
  -- A refusal does not reach the store.
  | refuse current => exact ⟨memory.failed, rfl⟩

end Memory

end SchemaLedger
