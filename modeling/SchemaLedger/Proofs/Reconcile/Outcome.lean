import Mathlib.Data.List.TakeWhile
import SchemaLedger.Proofs.Reconcile.Calls
import SchemaLedger.Proofs.Reconcile.Wholeness

/-! What a run on a memory store comes to: moves are made as planned, up to the first hindered. -/

namespace SchemaLedger

/-- What is made of a value is made of it only where there was no failure. -/
theorem map_unlessFailed {α β : Type} (failure : Option MigrationError) (value : α) (made : α → β) :
    (unlessFailed failure value).map made = unlessFailed failure (made value) := by
  -- A failure passes through, whatever is made of the value.
  cases failure <;> rfl

/-- The failure of a result that depends on one is that one. -/
theorem failure?_unlessFailed {α : Type} (failure : Option MigrationError) (value : α) :
    failure? (unlessFailed failure value) = failure := by
  -- The failure is what is read off, and without one there is a value.
  cases failure <;> rfl

/-- The ledger of a memory, which counts as empty where there is none. -/
def Memory.recorded (memory : Memory) : Ledger := memory.ledger.getD .empty

/-- A move that can be made where some scripts fail can be made where none does. -/
theorem Move.free_of_free {failing : List String} {move : Move}
    (free : move.hindrance? failing = none) : move.hindrance? [] = none := by
  -- A refusal is never free, and only scripts that fail are in the way of other moves.
  cases move with
  | refuse current => cases free
  | revert | append | refresh | replay => exact Memory.obstacle?_nil _ _

namespace Plan

/-- The moves at the beginning of a plan that can all be made, where some scripts fail. -/
def feasible (failing : List String) (moves : List Move) : List Move :=
  moves.takeWhile fun move => (move.hindrance? failing).isNone

/-- Why not all moves of a plan can be made: what is in the way of the first of them. -/
def hindrance? (failing : List String) (moves : List Move) : Option MigrationError :=
  moves.findSome? (Move.hindrance? failing)

/-- The report on a plan that has been carried out. -/
def report (development : Bool) (ledger : Ledger) (migrations : List Migration) : Report :=
  (orphansReport development (Status.orphans ledger migrations)).join
    (localsReport development ledger migrations)

variable {failing : List String} {move : Move} {moves done rest : List Move}

/-- A move that can be made is followed by others. -/
theorem feasible_cons (free : move.hindrance? failing = none) :
    feasible failing (move :: moves) = move :: feasible failing moves := by
  -- A free move does not end the beginning that is taken.
  simp [feasible, free]

/-- Nothing is made behind a move that cannot be made, nor is that move. -/
theorem feasible_cons_of_hindered {error : MigrationError}
    (hindered : move.hindrance? failing = some error) : feasible failing (move :: moves) = [] := by
  -- The first hindered move is where the beginning ends.
  simp [feasible, hindered]

/-- Behind a move that can be made what is in the way is to be found. -/
theorem hindrance?_cons (free : move.hindrance? failing = none) :
    hindrance? failing (move :: moves) = hindrance? failing moves := by
  -- The first hindrance is not that of a free move.
  simp [hindrance?, free]

/-- What is in the way of the first move is in the way of the plan. -/
theorem hindrance?_cons_of_hindered {error : MigrationError}
    (hindered : move.hindrance? failing = some error) :
    hindrance? failing (move :: moves) = some error := by
  -- The first hindrance found is the one of the first move.
  simp [hindrance?, hindered]

/-- What can be made is made before the rest. -/
theorem feasible_append (free : ∀ move ∈ done, move.hindrance? failing = none) :
    feasible failing (done ++ rest) = done ++ feasible failing rest :=
  -- Free moves are taken one and all.
  List.takeWhile_append_of_pos fun move member => by simp [free move member]

/-- What is in the way stands behind what can be made. -/
theorem hindrance?_append (free : ∀ move ∈ done, move.hindrance? failing = none) :
    hindrance? failing (done ++ rest) = hindrance? failing rest := by
  -- Among free moves no hindrance is found, so that the search goes on behind them.
  have nothing : done.findSome? (Move.hindrance? failing) = none :=
    List.findSome?_eq_none_iff.mpr free
  rw [hindrance?, List.findSome?_append, nothing, Option.none_or, ← hindrance?]

/-- Where nothing is in the way all moves can be made. -/
theorem feasible_of_free {failing : List String} {moves : List Move}
    (free : hindrance? failing moves = none) : feasible failing moves = moves := by
  -- With no hindrance anywhere the beginning is the whole list.
  refine List.takeWhile_eq_self_iff.mpr fun move member => ?_
  simp [List.findSome?_eq_none_iff.mp free move member]

end Plan

/-- The state of a memory behind moves that were all made. -/
def Memory.behind (memory : Memory) (current : Ledger) (moves : List Move) (failed : List String) :
    Memory :=
  { memory with
    ledger := some current
    executed := memory.executed ++ moves.flatMap (Move.runs memory.failing)
    failed
    writes := memory.writes + moves.length }

/-- On a memory store moves are followed up to the first that cannot be made. -/
theorem Follows.on_memory {loaded : Ledger} {moves : List Move} {made : List CallRecord}
    {outcome : Except MigrationError Ledger} {memory after : Memory}
    (follows : Follows loaded moves made outcome)
    (answers : Memory.store.Answers memory made after) (closed : memory.snapshots = [])
    (present : memory.ledger = some loaded) :
    ∃ current failed, Moved loaded (Plan.feasible memory.failing moves) current ∧
      outcome = unlessFailed (Plan.hindrance? memory.failing moves) current ∧
      after = memory.behind current (Plan.feasible memory.failing moves) failed := by
  -- The induction is on the moves, each of which is made in the memory that the last one left.
  induction follows generalizing memory with
  | done ledger =>
    -- Without moves nothing is in the way, and the memory is left as it is.
    cases answers
    refine ⟨ledger, after.failed, .start ledger, rfl, ?_⟩
    simp [Memory.behind, Plan.feasible, ← present]
  | @next ledger next move moves made later outcome writes calls rest ih =>
    obtain ⟨between, first, second⟩ := answers.split
    obtain ⟨failed, whole⟩ := Memory.perform_whole closed present next move
    -- The move has succeeded, so nothing was in its way.
    rw [calls.evaluated first, Prod.mk.injEq] at whole
    obtain ⟨free, rfl⟩ := whole
    rw [← free] at second
    -- The other moves are made in the memory that it has left.
    obtain ⟨current, refused, moved, ended, rfl⟩ := ih second closed rfl
    refine ⟨current, refused, ?_, ?_, ?_⟩
    · rw [Plan.feasible_cons free.symm]
      exact .next writes moved
    · rw [Plan.hindrance?_cons free.symm]
      exact ended
    · rw [Plan.feasible_cons free.symm]
      simp [Memory.behind, Memory.settle, Nat.add_assoc, Nat.add_comm]
  | @stopped ledger next move made error writes calls moves =>
    obtain ⟨failed, whole⟩ := Memory.perform_whole closed present next move
    -- The move has failed with what was in its way, and left nothing behind.
    rw [calls.evaluated answers, Prod.mk.injEq] at whole
    obtain ⟨hindered, rfl⟩ := whole
    refine ⟨ledger, failed, ?_, ?_, ?_⟩
    · rw [Plan.feasible_cons_of_hindered hindered.symm]
      exact .start ledger
    · rw [Plan.hindrance?_cons_of_hindered hindered.symm]
      rfl
    · rw [Plan.feasible_cons_of_hindered hindered.symm, ← hindered]
      simp [Memory.behind, Memory.settle, ← present]
  | refused ledger current moves =>
    cases answers
    -- A refusal is in the way by itself.
    have hindered : (Move.refuse current).hindrance? after.failing =
        some (.upChanged current.name) := rfl
    refine ⟨ledger, after.failed, ?_, ?_, ?_⟩
    · rw [Plan.feasible_cons_of_hindered hindered]
      exact .start ledger
    · rw [Plan.hindrance?_cons_of_hindered hindered]
      rfl
    · rw [Plan.feasible_cons_of_hindered hindered]
      simp [Memory.behind, ← present]

namespace Reconciler

/-- The state in which a run leaves a store. -/
def left {σ : Type} (r : Reconciler σ) (migrations : List Migration) (state : σ) : σ :=
  (r.run migrations { state }).2.state

/-- A reconciler of a memory store. -/
def inMemory (clock : Nat → Instant) (development : Bool) : Reconciler Memory :=
  ⟨Memory.store, clock, development⟩

variable {clock : Nat → Instant} {development : Bool} {migrations sorted : List Migration}
  {memory : Memory}

/-- Without an order a store is not called, and nothing happens to it. -/
theorem unordered_run {σ : Type} (r : Reconciler σ) {error : MigrationError} (state : σ)
    (refused : canonicalOrder migrations = .error error) :
    r.result migrations state = .error error ∧ r.calls migrations state = [] ∧
      r.left migrations state = state := by
  -- A list that cannot be sorted ends the run before its first call.
  rw [result, calls, left, r.run_of_unordered refused]
  exact ⟨rfl, rfl, rfl⟩

/-- A run on a memory store follows the plan made from the ledger that it finds there. -/
theorem follows_inMemory (clock : Nat → Instant) (development : Bool) (memory : Memory)
    (ordered : canonicalOrder migrations = .ok sorted) :
    ∃ made outcome, (inMemory clock development).calls migrations memory = ⟨.load, none⟩ :: made ∧
      Follows memory.recorded (Plan.moves development memory.recorded sorted) made outcome ∧
      Memory.store.Answers { memory with
          ledger := some memory.recorded
          bootstrapped := memory.bootstrapped || memory.ledger.isNone }
        made ((inMemory clock development).left migrations memory) ∧
      (inMemory clock development).result migrations memory =
        outcome.map fun _ => Plan.report development memory.recorded sorted := by
  obtain ⟨made, answers, same, course⟩ :=
    (inMemory clock development).run_course migrations { state := memory }
  rw [List.nil_append] at same
  have loading : (inMemory clock development).store.load memory = Memory.store.load memory := rfl
  rw [loading, Memory.load_eq] at course
  rw [calls, left, result, same]
  generalize ((inMemory clock development).run migrations { state := memory }).1 = result at course
  -- The migrations are in order and the ledger of a memory can be loaded, so the plan is followed.
  cases course with
  | unordered refused => rw [ordered] at refused; cases refused
  | unloaded _ failed => cases failed
  | followed accepted opened follows =>
    rw [ordered] at accepted
    cases accepted
    cases opened
    cases answers with
    | next answered rest =>
      -- Loading leaves a memory that has the loaded ledger for certain.
      have loaded := answered.symm.trans (Memory.answer_load memory)
      cases loaded
      exact ⟨_, _, rfl, follows, rest, rfl⟩

/--
A run on a memory store makes the moves of its plan, up to the first that cannot be made.

The plan is the one made from the ledger that is loaded.
-/
theorem run_inMemory (clock : Nat → Instant) (development : Bool)
    (ordered : canonicalOrder migrations = .ok sorted) (closed : memory.inTransaction = false) :
    ∃ current failed,
      Moved memory.recorded
        (Plan.feasible memory.failing (Plan.moves development memory.recorded sorted)) current ∧
      (inMemory clock development).left migrations memory =
        { memory.behind current (Plan.feasible memory.failing
            (Plan.moves development memory.recorded sorted)) failed with
          bootstrapped := memory.bootstrapped || memory.ledger.isNone } ∧
      (inMemory clock development).result migrations memory =
        unlessFailed
          (Plan.hindrance? memory.failing (Plan.moves development memory.recorded sorted))
          (Plan.report development memory.recorded sorted) := by
  have none_open : memory.snapshots = [] := by simpa [Memory.inTransaction] using closed
  -- The plan is followed from the memory behind the loading of its ledger.
  obtain ⟨made, outcome, _, follows, answers, reported⟩ :=
    follows_inMemory clock development memory ordered
  obtain ⟨current, failed, moved, ended, left⟩ := follows.on_memory answers none_open rfl
  rw [ended, map_unlessFailed] at reported
  exact ⟨current, failed, moved, left, reported⟩

/-- A run on a memory store that succeeds has made all moves of its plan, and reports on them. -/
theorem succeeded_inMemory {report : Report} (ordered : canonicalOrder migrations = .ok sorted)
    (closed : memory.inTransaction = false)
    (succeeded : (inMemory clock development).result migrations memory = .ok report) :
    ∃ current failed,
      Moved memory.recorded (Plan.moves development memory.recorded sorted) current ∧
      (inMemory clock development).left migrations memory =
        { memory.behind current (Plan.moves development memory.recorded sorted) failed with
          bootstrapped := memory.bootstrapped || memory.ledger.isNone } ∧
      report = Plan.report development memory.recorded sorted := by
  obtain ⟨current, failed, moved, left, ended⟩ :=
    run_inMemory clock development ordered closed
  rw [succeeded] at ended
  -- A success means that nothing was in the way.
  obtain ⟨free, same⟩ := succeeded_of_ok ended
  rw [Plan.feasible_of_free free] at moved left
  exact ⟨current, failed, moved, left, same⟩

/-- A run on a memory store that succeeds leaves the ledger that it has written last. -/
theorem written_inMemory {report : Report} (ordered : canonicalOrder migrations = .ok sorted)
    (closed : memory.inTransaction = false)
    (succeeded : (inMemory clock development).result migrations memory = .ok report) :
    ((inMemory clock development).left migrations memory).ledger =
      some (History.written memory.recorded
        ((inMemory clock development).calls migrations memory)) := by
  have none_open : memory.snapshots = [] := by simpa [Memory.inTransaction] using closed
  obtain ⟨made, outcome, called, follows, answers, reported⟩ :=
    follows_inMemory clock development memory ordered
  obtain ⟨current, failed, _, ended, left⟩ := follows.on_memory answers none_open rfl
  cases outcome with
  | error error =>
    -- An error in the moves would have been the error of the run.
    rw [succeeded] at reported
    cases reported
  | ok reached =>
    -- The moves have ended with the ledger that the memory is left with.
    obtain ⟨_, same⟩ := succeeded_of_ok ended
    rw [called, History.written_load, follows.written, same, left]
    rfl

end Reconciler

end SchemaLedger
