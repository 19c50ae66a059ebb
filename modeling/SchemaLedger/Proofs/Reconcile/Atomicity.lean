import SchemaLedger.Proofs.Ledger.Records
import SchemaLedger.Proofs.Reconcile.Persistence
import SchemaLedger.Proofs.Reconcile.Replay
import SchemaLedger.Proofs.Reconcile.Standing
import SchemaLedger.Proofs.Reconcile.Times

/-! A replay on a memory store is made as a whole, or nothing of it is left. -/

namespace SchemaLedger

/-- A step of a transaction comes behind calls among which there is none. -/
theorem Stepless.cut {first second earlier later : List CallRecord} {record : CallRecord}
    {step : Transaction} (stepless : Stepless first) (same : record.call = .transact step)
    (cut : first ++ second = earlier ++ record :: later) :
    ∃ inner, earlier = first ++ inner ∧ second = inner ++ record :: later := by
  rcases List.append_eq_append_iff.mp cut with beyond | ⟨inner, whole, rest⟩
  · exact beyond
  · cases inner with
    | nil => exact ⟨[], by simpa using whole.symm, by simpa using rest.symm⟩
    | cons head inner =>
      rw [List.cons_append, List.cons.injEq] at rest
      -- The step would be one of the first calls.
      have member : record ∈ first := by
        rw [whole, rest.1]
        exact List.mem_append_right _ List.mem_cons_self
      exact absurd same (stepless record member step)

/-- The scripts that a replay comes to behind the stored down script, where some scripts fail. -/
def scriptsBehindStored (failing : List String) (stored current : Migration) : List String :=
  if stored.down ∈ failing then [current.down, current.up] else [current.up]

/-- What is in the way of a replay is the first script that fails behind the stored down script. -/
theorem Move.hindrance?_replay (failing : List String) (stored current : Migration) :
    (Move.replay stored current).hindrance? failing =
      ((scriptsBehindStored failing stored current).find? failing.contains).map fun script =>
        .scriptFailed current.name script (.store (Memory.Refusal.scriptFailed script).reason) := by
  -- Whether the stored down script fails decides which others are run behind it.
  by_cases fails : stored.down ∈ failing <;>
    simp [Move.hindrance?, Move.runs, Move.name, Memory.obstacle?, scriptsBehindStored, fails]

/-- A replay can be made if the current up script works, and one of the two down scripts does. -/
theorem Move.replay_free_iff (failing : List String) (stored current : Migration) :
    (Move.replay stored current).hindrance? failing = none ↔
      current.up ∉ failing ∧ (stored.down ∉ failing ∨ current.down ∉ failing) := by
  -- The replay is free when none of the scripts that it would run fails.
  rw [Move.hindrance?_replay, Option.map_eq_none_iff, List.find?_eq_none]
  by_cases fails : stored.down ∈ failing <;> simp [scriptsBehindStored, fails, and_comm]

/--
How a run ends with a replay that it begins in a memory.

The replay is made as a whole, and falls back on the current down script where the stored one fails.
Otherwise nothing of it is left, and the first script that fails is the one reported.
-/
structure AllOrNothing (clock : Nat → Instant) (stored current : Migration)
    (before after : Memory) (result : Except MigrationError Report) : Prop where
  succeeds : (∃ report, result = .ok report) ↔
    current.up ∉ before.failing ∧ (stored.down ∉ before.failing ∨ current.down ∉ before.failing)
  executed : ∀ report, result = .ok report → after.executed = before.executed ++
    [if stored.down ∈ before.failing then current.down else stored.down, current.up]
  /-- Only the record of the migration is exchanged, in its place and with a new time. -/
  recorded : ∀ report, result = .ok report → ∃ ledger next front back turn,
    before.ledger = some ledger ∧ ledger.records = front ++ stored :: back ∧
    after.ledger = some next ∧ next.records = front ++ current.stamped (clock turn) :: back
  undone : ∀ error, result = .error error → after.executed = before.executed ∧
    after.ledger = before.ledger ∧ after.writes = before.writes
  blamed : ∀ error, result = .error error → ∃ script,
    (scriptsBehindStored before.failing stored current).find? before.failing.contains =
      some script ∧
    error = .scriptFailed current.name script
      (.store (Memory.Refusal.scriptFailed script).reason)
  closed : after.inTransaction = false

/-- A replay that is settled as a whole is all or nothing. -/
theorem Memory.allOrNothing_settle {clock : Nat → Instant} {stored current : Migration}
    {before : Memory} {ledger : Ledger} {time : Instant} (closed : before.snapshots = [])
    (present : before.ledger = some ledger) (found : ledger.get? current.name = some stored)
    (reading : (Move.replay stored current).hindrance? before.failing = none →
      ∃ turn, time = clock turn) (failed : List String) (report : Report) :
    AllOrNothing clock stored current before
      (before.settle (ledger.replace (current.stamped time))
        ((Move.replay stored current).runs before.failing) failed
        ((Move.replay stored current).hindrance? before.failing))
      (unlessFailed ((Move.replay stored current).hindrance? before.failing) report) := by
  have free := Move.replay_free_iff before.failing stored current
  have hindered := Move.hindrance?_replay before.failing stored current
  have none_open : before.inTransaction = false := by simp [inTransaction, closed]
  cases outcome : (Move.replay stored current).hindrance? before.failing with
  | none =>
    obtain ⟨turn, rfl⟩ := reading outcome
    obtain ⟨member, named⟩ := Ledger.get?_mem found
    obtain ⟨front, back, placed⟩ := List.append_of_mem member
    -- The record is exchanged at its place, and all others stay.
    have exchanged : (ledger.replace (current.stamped (clock turn))).records =
        front ++ current.stamped (clock turn) :: back :=
      Ledger.records_replace_of_placed placed named.symm
    refine ⟨⟨fun _ => free.mp outcome, fun _ => ⟨report, rfl⟩⟩, fun _ _ => ?_, fun _ _ => ?_,
      fun _ wrong => ?_, fun _ wrong => ?_, none_open⟩
    · simp [settle, Move.runs]
    · exact ⟨ledger, _, front, back, turn, present, placed, rfl, exchanged⟩
    · cases wrong
    · cases wrong
  | some error =>
    -- Whatever was in the way is what the run ends with.
    rw [outcome] at hindered
    obtain ⟨script, first, same⟩ := Option.map_eq_some_iff.mp hindered.symm
    -- A replay that failed leaves the memory as it was before.
    refine ⟨⟨fun succeeded => ?_, fun works => ?_⟩, fun _ wrong => ?_, fun _ wrong => ?_,
      fun _ _ => ⟨rfl, rfl, rfl⟩, fun _ stopped => ?_, none_open⟩
    · obtain ⟨_, wrong⟩ := succeeded
      cases wrong
    · rw [free.mpr works] at outcome
      cases outcome
    · cases wrong
    · cases wrong
    · cases stopped
      exact ⟨script, first, same.symm⟩

namespace Plan

variable {ledger : Ledger} {migrations : List Migration} {stored current : Migration}

/-- The scripts that a run executes in development before it comes to the last migration. -/
def passScripts (ledger : Ledger) (migrations : List Migration) : List String :=
  (Status.orphans ledger migrations).map (·.down) ++ (pending ledger migrations).map (·.up)

/-- The moves before a replay run their scripts, whichever scripts fail. -/
theorem runs_of_passes (failing : List String) :
    (passes ledger migrations).flatMap (Move.runs failing) = passScripts ledger migrations := by
  -- Both lists are split into removals and additions, each of which runs one script.
  rw [passes, passScripts, List.flatMap_append, List.flatMap_map, List.flatMap_map,
    List.map_eq_flatMap, List.map_eq_flatMap]
  rfl

/-- The moves before a replay can all be made if none of their scripts fails. -/
theorem passes_free_iff (failing : List String) :
    hindrance? failing (passes ledger migrations) = none ↔
      ∀ script ∈ passScripts ledger migrations, script ∉ failing := by
  have single : ∀ name script, Memory.obstacle? failing name [script] = none ↔ script ∉ failing := by
    intro name script
    simp [Memory.obstacle?]
  -- Each of these moves executes one script.
  simp only [hindrance?, passes, passScripts, List.findSome?_eq_none_iff, List.forall_mem_append,
    List.forall_mem_map, Move.hindrance?, Move.runs, single]

/-- What is in the way of a single move is in the way of its plan. -/
theorem hindrance?_singleton (failing : List String) (move : Move) :
    hindrance? failing [move] = move.hindrance? failing := by
  simp [hindrance?]

end Plan

namespace Reconciler

/-- A store answers all calls of a run, and is left behind the last of them. -/
theorem answers_left {σ : Type} (r : Reconciler σ) (migrations : List Migration) (state : σ) :
    r.store.Answers state (r.calls migrations state) (r.left migrations state) := by
  -- A course has the store's answers to all calls of the run.
  obtain ⟨made, answers, same, -⟩ := r.run_course migrations { state }
  rw [List.nil_append] at same
  rw [calls, same]
  exact answers

variable {migrations sorted : List Migration} {memory : Memory} {stored current : Migration}

/-- The time of a replay that succeeds is a reading of the clock. -/
theorem reading_of_replay {clock : Nat → Instant} {development : Bool} {report : Report}
    {ledger : Ledger} {time : Instant} (ordered : canonicalOrder migrations = .ok sorted)
    (closed : memory.inTransaction = false)
    (succeeded : (inMemory clock development).result migrations memory = .ok report)
    (found : memory.recorded.get? current.name = some stored) (differs : stored.up ≠ current.up)
    (present : ledger.contains current.name = true)
    (left : ((inMemory clock development).left migrations memory).ledger =
      some (ledger.replace (current.stamped time))) :
    ∃ turn, time = clock turn := by
  have timed := timed_inMemory ordered closed succeeded left
  have renewed : (ledger.replace (current.stamped time)).get? current.name =
      some (current.stamped time) := by
    apply Ledger.get?_replace_self
    exact present
  refine (timed _ (Ledger.get?_mem renewed).1).reading fun old member named => ?_
  -- The only record loaded under the name is the stored one.
  have foundOld := Ledger.get?_of_mem member
  rw [named, found] at foundOld
  cases foundOld
  exact differs

/-- Where a run stands once it has loaded the ledger and made the moves before its replay. -/
theorem passed_inMemory {made : List CallRecord} {outcome : Except MigrationError Ledger}
    {before : Memory} (closed : memory.snapshots = [])
    (follows : Follows memory.recorded (Plan.passes memory.recorded sorted) made outcome)
    (answers : Memory.store.Answers memory (⟨.load, none⟩ :: made) before) :
    failure? outcome = Plan.hindrance? memory.failing (Plan.passes memory.recorded sorted) ∧
      ∀ between, outcome = .ok between →
        Moved memory.recorded (Plan.passes memory.recorded sorted) between ∧
        before.failing = memory.failing ∧ before.snapshots = [] ∧ before.ledger = some between ∧
        before.executed = memory.executed ++ Plan.passScripts memory.recorded sorted := by
  cases answers with
  | next loading rest =>
    cases loading.symm.trans (Memory.answer_load memory)
    obtain ⟨reached, failed, moved, ended, rfl⟩ := follows.on_memory rest closed rfl
    refine ⟨by rw [ended, failure?_unlessFailed], ?_⟩
    rintro between rfl
    -- Without an error all of the moves were made.
    obtain ⟨free, rfl⟩ := succeeded_of_ok ended
    rw [Plan.feasible_of_free free] at moved ⊢
    refine ⟨moved, rfl, closed, rfl, ?_⟩
    rw [← Plan.runs_of_passes memory.failing]
    rfl

/-- A run that comes to its replay ends with all of it or nothing of it. -/
theorem allOrNothing_inMemory {made later : List CallRecord} {between : Ledger} {before : Memory}
    {outcome : Except MigrationError Ledger} (clock : Nat → Instant)
    (ordered : canonicalOrder migrations = .ok sorted) (closed : memory.inTransaction = false)
    (final : sorted.getLast? = some current)
    (found : memory.recorded.get? current.name = some stored) (differs : stored.up ≠ current.up)
    (passed : Follows memory.recorded (Plan.passes memory.recorded sorted) made (.ok between))
    (reached : Memory.store.Answers memory (⟨.load, none⟩ :: made) before)
    (follows : Follows between [.replay stored current] later outcome)
    (answers : Memory.store.Answers before later ((inMemory clock true).left migrations memory)) :
    AllOrNothing clock stored current before ((inMemory clock true).left migrations memory)
      ((inMemory clock true).result migrations memory) := by
  have none_open : memory.snapshots = [] := by simpa [Memory.inTransaction] using closed
  obtain ⟨free, standing⟩ := passed_inMemory none_open passed reached
  obtain ⟨moved, failing, unopened, present, -⟩ := standing between rfl
  have planned := Plan.moves_of_replay final found differs
  -- The moves before the replay were not about its migration, so the record is the one loaded.
  have stillFound : between.get? current.name = some stored :=
    (moved.get?_planned (canonicalOrder_ok ordered).2 planned).trans found
  obtain ⟨time, failure, replays⟩ := follows.of_replay
  obtain ⟨refused, whole⟩ := Memory.perform_whole unopened present
    (between.replace (current.stamped time)) (.replay stored current)
  rw [(Move.Calls.replay replays).evaluated answers, Prod.mk.injEq] at whole
  obtain ⟨-, settled⟩ := whole
  -- What is in the way of the replay is in the way of the run, because nothing else was.
  obtain ⟨_, _, _, _, ended⟩ := run_inMemory clock true ordered closed
  rw [planned, Plan.hindrance?_append (List.findSome?_eq_none_iff.mp free.symm),
    Plan.hindrance?_singleton, ← failing] at ended
  rw [show (inMemory clock true).result migrations memory = _ from ended, settled]
  refine Memory.allOrNothing_settle unopened present stillFound (fun works => ?_) refused _
  rw [works] at ended settled
  have present : between.contains current.name = true := by
    rw [Ledger.contains, stillFound]
    rfl
  exact reading_of_replay ordered closed ended found differs present (by rw [settled]; rfl)

end Reconciler

end SchemaLedger
