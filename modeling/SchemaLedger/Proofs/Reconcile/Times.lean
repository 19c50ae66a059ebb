import SchemaLedger.Proofs.Reconcile.Outcome

/-! The times in the ledgers of a run are those that were loaded, or are taken from its clock. -/

namespace SchemaLedger

/-- A record shows the time at which its up script was applied: as loaded, or by the clock. -/
def Migration.Timed (clock : Nat → Instant) (loaded : Ledger) (record : Migration) : Prop :=
  (∃ old ∈ loaded.records, old.name = record.name ∧ old.up = record.up ∧
    old.appliedAt = record.appliedAt) ∨ ∃ turn, record.appliedAt = some (clock turn)

/-- Where no loaded record has the name and the up script of a new one, its time is a reading. -/
theorem Migration.Timed.reading {clock : Nat → Instant} {loaded : Ledger} {migration : Migration}
    {time : Instant} (timed : (migration.stamped time).Timed clock loaded)
    (new : ∀ old ∈ loaded.records, old.name = migration.name → old.up ≠ migration.up) :
    ∃ turn, time = clock turn := by
  rcases timed with ⟨old, member, named, same, _⟩ | ⟨turn, reading⟩
  · exact absurd same (new old member named)
  -- What is left is a reading.
  · exact ⟨turn, Option.some.inj reading⟩

/-- All records of a ledger show the times at which their up scripts were applied. -/
def Ledger.Timed (current : Ledger) (clock : Nat → Instant) (loaded : Ledger) : Prop :=
  ∀ record ∈ current.records, record.Timed clock loaded

namespace Ledger.Timed

variable {clock : Nat → Instant} {loaded ledger : Ledger} {record : Migration}

/-- A ledger shows the times that it was loaded with. -/
theorem refl (clock : Nat → Instant) (loaded : Ledger) : loaded.Timed clock loaded :=
  -- Each record is its own origin.
  fun record member => .inl ⟨record, member, rfl, rfl, rfl⟩

/-- Removing a record leaves the times of the others. -/
theorem remove (timed : ledger.Timed clock loaded) (name : String) :
    (ledger.remove name).Timed clock loaded :=
  -- Fewer records have no other times.
  fun record member => timed record (List.mem_filter.mp member).1

/-- A record that is added has to show its own time only. -/
theorem push {next : Ledger} (timed : ledger.Timed clock loaded)
    (pushed : ledger.push record = .ok next) (own : record.Timed clock loaded) :
    next.Timed clock loaded := by
  -- The records are the old ones and the new one.
  intro other member
  rw [(push_ok pushed).2] at member
  rcases List.mem_append.mp member with kept | single
  · exact timed other kept
  · rwa [List.mem_singleton.mp single]

/-- A record that takes the place of another one has to show its own time only. -/
theorem replace (timed : ledger.Timed clock loaded) (own : record.Timed clock loaded) :
    (ledger.replace record).Timed clock loaded := by
  -- A record is the replacement if the names agree, and otherwise it is kept.
  intro other member
  obtain ⟨old, kept, same⟩ := List.mem_map.mp member
  split at same
  · rwa [← same]
  · exact same ▸ timed old kept

/-- A record with the up script and the time of a recorded one shows the time of that one. -/
theorem carry {current stored : Migration} (timed : ledger.Timed clock loaded)
    (found : ledger.get? current.name = some stored) (same : stored.up = current.up) :
    Migration.Timed clock loaded { current with appliedAt := stored.appliedAt } := by
  obtain ⟨member, named⟩ := get?_mem found
  -- The recorded time is either a loaded one or a reading, and is the same behind the exchange.
  rcases timed stored member with ⟨old, inside, oldName, oldUp, oldTime⟩ | reading
  · exact .inl ⟨old, inside, oldName.trans named, oldUp.trans same, oldTime⟩
  · exact .inr reading

end Ledger.Timed

/-- A call that offers a ledger offers one that shows the times of application. -/
def Call.Timed (clock : Nat → Instant) (loaded : Ledger) : Call → Prop
  | .swap _ next => next.Timed clock loaded
  | _ => True

namespace Run

variable {σ α β : Type} {store : Store σ} {allowed : Call → Prop}

/-- An activity only makes calls that are allowed, and returns what it promises. -/
def Keeps (store : Store σ) (allowed : Call → Prop) (action : Run σ α) (promised : α → Prop) :
    Prop :=
  Makes store action fun made result =>
    (∀ record ∈ made, allowed record.call) ∧ ∀ value, result = .ok value → promised value

/-- An activity may rely on what the one before it has promised. -/
theorem Keeps.bind {action : Run σ α} {next : α → Run σ β} {promised : α → Prop}
    {later : β → Prop} (first : Keeps store allowed action promised)
    (second : ∀ value, promised value → Keeps store allowed (next value) later) :
    Keeps store allowed (action >>= next) later := by
  -- The calls of both actions are allowed, and the second builds on the promise of the first.
  refine Makes.bind first ?_ ?_
  · -- A failure of the first promises nothing.
    intro made error holds
    exact ⟨holds.1, fun value impossible => by cases impossible⟩
  · intro made value holds
    refine (second value (holds.2 value rfl)).mono fun others result further => ?_
    refine ⟨fun record member => ?_, further.2⟩
    rcases List.mem_append.mp member with earlier | following
    · exact holds.1 record earlier
    · exact further.1 record following

/-- A value is returned as promised. -/
theorem keeps_pure {value : α} {promised : α → Prop} (holds : promised value) :
    Keeps store allowed (pure value) promised :=
  -- Nothing is called, and the value is as promised.
  makes_pure ⟨List.forall_mem_nil _, fun _ same => by cases same; exact holds⟩

/-- An error breaks no promise. -/
theorem keeps_throw {promised : α → Prop} (error : MigrationError) :
    Keeps store allowed (throw error) promised :=
  -- Without a value there is no promise to keep.
  makes_throw ⟨List.forall_mem_nil _, fun _ impossible => by cases impossible⟩

/-- An activity of one call keeps to what is allowed if that call is. -/
theorem keeps_call {action : Run σ α} {call : Call}
    (makes : Makes store action fun made result => made = [⟨call, failure? result⟩])
    (fine : allowed call) :
    Keeps store allowed action fun _ => True := by
  -- The one call that is made is fine.
  refine Makes.mono makes fun made result same => ⟨fun record member => ?_, fun _ _ => trivial⟩
  rw [same] at member
  rwa [List.mem_singleton.mp member]

/-- An event is reported in any case. -/
theorem keeps_report (event : Event) : Keeps store allowed (report event) fun _ => True := by
  -- Reports are no calls.
  refine Makes.mono (makes_report event) fun made result holds => ⟨fun record member => ?_, ?_⟩
  · rw [holds.1] at member
    cases member
  · exact fun _ _ => trivial

/-- The time taken is a reading of the clock. -/
theorem keeps_stamp (clock : Nat → Instant) :
    Keeps store allowed (stamp clock) fun time => ∃ turn, time = clock turn := by
  -- The time is the reading of the clock at this turn.
  intro session
  refine ⟨[], .silent _, (List.append_nil _).symm, List.forall_mem_nil _, ?_⟩
  intro time same
  cases same
  exact ⟨session.stamps, rfl⟩

/-- An attempt promises what the activity does, where that does not fail. -/
theorem Keeps.attempt {action : Run σ α} {promised : α → Prop}
    (keeps : Keeps store allowed action promised) :
    Keeps store allowed (attempt action) fun attempted =>
      ∀ value, attempted = .ok value → promised value := by
  -- Catching an error changes neither the calls nor a value that is there.
  intro session
  obtain ⟨made, answers, calls, fine, holds⟩ := keeps session
  refine ⟨made, answers, calls, fine, ?_⟩
  intro attempted same
  cases same
  exact holds

end Run

namespace Reconciler

variable {σ : Type} (r : Reconciler σ) {loaded ledger : Ledger} {report : Report}

open Run (Keeps keeps_pure keeps_throw keeps_call keeps_report keeps_stamp makes_execute makes_swap
  makes_transact)

/-- A script is run in any case. -/
theorem keeps_runScript (name script : String) :
    Keeps r.store (Call.Timed r.clock loaded) (r.runScript name script) fun _ => True := by
  -- Scripts carry no times, so that any may be run.
  refine (keeps_call (makes_execute script) trivial).attempt.bind fun attempted _ => ?_
  cases attempted with
  | ok => exact keeps_pure trivial
  | error error => exact (keeps_report _).bind fun _ _ => keeps_throw _

/-- A step of a transaction is taken in any case. -/
theorem keeps_transact (step : Transaction) :
    Keeps r.store (Call.Timed r.clock loaded) (Run.transact r.store step) fun _ => True :=
  -- The steps of a transaction carry no times.
  keeps_call (makes_transact step) trivial

/-- A ledger is written if it shows the times of application, and is gone on with. -/
theorem keeps_persist {next : Ledger} (timed : next.Timed r.clock loaded) :
    Keeps r.store (Call.Timed r.clock loaded) (r.persist ledger next)
      fun written => written.Timed r.clock loaded :=
  -- The ledger that is written is the one that the claim is about.
  (keeps_call (makes_swap ledger next) timed).bind fun _ _ => keeps_pure timed

/-- Orphans are reverted without a new time. -/
theorem keeps_settleOrphans (orphans : List Migration) (timed : ledger.Timed r.clock loaded) :
    Keeps r.store (Call.Timed r.clock loaded) (r.settleOrphans ledger report orphans)
      fun settled => settled.1.Timed r.clock loaded := by
  -- The induction is on the orphans, the next of which is met with the ledger left by the others.
  induction orphans generalizing ledger report with
  | nil => exact keeps_pure timed
  | cons orphan rest ih =>
    unfold Reconciler.settleOrphans
    refine (keeps_report _).bind fun _ _ => ?_
    split
    · refine (keeps_report _).bind fun _ _ => (r.keeps_runScript _ _).bind fun _ _ => ?_
      exact (r.keeps_persist (timed.remove orphan.name)).bind fun _ written => ih written
    · exact ih timed

/-- A replay reverts without writing a ledger. -/
theorem keeps_revertForReplay (stored current : Migration) :
    Keeps r.store (Call.Timed r.clock loaded) (r.revertForReplay stored current) fun _ => True := by
  -- No ledger is written on the way, whichever script undoes the migration.
  refine (keeps_report _).bind fun _ _ => (r.keeps_transact _).bind fun _ _ => ?_
  refine (keeps_call (makes_execute stored.down) trivial).attempt.bind fun attempted _ => ?_
  cases attempted with
  | ok => exact r.keeps_transact _
  | error error =>
    refine (keeps_report _).bind fun _ _ => (r.keeps_transact _).bind fun _ _ => ?_
    exact (r.keeps_transact _).bind fun _ _ => r.keeps_runScript _ _

/-- A replay writes the time at which the new up script was applied. -/
theorem keeps_replay (timed : ledger.Timed r.clock loaded) (stored current : Migration) :
    Keeps r.store (Call.Timed r.clock loaded) (r.replay ledger stored current)
      fun written => written.Timed r.clock loaded := by
  have inside : Keeps r.store (Call.Timed r.clock loaded)
      (r.replayInTransaction ledger stored current)
      fun written => written.Timed r.clock loaded := by
    refine (r.keeps_revertForReplay stored current).bind fun _ _ => ?_
    refine (keeps_report _).bind fun _ _ => (r.keeps_runScript _ _).bind fun _ _ => ?_
    refine (keeps_stamp r.clock).bind fun time reading => ?_
    obtain ⟨turn, rfl⟩ := reading
    -- The record of the new up script takes the place of the stored one.
    exact r.keeps_persist (timed.replace (.inr ⟨turn, rfl⟩))
  refine (keeps_report _).bind fun _ _ => (r.keeps_transact _).bind fun _ _ => ?_
  refine inside.attempt.bind fun attempted written => ?_
  cases attempted with
  | ok next =>
    refine (r.keeps_transact _).bind fun _ _ => (keeps_report _).bind fun _ _ => ?_
    exact keeps_pure (written next rfl)
  | error error =>
    -- The error is raised whether or not the rollback succeeds.
    refine (r.keeps_transact .rollback).attempt.bind fun rollback _ => ?_
    cases rollback with
    | ok => exact keeps_throw _
    | error refused => exact (keeps_report _).bind fun _ _ => keeps_throw _

/-- A refresh carries the time of the record over, because the up script stays the same. -/
theorem keeps_settleLast {stored current : Migration} (timed : ledger.Timed r.clock loaded)
    (found : ledger.get? current.name = some stored) :
    Keeps r.store (Call.Timed r.clock loaded) (r.settleLast ledger report stored current)
      fun settled => settled.1.Timed r.clock loaded := by
  -- Of the three branches only the description is written without a new reading.
  unfold Reconciler.settleLast
  split
  · split
    · exact (r.keeps_replay timed stored current).bind fun _ written => keeps_pure written
    · exact keeps_throw _
  · rename_i unchanged
    split
    · refine (keeps_report _).bind fun _ _ => ?_
      -- The scripts agree, so that the record keeps its time.
      have carried := timed.carry found (by simpa using unchanged)
      exact (r.keeps_persist (timed.replace carried)).bind fun _ written => keeps_pure written
    · exact keeps_pure timed

/-- A migration is recorded with the time at which it was applied. -/
theorem keeps_apply (migration : Migration) (timed : ledger.Timed r.clock loaded) :
    Keeps r.store (Call.Timed r.clock loaded) (r.apply ledger report migration)
      fun settled => settled.1.Timed r.clock loaded := by
  -- The script has run before the clock is read.
  refine (keeps_report _).bind fun _ _ => (r.keeps_runScript _ _).bind fun _ _ => ?_
  refine (keeps_stamp r.clock).bind fun time reading => ?_
  obtain ⟨turn, rfl⟩ := reading
  -- Adding to the ledger calls nothing, and the new record has the time just read.
  have added : Keeps r.store (Call.Timed r.clock loaded)
      (liftM (ledger.push (migration.stamped (r.clock turn))) : Run σ Ledger)
      fun written => written.Timed r.clock loaded := by
    cases pushed : ledger.push (migration.stamped (r.clock turn)) with
    | error error => exact keeps_throw error
    | ok next => exact keeps_pure (timed.push pushed (.inr ⟨turn, rfl⟩))
  refine added.bind fun next written => (r.keeps_persist written).bind fun _ persisted => ?_
  exact (keeps_report _).bind fun _ _ => keeps_pure persisted

/-- Local migrations are gone through with the times at which they were applied. -/
theorem keeps_advance (migrations : List Migration) (found : Nat)
    (timed : ledger.Timed r.clock loaded) :
    Keeps r.store (Call.Timed r.clock loaded) (r.advance ledger report found migrations)
      fun _ => True := by
  -- A batch is told of by an event, or not at all.
  have reportAlreadyRun : ∀ count, Keeps r.store (Call.Timed r.clock loaded)
      (Reconciler.reportAlreadyRun count) fun _ => True := by
    intro count
    unfold Reconciler.reportAlreadyRun
    split
    · exact keeps_report _
    · exact keeps_pure trivial
  -- What is kept from one migration to the next is that the ledger shows the times.
  induction migrations generalizing ledger report found with
  | nil => exact (reportAlreadyRun found).bind fun _ _ => keeps_pure trivial
  | cons migration rest ih =>
    unfold Reconciler.advance
    cases known : ledger.get? migration.name with
    | none =>
      refine (reportAlreadyRun found).bind fun _ _ => ?_
      exact (r.keeps_apply migration timed).bind fun _ settled => ih 0 settled
    | some stored =>
      simp only
      split
      · exact (r.keeps_settleLast timed known).bind fun _ settled => ih _ settled
      · exact ih _ timed

/-- Every ledger that a run offers to the store shows the times of application. -/
theorem timed_of_swap {migrations sorted : List Migration} {state : σ} {expected next : Ledger}
    (ordered : canonicalOrder migrations = .ok sorted)
    (opened : (r.store.load state).1 = .ok loaded)
    (offered : (expected, next) ∈ History.swaps (r.calls migrations state)) :
    next.Timed r.clock loaded := by
  have behind : Keeps r.store (Call.Timed r.clock loaded) (r.afterLoad sorted loaded)
      fun _ => True :=
    (r.keeps_settleOrphans _ (.refl _ loaded)).bind fun _ settled =>
      r.keeps_advance sorted 0 settled
  obtain ⟨made, _, called, fine, _⟩ := behind (Run.load r.store { state }).2
  -- The first call loads the ledger, and all others come behind it.
  have whole : r.calls migrations state = ⟨.load, none⟩ :: made := by
    rw [calls, r.run_of_opened ordered { state } opened]
    refine called.trans ?_
    show [⟨.load, failure? (r.store.load state).1⟩] ++ made = _
    rw [opened]
    rfl
  rw [whole, History.swaps_load] at offered
  obtain ⟨⟨call, failure⟩, member, offers⟩ := List.mem_flatMap.mp offered
  -- A swap among the calls is one that was allowed, and so shows the times.
  cases call with
  | swap before after =>
    obtain ⟨_, rfl⟩ := Prod.mk.inj (List.mem_singleton.mp offers)
    exact fine _ member
  | _ => cases offers

/-- A run on a memory store that succeeds leaves a ledger that shows the times of application. -/
theorem timed_inMemory {clock : Nat → Instant} {development : Bool}
    {migrations sorted : List Migration} {memory : Memory} {current : Ledger}
    (ordered : canonicalOrder migrations = .ok sorted)
    (closed : memory.inTransaction = false)
    (succeeded : (inMemory clock development).result migrations memory = .ok report)
    (left : ((inMemory clock development).left migrations memory).ledger = some current) :
    current.Timed clock memory.recorded := by
  rw [written_inMemory ordered closed succeeded, Option.some.injEq] at left
  have opened : (Memory.store.load memory).1 = .ok memory.recorded := by
    rw [Memory.load_eq]
    rfl
  -- The ledger left is the one loaded, or one that the run has offered to the store.
  rcases History.written_cases memory.recorded
    ((inMemory clock development).calls migrations memory) with same | ⟨expected, offered⟩
  · rw [← left, same]
    exact .refl clock _
  · rw [← left]
    exact (inMemory clock development).timed_of_swap ordered opened offered

end Reconciler

end SchemaLedger
