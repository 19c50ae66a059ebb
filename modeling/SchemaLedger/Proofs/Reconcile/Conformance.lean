import SchemaLedger.Proofs.Migration.Order
import SchemaLedger.Proofs.Reconcile.Attempt

/-! Every run follows the plan made from the ledger it loads, whatever the store answers. -/

namespace SchemaLedger

namespace Reconciler

variable {σ : Type} (r : Reconciler σ)

open Run (Makes Performs makes_pure makes_throw makes_report makes_execute makes_transact
  performs_pure performs_report performs_swap performs_transact)

/-- A script is one call, and its failure names the migration. -/
theorem performs_runScript (name script : String) :
    Performs r.store name (r.runScript name script) [.execute script] () := by
  refine (makes_execute script).afterAttempt fun made attempted holds => ?_
  obtain rfl := holds
  cases attempted with
  | ok => exact makes_pure ⟨none, .next .done, rfl⟩
  | error error =>
    -- The error is reported and then raised under the name of the migration.
    exact Makes.afterReport (makes_throw ⟨_, .failed _ [] error, rfl⟩)

/-- Writing a ledger is one call, behind which the run goes on with that ledger. -/
theorem performs_persist (name : String) (ledger next : Ledger) :
    Performs r.store name (r.persist ledger next) [.swap ledger next] next :=
  -- The ledger is written in one swap, and is the one given back.
  (performs_swap ledger next).bind (performs_pure next)

/-- The stored down script is run behind a savepoint, and the current one where it fails. -/
theorem makes_revertForReplay (stored current : Migration) :
    Makes r.store (r.revertForReplay stored current) fun made result =>
      ∃ failure, Guarded stored current [.transact (.release replaySavepoint)]
        [.transact (.rollbackTo replaySavepoint), .transact (.release replaySavepoint),
          .execute current.down] made failure ∧ result = unlessFailed failure () := by
  refine Makes.afterReport (Makes.bind (makes_transact _) ?_ ?_)
  · -- Without a savepoint no script is run at all.
    intro made error holds
    obtain rfl := holds
    exact ⟨_, .unguarded error, rfl⟩
  -- With the savepoint set, a failure of the stored down script can be undone.
  intro made value holds
  obtain rfl := holds
  refine (makes_execute stored.down).afterAttempt fun made attempted holds => ?_
  obtain rfl := holds
  cases attempted with
  | ok =>
    -- The savepoint has served its purpose.
    have release : Performs r.store current.name (Run.transact r.store (.release replaySavepoint))
        [.transact (.release replaySavepoint)] () := performs_transact _
    refine Makes.mono release fun later result holds => ?_
    obtain ⟨failure, attempts, ended⟩ := holds
    exact ⟨failure, .reverted attempts, ended⟩
  | error error =>
    -- What the stored script has done is undone before the current one is run.
    have fallback : Performs r.store current.name (do
        Run.report (.storedDownFailed current.name error)
        Run.transact r.store (.rollbackTo replaySavepoint)
        Run.transact r.store (.release replaySavepoint)
        r.runScript current.name current.down)
        [.transact (.rollbackTo replaySavepoint), .transact (.release replaySavepoint),
          .execute current.down] () :=
      (performs_report _).bind ((performs_transact _).bind ((performs_transact _).bind
        (r.performs_runScript _ _)))
    -- Each of these calls comes only behind those that have succeeded.
    refine Makes.mono fallback fun later result holds => ?_
    obtain ⟨failure, attempts, ended⟩ := holds
    exact ⟨failure, .fellBack error attempts, ended⟩

/-- A migration is applied in its current form and recorded by two calls. -/
theorem makes_replayInTransaction (ledger : Ledger) (stored current : Migration) :
    Makes r.store (r.replayInTransaction ledger stored current) fun made result =>
      ∃ time failure, Guarded stored current
        (callsAfterRevert current ledger (ledger.replace (current.stamped time)))
        (callsAfterFallback current ledger (ledger.replace (current.stamped time))) made failure ∧
        result = unlessFailed failure (ledger.replace (current.stamped time)) := by
  refine Makes.andThen (r.makes_revertForReplay stored current) ?_ ?_
  · -- No time has been taken yet, so any will do for the ledger that is not written.
    exact fun made error guarded => ⟨r.clock 0, some error, guarded.stop _, rfl⟩
  intro reverting guarded
  -- The migration is reverted by now, so its current up script can be run.
  refine Makes.afterReport (Makes.andThen (r.performs_runScript _ _) ?_ ?_)
  · exact fun made error attempts =>
      ⟨r.clock 0, some error, guarded.append (attempts.stop [.swap _ _]), rfl⟩
  intro applying attempts
  refine Makes.afterStamp fun time => ?_
  -- The record carries the time that is taken here.
  refine Makes.mono (r.performs_persist current.name ledger _) fun later result holds => ?_
  obtain ⟨failure, swaps, ended⟩ := holds
  exact ⟨time, failure, guarded.append (attempts.append swaps), ended⟩

/-- A replay opens a transaction, and then commits it or rolls it back. -/
theorem makes_replay (ledger : Ledger) (stored current : Migration) :
    Makes r.store (r.replay ledger stored current) fun made result =>
      ∃ time failure,
        Replays stored current ledger (ledger.replace (current.stamped time)) made failure ∧
        result = unlessFailed failure (ledger.replace (current.stamped time)) := by
  refine Makes.afterReport (Makes.bind (makes_transact _) ?_ ?_)
  · -- Where the transaction cannot be opened, nothing has to be rolled back.
    intro made error holds
    obtain rfl := holds
    exact ⟨r.clock 0, some error, .unopened error, rfl⟩
  intro opened value holds
  obtain rfl := holds
  -- What happens within the transaction decides how it is closed.
  refine (r.makes_replayInTransaction ledger stored current).afterAttempt
    fun made attempted holds => ?_
  obtain ⟨time, failure, guarded, ended⟩ := holds
  cases failure with
  | none =>
    subst ended
    refine Makes.bind (makes_transact _) ?_ ?_
    · -- A commit that fails is the last call, and its error is raised.
      intro committing error holds
      obtain rfl := holds
      exact ⟨time, some error, guarded.commit (some error), rfl⟩
    intro committing value holds
    obtain rfl := holds
    refine Makes.afterReport (makes_pure ?_)
    rw [List.append_nil]
    exact ⟨time, none, guarded.commit none, rfl⟩
  | some error =>
    subst ended
    -- The rollback is attempted, whether or not it succeeds.
    refine (makes_transact .rollback).afterAttempt fun closing rollback holds => ?_
    obtain rfl := holds
    -- The answer to the rollback does not change how the replay ends.
    have rolledBack := guarded.rollBack (failure? rollback)
    cases rollback with
    | ok =>
      refine makes_throw ?_
      rw [List.append_nil]
      exact ⟨time, some error, rolledBack, rfl⟩
    | error refused =>
      refine Makes.afterReport (makes_throw ?_)
      rw [List.append_nil]
      exact ⟨time, some error, rolledBack, rfl⟩

/-- A migration without a record is applied and recorded by two calls. -/
theorem makes_apply {ledger : Ledger} (report : Report) {migration : Migration}
    (free : ledger.contains migration.name = false) :
    Makes r.store (r.apply ledger report migration) fun made result =>
      ∃ next failure, (Move.append migration).Writes ledger next ∧
        (Move.append migration).Calls ledger next made failure ∧
        result = unlessFailed failure (next, report.join { applied := [migration.name] }) := by
  -- A name that is free stays free while the script runs, so that the record can be added.
  have free_stamped : ∀ time, ledger.contains (migration.stamped time).name = false := fun _ => free
  refine Makes.afterReport (Makes.andThen (r.performs_runScript _ _) ?_ ?_)
  · -- The record is not written when the up script fails.
    intro made error attempts
    obtain ⟨next, pushed, _⟩ := Ledger.push_of_free (free_stamped (r.clock 0))
    exact ⟨next, some error, .append pushed, .append (attempts.stop _), rfl⟩
  intro applying attempts
  refine Makes.afterStamp fun time => ?_
  obtain ⟨next, pushed, _⟩ := Ledger.push_of_free (free_stamped time)
  -- Adding the record cannot fail, and calls nothing.
  have added : Makes r.store (liftM (ledger.push (migration.stamped time)) : Run σ Ledger)
      fun made result => made = [] ∧ result = .ok next := by
    rw [pushed]
    exact makes_pure ⟨rfl, rfl⟩
  refine Makes.afterSilent added (Makes.andThen (r.performs_persist migration.name ledger next) ?_ ?_)
  · exact fun swapping error swaps =>
      ⟨next, some error, .append pushed, .append (attempts.append swaps), rfl⟩
  intro swapping swaps
  refine Makes.afterReport (makes_pure ?_)
  rw [List.append_nil]
  exact ⟨next, none, .append pushed, .append (attempts.append swaps),
    by simp [unlessFailed, Report.join]⟩

/-- A recorded migration that is compared with its record is treated as planned. -/
theorem makes_settleLast (ledger : Ledger) (report : Report) (stored current : Migration) :
    Makes r.store (r.settleLast ledger report stored current) fun made result =>
      ∃ outcome, Follows ledger (Plan.drift r.development stored current) made outcome ∧
        result = outcome.map fun next =>
          (next, report.join (Plan.driftReport (Plan.drift r.development stored current))) := by
  -- The run and the plan ask the same questions in the same order.
  unfold Reconciler.settleLast Plan.drift
  by_cases changed : stored.up ≠ current.up
  · simp only [if_pos changed]
    by_cases development : r.development = true
    · simp only [if_pos development]
      -- The replay is the only move, however it ends.
      refine Makes.bind (r.makes_replay ledger stored current) ?_ ?_
      · intro made error holds
        obtain ⟨time, failure, replays, ended⟩ := holds
        obtain rfl := failed_of_error ended
        exact ⟨_, .single (.replay stored current time) (.replay replays), rfl⟩
      intro made next holds
      obtain ⟨time, failure, replays, ended⟩ := holds
      obtain ⟨rfl, rfl⟩ := succeeded_of_ok ended
      refine makes_pure ?_
      rw [List.append_nil]
      exact ⟨_, .single (.replay stored current time) (.replay replays),
        by simp [unlessFailed, Except.map, Report.join, Plan.driftReport]⟩
    · -- Outside development the change is refused before anything is called.
      simp only [if_neg development]
      exact makes_throw ⟨_, .refused ledger current [], rfl⟩
  · simp only [if_neg changed]
    by_cases differs : stored.descriptorDiffers current = true
    · simp only [if_pos differs]
      refine Makes.afterReport (Makes.andThen (r.performs_persist current.name ledger _) ?_ ?_)
      · exact fun made error swaps => ⟨_, .single (.refresh stored current) (.refresh swaps), rfl⟩
      intro made swaps
      refine makes_pure ?_
      rw [List.append_nil]
      exact ⟨_, .single (.refresh stored current) (.refresh swaps),
        by simp [unlessFailed, Except.map, Report.join, Plan.driftReport]⟩
    · -- A record that agrees in everything is left as it is.
      simp only [if_neg differs]
      exact makes_pure ⟨_, .done ledger, by simp [Except.map, Report.join, Plan.driftReport]⟩

/-- Orphans are reverted one after the other, or only reported. -/
theorem makes_settleOrphans (orphans : List Migration) (ledger : Ledger) (report : Report) :
    Makes r.store (r.settleOrphans ledger report orphans) fun made result =>
      ∃ outcome, Follows ledger (Plan.reverts r.development orphans) made outcome ∧
        result = outcome.map fun next =>
          (next, report.join (Plan.orphansReport r.development orphans)) := by
  -- The induction is on the orphans still to come, from whatever ledger the others have left.
  induction orphans generalizing ledger report with
  | nil =>
    refine makes_pure ⟨.ok ledger, ?_, by simp [Except.map, Plan.orphansReport, Report.join]⟩
    rw [show Plan.reverts r.development [] = [] by simp [Plan.reverts]]
    exact .done ledger
  | cons orphan rest ih =>
    unfold Reconciler.settleOrphans
    refine Makes.afterReport ?_
    by_cases development : r.development = true
    · simp only [if_pos development]
      have planned : Plan.reverts r.development (orphan :: rest) =
          .revert orphan :: Plan.reverts r.development rest := by
        simp [Plan.reverts, development]
      rw [planned]
      refine Makes.afterReport (Makes.andThen (r.performs_runScript _ _) ?_ ?_)
      · -- The ledger is not written when the down script fails.
        exact fun made error attempts =>
          ⟨_, .stopped (.revert orphan) (.revert (attempts.stop _)) _, rfl⟩
      intro made attempts
      -- The orphan is reverted, but still recorded until the ledger is written.
      refine Makes.andThen (r.performs_persist orphan.name ledger _) ?_ ?_
      · exact fun swapping error swaps =>
          ⟨_, .stopped (.revert orphan) (.revert (attempts.append swaps)) _, rfl⟩
      intro swapping swaps
      -- The rest of the orphans is reverted from the ledger without this one.
      refine (ih _ _).mono fun later result holds => ?_
      obtain ⟨outcome, follows, rfl⟩ := holds
      refine ⟨outcome, ?_, by simp [Plan.orphansReport, development, Report.join]⟩
      rw [← List.append_assoc]
      exact .next (.revert orphan) (.revert (attempts.append swaps)) follows
    · -- Nothing is planned for an orphan that is only reported.
      simp only [if_neg development]
      have unplanned : Plan.reverts r.development (orphan :: rest) =
          Plan.reverts r.development rest := by
        simp [Plan.reverts, development]
      rw [unplanned]
      refine (ih ledger _).mono fun made result holds => ?_
      obtain ⟨outcome, follows, rfl⟩ := holds
      exact ⟨outcome, follows, by simp [Plan.orphansReport, development, Report.join]⟩

/-- The count of migrations found in a row is reported without a call. -/
theorem makes_reportAlreadyRun (count : Nat) :
    Makes r.store (reportAlreadyRun count) fun made result => made = [] ∧ result = .ok () := by
  -- An event is told or not, and the store is called in neither case.
  unfold reportAlreadyRun
  split
  · exact makes_report _
  · exact makes_pure ⟨rfl, rfl⟩

/-- Without local migrations there is nothing to report on them. -/
theorem join_localsReport_nil (development : Bool) (ledger : Ledger) (report : Report) :
    report.join (Plan.localsReport development ledger []) = report := by
  -- No migrations add nothing to the report.
  simp [Report.join, Plan.localsReport, Plan.driftReport, Plan.last, Plan.pending, Plan.recorded]

/-- Local migrations are treated in order, as planned from the ledger they are looked up in. -/
theorem makes_advance (migrations : List Migration) (ledger : Ledger) (report : Report)
    (found : Nat) (distinct : (migrations.map (·.name)).Nodup) :
    Makes r.store (r.advance ledger report found migrations) fun made result =>
      ∃ outcome, Follows ledger (Plan.locals r.development ledger migrations) made outcome ∧
        result = outcome.map fun _ =>
          report.join (Plan.localsReport r.development ledger migrations) := by
  -- The induction is on the migrations still to come, which are looked up in the current ledger.
  induction migrations generalizing ledger report found with
  | nil =>
    unfold Reconciler.advance
    refine Makes.afterSilent (r.makes_reportAlreadyRun found) (makes_pure ?_)
    exact ⟨.ok ledger, .done ledger, by rw [join_localsReport_nil]; rfl⟩
  | cons migration rest ih =>
    simp only [List.map_cons, List.nodup_cons] at distinct
    unfold Reconciler.advance
    cases known : ledger.get? migration.name with
    | none =>
      -- A migration without a record is applied, and counts as pending in the plan.
      have free := Ledger.contains_eq_false_iff.mpr known
      simp only
      rw [Plan.locals_cons_pending free, Plan.localsReport_cons_pending free]
      refine Makes.afterSilent (r.makes_reportAlreadyRun found)
        (Makes.bind (r.makes_apply report free) ?_ ?_)
      · intro made error holds
        obtain ⟨next, failure, writes, calls, ended⟩ := holds
        obtain rfl := failed_of_error ended
        exact ⟨_, .stopped writes calls _, rfl⟩
      intro made applied holds
      obtain ⟨next, failure, writes, calls, ended⟩ := holds
      obtain ⟨rfl, rfl⟩ := succeeded_of_ok ended
      -- The new record has another name than the migrations to come, so their plan stays.
      have agree : ∀ other ∈ rest, next.get? other.name = ledger.get? other.name := by
        intro other member
        refine writes.get?_other fun same => distinct.1 ?_
        exact List.mem_map.mpr ⟨other, member, same⟩
      refine (ih next _ 0 distinct.2).mono fun later result holds => ?_
      obtain ⟨outcome, follows, rfl⟩ := holds
      rw [Plan.locals_congr agree] at follows
      rw [Plan.localsReport_congr agree, Report.join_assoc]
      exact ⟨outcome, .next writes calls follows, rfl⟩
    | some stored =>
      simp only
      rw [Plan.locals_cons_recorded known, Plan.localsReport_cons_recorded known]
      by_cases final : rest.isEmpty = true
      · -- No migration follows, so it does not matter how the ledger changes.
        obtain rfl := List.isEmpty_iff.mp final
        simp only [if_pos final]
        refine Makes.andThenMap (r.makes_settleLast ledger report stored migration) ?_ ?_
        · exact fun made error follows => ⟨.error error, follows.stop _, rfl⟩
        intro made next follows
        refine (ih next _ (found + 1) distinct.2).mono fun later result holds => ?_
        obtain ⟨outcome, further, rfl⟩ := holds
        refine ⟨outcome, follows.append further, ?_⟩
        -- Reports are put together in any grouping, and there is nothing more to be reported.
        rw [join_localsReport_nil, ← Report.join_assoc, ← Report.join_assoc, join_localsReport_nil]
        simp [Report.join]
      · -- An older migration is not compared with its record.
        simp only [if_neg final, List.nil_append]
        refine Makes.afterSilent (makes_pure ⟨rfl, rfl⟩) ?_
        refine (ih ledger _ (found + 1) distinct.2).mono fun later result holds => ?_
        obtain ⟨outcome, further, rfl⟩ := holds
        refine ⟨outcome, further, ?_⟩
        simp [Report.join, Plan.driftReport]

/-- What a run does with the ledger that it has loaded. -/
def afterLoad (sorted : List Migration) (loaded : Ledger) : Run σ Report := do
  let (ledger, report) ← r.settleOrphans loaded {} (Status.orphans loaded sorted)
  r.advance ledger report 0 sorted

/-- Once the ledger is loaded, a run makes all the moves of its plan or stops at one of them. -/
theorem makes_afterLoad {migrations sorted : List Migration}
    (ordered : canonicalOrder migrations = .ok sorted) (loaded : Ledger) :
    Makes r.store (r.afterLoad sorted loaded) fun made result =>
      ∃ outcome, Follows loaded (Plan.moves r.development loaded sorted) made outcome ∧
        result = outcome.map fun _ =>
          (Plan.orphansReport r.development (Status.orphans loaded sorted)).join
            (Plan.localsReport r.development loaded sorted) := by
  refine Makes.andThenMap (r.makes_settleOrphans _ loaded {}) ?_ ?_
  · exact fun made error follows => ⟨.error error, follows.stop _, rfl⟩
  intro made next follows
  have agree := follows.moved.get?_defined
  -- So the plan made from the ledger with its orphans is the one that is followed without them.
  refine (r.makes_advance sorted next _ 0 (canonicalOrder_ok ordered).2).mono
    fun later result holds => ?_
  obtain ⟨outcome, further, rfl⟩ := holds
  rw [Plan.locals_congr agree] at further
  rw [Plan.localsReport_congr agree]
  exact ⟨outcome, follows.append further, by simp [Report.join]⟩

/-- Without an order a run ends before anything is called. -/
theorem run_of_unordered {migrations : List Migration} {error : MigrationError}
    (refused : canonicalOrder migrations = .error error) (session : Session σ) :
    r.run migrations session = (.error error, session) := by
  -- The order is decided before anything is loaded.
  unfold Reconciler.run
  rw [refused]
  rfl

/-- With the migrations in order a run loads the ledger, and goes on with what it has loaded. -/
theorem run_of_ordered {migrations sorted : List Migration}
    (ordered : canonicalOrder migrations = .ok sorted) (session : Session σ) :
    r.run migrations session =
      ExceptT.bindCont (r.afterLoad sorted) (Run.load r.store session).1
        (Run.load r.store session).2 := by
  -- Sorting touches neither the store nor the session.
  unfold Reconciler.run
  rw [ordered]
  rfl

/-- Where the ledger can be loaded, a run goes on with it from the session behind the loading. -/
theorem run_of_opened {migrations sorted : List Migration} {loaded : Ledger}
    (ordered : canonicalOrder migrations = .ok sorted) (session : Session σ)
    (opened : (r.store.load session.state).1 = .ok loaded) :
    r.run migrations session = r.afterLoad sorted loaded (Run.load r.store session).2 := by
  -- What is loaded is what the rest of the run starts from.
  have loading : (Run.load r.store session).1 = .ok loaded := opened
  rw [r.run_of_ordered ordered, loading]
  rfl

/-- Every run takes a course: its calls, its result and what the store answers fit together. -/
theorem run_course (migrations : List Migration) (session : Session σ) :
    ∃ made, r.store.Answers session.state made (r.run migrations session).2.state ∧
      (r.run migrations session).2.calls = session.calls ++ made ∧
      Course r.development migrations (r.store.load session.state).1 made
        (r.run migrations session).1 := by
  cases ordered : canonicalOrder migrations with
  | error error =>
    rw [r.run_of_unordered ordered]
    exact ⟨[], .silent _, (List.append_nil _).symm, .unordered ordered⟩
  | ok sorted =>
    -- Loading the ledger is one call, which the store answers.
    have loading : (Run.load r.store session).1 = (r.store.load session.state).1 := rfl
    have called : (Run.load r.store session).2.calls =
        session.calls ++ [⟨.load, failure? (r.store.load session.state).1⟩] := rfl
    have answered : r.store.Answers session.state
        [⟨.load, failure? (r.store.load session.state).1⟩] (Run.load r.store session).2.state :=
      .next rfl (.silent _)
    rw [r.run_of_ordered ordered, loading]
    cases opened : (r.store.load session.state).1 with
    | error error =>
      rw [opened] at called answered
      -- The run ends with its first call where the ledger cannot be loaded.
      exact ⟨_, answered, called, .unloaded ordered rfl⟩
    | ok loaded =>
      rw [opened] at called answered
      -- What follows the loading is known for every session, so also for the one it left.
      obtain ⟨made, answers, calls, outcome, follows, ended⟩ :=
        r.makes_afterLoad ordered loaded (Run.load r.store session).2
      refine ⟨_, answered.append answers, ?_, ?_⟩
      · rw [← List.append_assoc, ← called]
        exact calls
      · have course : Course r.development migrations (.ok loaded) (⟨.load, none⟩ :: made) _ :=
          .followed ordered rfl follows
        rw [← ended] at course
        exact course

end Reconciler

end SchemaLedger
