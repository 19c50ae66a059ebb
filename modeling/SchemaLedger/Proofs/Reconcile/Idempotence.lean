import SchemaLedger.Proofs.Reconcile.Remainder
import SchemaLedger.Proofs.Reconcile.Standing

/-! Once a run has succeeded a further one finds nothing to do. -/

namespace SchemaLedger

namespace Plan

variable {development : Bool} {ledger : Ledger} {migrations : List Migration}

/-- Where nothing is pending all migrations are recorded. -/
theorem recorded_of_complete (complete : pending ledger migrations = []) :
    recorded ledger migrations = migrations := by
  -- Every migration that is not pending has a record.
  refine List.filter_eq_self.mpr fun migration member => ?_
  simpa using List.filter_eq_nil_iff.mp complete migration member

/-- What leaves nothing to do in development leaves nothing to do elsewhere. -/
theorem moves_eq_nil_of_development (settled : moves true ledger migrations = []) :
    moves development ledger migrations = [] := by
  obtain ⟨none, complete, unchanged, described⟩ := moves_eq_nil.mp settled
  -- Only the treatment of orphans depends on the mode.
  refine moves_eq_nil.mpr ⟨?_, complete, unchanged, described⟩
  cases development
  · rfl
  · exact none

/-- Where nothing is left to do everything is reported as applied, but for orphans left alone. -/
theorem report_of_settled (settled : moves development ledger migrations = []) :
    report development ledger migrations =
      { alreadyApplied := migrations.map (·.name)
        orphaned := (spared development ledger migrations).map (·.name) } := by
  -- With no moves the lists of what has been done are empty, and those of names are left.
  obtain ⟨none, complete, unchanged, described⟩ := moves_eq_nil.mp settled
  rw [report_eq, none, complete, unchanged, described, recorded_of_complete complete]
  cases development <;> rfl

end Plan

/-- Of the names in a ledger reached those of orphans were loaded and not removed. -/
theorem Progress.names_of_orphans {development : Bool} {loaded current : Ledger}
    {migrations removed added : List Migration}
    (progress : Progress development loaded migrations removed added current) :
    (Status.orphans current migrations).map (·.name) =
      ((loaded.except removed).map (·.name)).filter
        fun name => !(migrations.map (·.name)).contains name := by
  have local_names : ((added.map (·.name)).filter
      fun name => !(migrations.map (·.name)).contains name) = [] := by
    refine List.filter_eq_nil_iff.mpr fun name member => ?_
    -- What is added is defined locally.
    obtain ⟨migration, fresh, rfl⟩ := List.mem_map.mp member
    have defined := (Plan.mem_pending.mp (progress.pending.subset fresh)).1
    simpa using ⟨migration, defined, rfl⟩
  rw [Status.names_of_orphans, progress.names, List.filter_append, local_names, List.append_nil]

/-- A plan carried out leaves alone the orphans that it says it leaves alone. -/
theorem Moved.spared {development again : Bool} {loaded current : Ledger}
    {migrations : List Migration}
    (moved : Moved loaded (Plan.moves development loaded migrations) current)
    (settled : Plan.moves development current migrations = [])
    (mode : development = true ∨ again = development) :
    (Plan.spared again current migrations).map (·.name) =
      (Plan.spared development loaded migrations).map (·.name) := by
  cases development with
  | true =>
    -- In development no orphan is left at all.
    have none : Status.orphans current migrations = [] := (Plan.moves_eq_nil.mp settled).1
    cases again with
    | true => rfl
    | false => exact congrArg (List.map (·.name)) none
  | false =>
    obtain rfl : again = false := by simpa using mode
    obtain ⟨removed, added, progress, _⟩ := moved.progress List.prefix_rfl
    -- Outside development the orphans are those that were loaded, since nothing was removed.
    have nothing : removed = [] := by
      by_contra some
      cases progress.allowed some
    have whole : loaded.except removed = loaded.records := by simp [nothing, Ledger.except]
    show (Status.orphans current migrations).map (·.name) =
      (Status.orphans loaded migrations).map (·.name)
    rw [progress.names_of_orphans, whole, Status.names_of_orphans]
    rfl

namespace Reconciler

/-- A run that has nothing to do only loads the ledger. -/
theorem idle_run {σ : Type} (r : Reconciler σ) {migrations sorted : List Migration} {state : σ}
    {loaded : Ledger} (ordered : canonicalOrder migrations = .ok sorted)
    (opened : (r.store.load state).1 = .ok loaded)
    (settled : Plan.moves r.development loaded sorted = []) :
    r.calls migrations state = [⟨.load, none⟩] ∧
      r.left migrations state = (r.store.load state).2 ∧
      r.result migrations state = .ok (Plan.report r.development loaded sorted) := by
  obtain ⟨made, answers, same, course⟩ := r.run_course migrations { state }
  rw [List.nil_append] at same
  rw [calls, left, result, same]
  generalize (r.run migrations { state }).1 = result at course
  cases course with
  | unordered refused => rw [ordered] at refused; cases refused
  | unloaded _ failed => rw [opened] at failed; cases failed
  | followed accepted read follows =>
    rw [ordered] at accepted
    rw [opened] at read
    cases accepted
    cases read
    -- The plan is empty, so that following it calls nothing.
    rw [settled] at follows
    cases follows
    cases answers with
    | next answered rest =>
      cases rest
      -- The state left is the one in which loading has left the store.
      exact ⟨rfl, (congrArg Prod.snd answered).symm, rfl⟩

variable {migrations : List Migration} {memory : Memory} {development again : Bool}
  {clock : Nat → Instant} {report : Report}

/--
Behind a run that succeeds a further one finds everything applied, and changes nothing.

The further run may be outside development even if the first one was not, and any scripts may fail.
Every local migration is then shown as applied, before the orphans that were left alone.
-/
theorem reconciled_again (closed : memory.inTransaction = false)
    (succeeded : (inMemory clock development).result migrations memory = .ok report)
    (mode : development = true ∨ again = development) (later : Nat → Instant)
    (failing : List String) :
    let settled := { (inMemory clock development).left migrations memory with failing }
    ∃ sorted final, canonicalOrder migrations = .ok sorted ∧ settled.ledger = some final ∧
      (inMemory later again).result migrations settled =
        .ok { alreadyApplied := sorted.map (·.name), orphaned := report.orphaned } ∧
      (inMemory later again).calls migrations settled = [⟨.load, none⟩] ∧
      (inMemory later again).left migrations settled = settled ∧
      (statusReport migrations final).map (List.map fun line => (line.name, line.state)) =
        .ok (sorted.map (fun migration => (migration.name, .applied)) ++
          report.orphaned.map fun name => (name, .orphaned)) := by
  intro settled
  cases ordered : canonicalOrder migrations with
  | error refusal =>
    -- A run that succeeds has put the migrations in order.
    rw [(unordered_run (inMemory clock development) memory ordered).1] at succeeded
    cases succeeded
  | ok sorted =>
    obtain ⟨current, noted, moved, left, rfl⟩ := succeeded_inMemory ordered closed succeeded
    -- The whole plan has been carried out, so a new one has nothing to do.
    have nothing : Plan.moves development current sorted = [] :=
      moved.remainder (List.append_nil _).symm (canonicalOrder_ok ordered).2
    have idle : Plan.moves again current sorted = [] := by
      rcases mode with rfl | rfl
      · exact Plan.moves_eq_nil_of_development nothing
      · exact nothing
    -- The ledger of the first run is what the further one loads, whatever scripts fail now.
    have written : settled.ledger = some current := by
      rw [show settled = _ from congrArg (fun memory : Memory => { memory with failing }) left]
      rfl
    have loading : Memory.store.load settled = (.ok current, settled) :=
      Memory.load_of_present written
    obtain ⟨called, same, reported⟩ := idle_run (inMemory later again) ordered
      (show (Memory.store.load settled).1 = .ok current by rw [loading]) idle
    have first : (Plan.report development memory.recorded sorted).orphaned =
        (Plan.spared development memory.recorded sorted).map (·.name) := by rw [Plan.report_eq]
    refine ⟨sorted, current, rfl, written, ?_, called, same.trans (congrArg Prod.snd loading), ?_⟩
    · have reportedAgain : (inMemory later again).result migrations settled =
          .ok (Plan.report again current sorted) := reported
      rw [reportedAgain, Plan.report_of_settled idle, first, moved.spared nothing mode]
    · obtain ⟨_, complete, unchanged, _⟩ := Plan.moves_eq_nil.mp idle
      -- The status shows all orphans, which are those left alone by the first run.
      have orphans : (Status.orphans current sorted).map (·.name) =
          (Plan.spared development memory.recorded sorted).map (·.name) :=
        @Moved.spared development false _ _ _ moved nothing (by cases development <;> simp)
      rw [Status.report_of_ordered ordered, Except.map,
        Status.lines_of_settled complete unchanged, orphans, first]

/-- A run in development falls back in its replay, and one in production finds nothing to do. -/
theorem reconciled_again_sample :
    let memory := { Memory.withLedger Sample.drifted with failing := ["drop people"] }
    let migrations := [Sample.users, Sample.accounts]
    let first := inMemory (fun _ => Sample.epoch) true
    let settled := { first.left migrations memory with failing := ["create users"] }
    memory.inTransaction = false ∧
    first.result migrations memory =
      .ok {
        alreadyApplied := ["1_users"]
        applied := ["0_accounts"]
        reverted := ["0_legacy"]
        replayed := ["1_users"] } ∧
    (inMemory (fun _ => Sample.epoch) false).calls migrations settled = [⟨.load, none⟩] ∧
    (inMemory (fun _ => Sample.epoch) false).left migrations settled = settled := by
  intro memory migrations first settled
  have closed : memory.inTransaction = false := rfl
  -- The first run has no need of the script that fails afterwards.
  have succeeded : first.result migrations memory =
      .ok {
        alreadyApplied := ["1_users"]
        applied := ["0_accounts"]
        reverted := ["0_legacy"]
        replayed := ["1_users"] } := by
    obtain ⟨_, _, _, _, ended⟩ := run_inMemory (fun _ => Sample.epoch) true
      Sample.accounts_before_users closed
    rw [show first.result migrations memory = _ from ended]
    decide +kernel
  -- The second run is one in production, with another script that fails.
  obtain ⟨_, _, _, _, _, called, same, _⟩ := @reconciled_again migrations memory true false
    (fun _ => Sample.epoch) _ closed succeeded (.inl rfl) (fun _ => Sample.epoch) ["create users"]
  exact ⟨closed, succeeded, called, same⟩

end Reconciler

end SchemaLedger
