import Mathlib.Data.List.Nodup
import SchemaLedger.Proofs.Reconcile.Replay

/-! Outside development a run only applies migrations, and older records are never touched. -/

namespace SchemaLedger

open History

/-- A move that is not a replay sends its scripts at most, and nothing about transactions. -/
theorem Move.Calls.sent_prefix {ledger next : Ledger} {move : Move} {made : List CallRecord}
    {failure : Option MigrationError} (calls : move.Calls ledger next made failure)
    (plain : ∀ stored current, move ≠ .replay stored current) :
    sent made <+: move.scripts ∧ (failure = none → sent made = move.scripts) := by
  -- A script is sent before it can fail, and no other text is.
  rcases calls.shape with ⟨script, error, runs, rfl, rfl⟩ | ⟨script, runs, rfl⟩ |
    ⟨_, _, rfl, rfl⟩ | ⟨stored, current, same, _⟩
  · rw [runs]
    exact ⟨List.prefix_rfl, fun impossible => by cases impossible⟩
  · rw [runs]
    exact ⟨List.prefix_rfl, fun _ => rfl⟩
  · exact ⟨List.prefix_rfl, fun _ => rfl⟩
  · exact absurd same (plain stored current)

/-- Moves without a replay among them send their scripts in order, up to some point. -/
theorem Follows.sent_prefix {ledger : Ledger} {moves : List Move} {made : List CallRecord}
    {outcome : Except MigrationError Ledger} (follows : Follows ledger moves made outcome)
    (plain : ∀ stored current, .replay stored current ∉ moves) :
    sent made <+: moves.flatMap Move.scripts := by
  -- Moves that succeed send all of their scripts, and the first one that fails is the last.
  induction follows with
  | done | refused => exact List.nil_prefix
  | @next _ _ move _ _ _ _ _ calls _ ih =>
    have first : ∀ stored current, move ≠ .replay stored current := fun stored current same =>
      plain stored current (same ▸ List.mem_cons_self)
    rw [sent_append, (calls.sent_prefix first).2 rfl, List.flatMap_cons,
      List.prefix_append_right_inj]
    exact ih fun stored current member => plain stored current (List.mem_cons_of_mem _ member)
  | @stopped _ _ move _ _ _ calls moves =>
    have first : ∀ stored current, move ≠ .replay stored current := fun stored current same =>
      plain stored current (same ▸ List.mem_cons_self)
    rw [List.flatMap_cons]
    exact (calls.sent_prefix first).1.trans (List.prefix_append _ _)

/-- Every ledger that is offered to the store is one that a beginning of the moves leads to. -/
theorem Follows.moved_of_swap {ledger expected offered : Ledger} {moves : List Move}
    {made : List CallRecord} {outcome : Except MigrationError Ledger}
    (follows : Follows ledger moves made outcome)
    (attempted : (expected, offered) ∈ swaps made) :
    ∃ done, done <+: moves ∧ Moved ledger done offered := by
  -- The write belongs to one of the moves, and all moves before that one have been made.
  induction follows with
  | done | refused => cases attempted
  | @next ledger next move moves _ _ _ writes calls _ ih =>
    rw [swaps_append, calls.swaps_of_success] at attempted
    rcases List.mem_append.mp attempted with own | later
    · obtain ⟨_, rfl⟩ := Prod.mk.inj (List.mem_singleton.mp own)
      exact ⟨[move], ⟨moves, rfl⟩, .next writes (.start _)⟩
    · obtain ⟨done, begins, moved⟩ := ih later
      exact ⟨move :: done, List.cons_prefix_cons.mpr ⟨rfl, begins⟩, .next writes moved⟩
  | @stopped ledger next move _ _ writes calls moves =>
    -- A move that is stopped has offered one ledger, or none.
    rcases calls.swaps_cases with none | single
    · rw [none] at attempted
      cases attempted
    · rw [single] at attempted
      obtain ⟨_, rfl⟩ := Prod.mk.inj (List.mem_singleton.mp attempted)
      exact ⟨[move], ⟨moves, rfl⟩, .next writes (.start _)⟩

namespace Plan

variable {loaded : Ledger} {migrations : List Migration}

/-- Outside development nothing is replayed. -/
theorem replay_not_planned (stored current : Migration) :
    .replay stored current ∉ moves false loaded migrations := by
  intro planned
  -- Only what is done last could be a replay, and that takes development.
  rcases mem_moves planned with ⟨impossible, _⟩ | ⟨_, _, impossible⟩ | treating
  · cases impossible
  · cases impossible
  · rcases last_cases false loaded migrations with none | ⟨_, _, _, _, ⟨_, impossible, _⟩ |
      ⟨_, _, one⟩ | ⟨_, _, one⟩⟩
    · rw [none] at treating
      cases treating
    · cases impossible
    all_goals
      rw [one] at treating
      cases List.mem_singleton.mp treating

/-- Outside development the scripts to run are the up scripts of what is pending. -/
theorem scripts_of_moves :
    (moves false loaded migrations).flatMap Move.scripts =
      (pending loaded migrations).map (·.up) := by
  -- No orphan is reverted, and what is done last runs no script for good.
  have none : reverts false (Status.orphans loaded migrations) = [] := rfl
  rw [moves, none, List.nil_append, locals, List.flatMap_append,
    scripts_of_last List.prefix_rfl, List.append_nil, List.flatMap_map, List.map_eq_flatMap]
  rfl

end Plan

/-- A record keeps its name, its up script and its time of application. -/
structure Preserved (migrations : List Migration) (old new : Migration) : Prop where
  name : new.name = old.name
  up : new.up = old.up
  appliedAt : new.appliedAt = old.appliedAt
  /-- Only the record of the last local migration may change in any other way. -/
  changed : new = old ∨ ∃ last, migrations.getLast? = some last ∧ last.name = old.name

/-- What is carried over outside development is preserved. -/
theorem Carried.preserved {migrations : List Migration} {old new : Migration}
    (carried : Carried false migrations old new) : Preserved migrations old new := by
  -- A replay would change the up script, but it takes development.
  cases carried with
  | kept => exact ⟨rfl, rfl, rfl, .inl rfl⟩
  | refreshed final same => exact ⟨rfl, rfl, rfl, .inr ⟨_, final, same⟩⟩
  | replayed allowed => cases allowed

/-- Outside development a ledger reached begins with all records that were loaded. -/
theorem Progress.preserved {loaded current : Ledger} {migrations removed added : List Migration}
    (progress : Progress false loaded migrations removed added current) :
    ∃ kept new, current.records = kept ++ new ∧
      List.Forall₂ (Preserved migrations) loaded.records kept ∧ List.Forall₂ Applied added new := by
  obtain ⟨kept, new, records, carried, stamps⟩ := progress.records
  -- No orphan can have been removed, because that takes development.
  have none : removed = [] := by
    by_contra some
    cases progress.allowed some
  have whole : loaded.except removed = loaded.records := by simp [none, Ledger.except]
  rw [whole] at carried
  exact ⟨kept, new, records, carried.imp fun _ _ => Carried.preserved, stamps⟩

/-- A plan leaves the records of all local migrations that are recorded, except for the last one. -/
theorem Moved.get?_recorded {development : Bool} {loaded current : Ledger}
    {migrations : List Migration} {done : List Move} {migration record : Migration}
    (distinct : (migrations.map (·.name)).Nodup) (moved : Moved loaded done current)
    (begins : done <+: Plan.moves development loaded migrations)
    (defined : migration ∈ migrations) (other : migrations.getLast? ≠ some migration)
    (found : loaded.get? migration.name = some record) :
    current.get? migration.name = some record := by
  -- It is enough that no move of the plan is about the migration.
  refine (moved.get?_other fun move member same => ?_).trans found
  rcases Plan.mem_moves (begins.subset member) with ⟨_, orphan, stray, rfl⟩ |
    ⟨fresh, missing, rfl⟩ | treating
  · -- Orphans have other names than local migrations.
    exact (Status.mem_orphans.mp stray).2 (List.mem_map.mpr ⟨migration, defined, same⟩)
  · -- What is pending has no record.
    have absent := (Plan.mem_pending.mp missing).2
    rw [show fresh.name = migration.name from same.symm, Ledger.contains_eq_false_iff,
      found] at absent
    cases absent
  · -- Only the last local migration is compared, and no other one has its name.
    obtain ⟨last, _, final, named, _⟩ := Plan.name_of_last treating
    rw [named] at same
    have same_migration := List.inj_on_of_nodup_map distinct defined
      (List.mem_of_getLast? final) same
    exact other (same_migration ▸ final)

namespace Reconciler

/--
Outside development a run never goes back, and in either mode older records are left alone.

All that is sent are the up scripts of migrations without a record, in canonical order.
Every ledger written begins with the loaded records, of which only the last local one may change.
-/
theorem older_records_preserved {σ : Type} (r : Reconciler σ) {migrations sorted : List Migration}
    {state : σ} {loaded : Ledger} (ordered : canonicalOrder migrations = .ok sorted)
    (opened : (r.store.load state).1 = .ok loaded) :
    (r.development = false →
      Stepless (r.calls migrations state) ∧
      sent (r.calls migrations state) <+: (Plan.pending loaded sorted).map (·.up) ∧
      ∀ expected next, (expected, next) ∈ swaps (r.calls migrations state) →
        ∃ kept new, next.records = kept ++ new ∧
          List.Forall₂ (Preserved sorted) loaded.records kept) ∧
    ∀ expected next, (expected, next) ∈ swaps (r.calls migrations state) →
      (∀ migration ∈ sorted, sorted.getLast? ≠ some migration →
        ∀ record, loaded.get? migration.name = some record →
          next.get? migration.name = some record) ∧
      (next.names.filter loaded.contains).Sublist loaded.names := by
  obtain ⟨made, outcome, _, called, follows, _⟩ := follows_plan ordered opened
  -- The first call loads the ledger, so all that matters comes from the moves of the plan.
  rw [called, swaps_load]
  refine ⟨fun production => ?_, fun expected next offered => ?_⟩
  · -- Production plans no replay, and only replays take steps of a transaction.
    rw [production] at follows
    refine ⟨?_, ?_, fun expected next offered => ?_⟩
    · intro record member step same
      rcases List.mem_cons.mp member with rfl | later
      · cases same
      · exact follows.stepless Plan.replay_not_planned record later step same
    · have sending := follows.sent_prefix Plan.replay_not_planned
      rw [Plan.scripts_of_moves] at sending
      exact sending
    · -- A ledger that is offered has been reached by a beginning of the plan.
      obtain ⟨done, begins, moved⟩ := follows.moved_of_swap offered
      obtain ⟨removed, added, progress, _⟩ := moved.progress begins
      obtain ⟨kept, new, records, preserved, _⟩ := progress.preserved
      exact ⟨kept, new, records, preserved⟩
  · obtain ⟨done, begins, moved⟩ := follows.moved_of_swap offered
    obtain ⟨removed, added, progress, _⟩ := moved.progress begins
    exact ⟨fun migration defined other record found =>
      moved.get?_recorded (canonicalOrder_ok ordered).2 begins defined other found, progress.order⟩

/-- In production only the new migration is applied, and the ledger that is written for it keeps the
orphan and the record of an older local migration whose up script has changed. -/
theorem older_records_preserved_sample :
    let older : Migration := { Sample.accounts with up := "create older accounts" }
    let loaded : Ledger := ⟨[Sample.legacy, older], by decide⟩
    let migrations := [Sample.users, Sample.accounts]
    let sorted := [Sample.accounts, Sample.users]
    let made := (Sample.reconciler false).calls migrations (Memory.withLedger loaded)
    canonicalOrder migrations = .ok sorted ∧
    (Memory.store.load (Memory.withLedger loaded)).1 = .ok loaded ∧
    (Sample.reconciler false).development = false ∧
    sent made <+: ["create users"] ∧
    ∃ next, (loaded, next) ∈ swaps made ∧
      (∃ kept new, next.records = kept ++ new ∧
        List.Forall₂ (Preserved sorted) [Sample.legacy, older] kept) ∧
      next.get? "0_accounts" = some older := by
  intro older loaded migrations sorted made
  have ordered : canonicalOrder migrations = .ok sorted := Sample.accounts_before_users
  have opened : ((Sample.reconciler false).store.load (Memory.withLedger loaded)).1 =
      .ok loaded := rfl
  -- Only the first migration is pending, as the other has a record.
  have fresh : (Plan.pending loaded sorted).map (·.up) = ["create users"] := by decide
  obtain ⟨production, either⟩ := older_records_preserved (Sample.reconciler false) ordered opened
  obtain ⟨-, sending, preserved⟩ := production rfl
  rw [fresh] at sending
  -- The run writes one ledger, with a record for the migration that it has applied.
  have swapped : (loaded, ⟨[Sample.legacy, older, Sample.users.stamped Sample.epoch], by decide⟩) ∈
      swaps made := by
    show _ ∈ swaps ((Sample.reconciler false).run migrations _).2.calls
    rw [run_of_opened _ ordered _ opened]
    decide +kernel
  exact ⟨ordered, opened, rfl, sending, _, swapped, preserved _ _ swapped,
    (either _ _ swapped).1 Sample.accounts (by decide) (by decide) older (by decide)⟩

end Reconciler

end SchemaLedger
