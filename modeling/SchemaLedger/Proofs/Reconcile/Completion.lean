import SchemaLedger.Proofs.Reconcile.Standing
import SchemaLedger.Proofs.Reconcile.Times

/-! Without failing scripts a run does all that the ledger and the local migrations ask for. -/

namespace SchemaLedger

namespace Plan

/-- A loaded record as a run leaves it: that of the last local migration is brought up to date. -/
def renewed (migrations : List Migration) (time : Instant) (stored : Migration) : Migration :=
  match migrations.getLast? with
  | none => stored
  | some current =>
    if current.name ≠ stored.name then stored
    else if stored.up ≠ current.up then current.stamped time
    -- The up script that was applied is the same, and so is the time of its application.
    else if stored.descriptorDiffers current then { current with appliedAt := stored.appliedAt }
    else stored

variable {development : Bool} {loaded : Ledger} {migrations kept : List Migration} {time : Instant}

/-- Where nothing is done last all loaded records are left as they are. -/
theorem renewed_of_nothing (nothing : last development loaded migrations = []) {old : Migration}
    (member : old ∈ loaded.records) : renewed migrations time old = old := by
  unfold renewed
  cases final : migrations.getLast? with
  | none => rfl
  | some current =>
    by_cases same : current.name = old.name
    · -- The record is the one that the last local migration was compared with.
      have found : loaded.get? current.name = some old := same ▸ Ledger.get?_of_mem member
      have still : drift development old current = [] := by
        rw [last_eq, compared_eq_some.mpr ⟨final, found⟩] at nothing
        exact nothing
      unfold drift at still
      -- No difference is left that would have led to a move.
      by_cases changed : old.up = current.up
      · by_cases differs : old.descriptorDiffers current = true
        · simp [changed, differs] at still
        · simp [same, changed, differs]
      · cases development <;> simp [changed] at still
    · simp [same]

/-- Exchanging the record of the last local migration renews the loaded records, and no others. -/
theorem renewed_of_exchange {ledger : Ledger} {new : List Migration}
    {current stored record : Migration} (records : ledger.records = kept ++ new)
    (among : ∀ old ∈ kept, old ∈ loaded.records)
    (fresh : ∀ name ∈ new.map (·.name), loaded.contains name = false)
    (final : migrations.getLast? = some current) (found : loaded.get? current.name = some stored)
    (exchanged : renewed migrations time stored = record) (named : record.name = current.name) :
    (ledger.replace record).records = kept.map (renewed migrations time) ++ new := by
  have present : loaded.contains current.name = true := by simp [Ledger.contains, found]
  -- The new records have names that were not loaded.
  have absent : record.name ∉ new.map (·.name) := by
    rw [named]
    intro member
    simp [fresh _ member] at present
  rw [Ledger.records_replace records absent]
  congr 1
  refine List.map_congr_left fun old member => ?_
  rw [named]
  split
  · rename_i same
    -- The record under the name is the one that was found.
    have foundOld := Ledger.get?_of_mem (among old member)
    rw [same, found] at foundOld
    cases foundOld
    exact exchanged.symm
  · rename_i other
    simp [renewed, final, Ne.symm other]

end Plan

/-- What is done last renews the loaded records, and leaves those behind them as they are. -/
theorem Moved.renews {clock : Nat → Instant} {development : Bool} {loaded ledger last : Ledger}
    {migrations kept new : List Migration}
    (moved : Moved ledger (Plan.last development loaded migrations) last)
    (timed : last.Timed clock loaded) (records : ledger.records = kept ++ new)
    (among : ∀ old ∈ kept, old ∈ loaded.records)
    (known : ∀ old ∈ loaded.records, old.name ∈ migrations.map (·.name) → old ∈ kept)
    (fresh : ∀ name ∈ new.map (·.name), loaded.contains name = false) :
    ∃ turn, last.records = kept.map (Plan.renewed migrations (clock turn)) ++ new := by
  rcases Plan.last_cases development loaded migrations with nothing | ⟨current, stored, final,
    found, ⟨changed, _, one⟩ | ⟨_, _, one⟩ | ⟨same, differs, one⟩⟩
  · rw [nothing] at moved
    cases moved
    -- Without a replay it does not matter which time is taken.
    refine ⟨0, ?_⟩
    rw [records]
    congr 1
    refine (List.map_id kept).symm.trans (List.map_congr_left fun old member => ?_)
    exact (Plan.renewed_of_nothing nothing (among old member)).symm
  all_goals
    rw [one] at moved
    have writes := moved.writes_of_single
    obtain ⟨member, named⟩ := Ledger.get?_mem found
    cases writes
  · rename_i time
    have stamped : Plan.renewed migrations time stored = current.stamped time := by
      simp [Plan.renewed, final, named, changed]
    have whole := Plan.renewed_of_exchange records among fresh final found stamped rfl
    -- The record that was replayed is in the ledger, with another up script than was loaded.
    have defined : stored.name ∈ migrations.map (·.name) :=
      List.mem_map.mpr ⟨current, List.mem_of_getLast? final, named.symm⟩
    have own : (current.stamped time).Timed clock loaded := by
      refine timed _ (whole ▸ List.mem_append_left _ ?_)
      exact List.mem_map.mpr ⟨stored, known stored member defined, stamped⟩
    obtain ⟨turn, rfl⟩ := own.reading fun old inside same => by
      have foundOld := Ledger.get?_of_mem inside
      rw [same, found] at foundOld
      cases foundOld
      exact changed
    exact ⟨turn, whole⟩
  · -- A refresh takes no time from the clock, so that any turn will do.
    have refreshed : Plan.renewed migrations (clock 0) stored =
        { current with appliedAt := stored.appliedAt } := by
      simp [Plan.renewed, final, named, same, differs]
    exact ⟨0, Plan.renewed_of_exchange records among fresh final found refreshed rfl⟩

/-- Where no script fails a plan runs the scripts of all that it reverts, applies and replays. -/
theorem Plan.runs_of_moves {development : Bool} {ledger : Ledger} {migrations : List Migration}
    (accepted : development = true ∨ Plan.changed ledger migrations = none) :
    (Plan.moves development ledger migrations).flatMap (Move.runs []) =
      (Plan.removed development ledger migrations).map (·.down) ++
        ((Plan.pending ledger migrations).map (·.up) ++
          (Plan.changed ledger migrations).toList.flatMap fun (stored, current) =>
            [stored.down, current.up]) := by
  have drifted : (Plan.last development ledger migrations).flatMap (Move.runs []) =
      (Plan.changed ledger migrations).toList.flatMap fun (stored, current) =>
        [stored.down, current.up] := by
    rw [Plan.last_eq_append]
    -- A refresh runs no script, and nothing is refused.
    rcases accepted with rfl | unchanged
    · cases Plan.changed ledger migrations <;> cases Plan.redescribed ledger migrations <;> rfl
    · rw [unchanged]
      cases Plan.redescribed ledger migrations <;> rfl
  rw [Plan.moves_eq, List.flatMap_append, List.flatMap_append, drifted, List.flatMap_map,
    List.flatMap_map, List.append_assoc, List.map_eq_flatMap, List.map_eq_flatMap]
  rfl

/-- A record is that of a migration applied at a time that a clock has shown. -/
def AppliedBy (clock : Nat → Instant) (migration record : Migration) : Prop :=
  ∃ turn, record = migration.stamped (clock turn)

/-- What a run that succeeds has done to a memory store, and how it reports that. -/
structure Accomplished (clock : Nat → Instant) (development : Bool) (migrations : List Migration)
    (before after : Memory) (report : Report) : Prop where
  executed : after.executed = before.executed ++
    ((Plan.removed development before.recorded migrations).map (·.down) ++
      ((Plan.pending before.recorded migrations).map (·.up) ++
        (Plan.changed before.recorded migrations).toList.flatMap fun (stored, current) =>
          [stored.down, current.up]))
  /-- The loaded records stay in place, and new ones follow in the order of their application. -/
  ledger : ∃ final turn new, after.ledger = some final ∧
    final.records =
      (before.recorded.except (Plan.removed development before.recorded migrations)).map
        (Plan.renewed migrations (clock turn)) ++ new ∧
    List.Forall₂ (AppliedBy clock) (Plan.pending before.recorded migrations) new
  reported : report =
    { alreadyApplied := (Plan.recorded before.recorded migrations).map (·.name)
      applied := (Plan.pending before.recorded migrations).map (·.name)
      reverted := (Plan.removed development before.recorded migrations).map (·.name)
      orphaned := (Plan.spared development before.recorded migrations).map (·.name)
      replayed := (Plan.changed before.recorded migrations).toList.map (·.2.name)
      refreshed := (Plan.redescribed before.recorded migrations).toList.map (·.2.name) }
  isNoop : report.isNoop = true ↔ after.executed = before.executed
  closed : after.inTransaction = false

/-- A plan carried out adds what was pending behind the loaded records, which it renews. -/
theorem Moved.records_of_moves {clock : Nat → Instant} {development : Bool}
    {loaded current : Ledger} {migrations : List Migration}
    (moved : Moved loaded (Plan.moves development loaded migrations) current)
    (timed : current.Timed clock loaded) :
    ∃ turn new, current.records =
        (loaded.except (Plan.removed development loaded migrations)).map
          (Plan.renewed migrations (clock turn)) ++ new ∧
      List.Forall₂ (AppliedBy clock) (Plan.pending loaded migrations) new := by
  rw [Plan.moves_eq, List.append_assoc] at moved
  -- The ledgers between the three parts of the plan are known one after the other.
  obtain ⟨reverted, first, rest⟩ := moved.split
  obtain ⟨applied, second, third⟩ := rest.split
  obtain ⟨new, records, stamps⟩ := second.records_of_appends
  rw [first.records_of_reverts] at records
  have absent : ∀ migration ∈ Plan.pending loaded migrations,
      loaded.contains migration.name = false := fun migration missing =>
    (Plan.mem_pending.mp missing).2
  -- What is applied was pending, and so has no record among those loaded.
  have fresh : ∀ name ∈ new.map (·.name), loaded.contains name = false := by
    rw [(texts_of_applied stamps).1]
    intro name member
    obtain ⟨migration, missing, rfl⟩ := List.mem_map.mp member
    exact absent migration missing
  have known : ∀ old ∈ loaded.records, old.name ∈ migrations.map (·.name) →
      old ∈ loaded.except (Plan.removed development loaded migrations) := by
    intro old member defined
    refine List.mem_filter.mpr ⟨member, ?_⟩
    -- What is removed are orphans, which have other names than local migrations.
    simp only [Bool.not_eq_true', ← Bool.not_eq_true, List.contains_iff_mem]
    intro gone
    obtain ⟨orphan, removed, same⟩ := List.mem_map.mp gone
    have stray := (Plan.removed_begins development loaded migrations).1.subset removed
    exact (Status.mem_orphans.mp stray).2 (same ▸ defined)
  -- Only the last part writes anew what was loaded, for one record at most.
  obtain ⟨turn, renewed⟩ := third.renews timed records
    (fun old member => (List.mem_filter.mp member).1) known fresh
  refine ⟨turn, new, renewed, ?_⟩
  -- No record that is new was loaded, so that its time is a reading of the clock.
  obtain ⟨lengths, each⟩ := List.forall₂_iff_zip.mp stamps
  refine List.forall₂_iff_zip.mpr ⟨lengths, fun {migration record} paired => ?_⟩
  obtain ⟨time, rfl⟩ := each paired
  obtain ⟨missing, member⟩ := List.of_mem_zip paired
  have own := timed _ (renewed ▸ List.mem_append_right _ member)
  obtain ⟨turn, rfl⟩ := own.reading fun old inside named _ => by
    have present : loaded.contains migration.name = true :=
      Ledger.contains_eq_true_iff.mpr (List.mem_map.mpr ⟨old, inside, named⟩)
    rw [absent migration missing] at present
    cases present
  exact ⟨turn, rfl⟩

/-- A plan reports that it has done nothing if it has run no script. -/
theorem Plan.isNoop_report {development : Bool} {ledger : Ledger} {migrations : List Migration}
    (accepted : development = true ∨ Plan.changed ledger migrations = none) :
    (Plan.report development ledger migrations).isNoop = true ↔
      (Plan.moves development ledger migrations).flatMap (Move.runs []) = [] := by
  rw [Plan.report_eq, Plan.runs_of_moves accepted]
  -- A replay is reported and runs scripts, while a refresh counts for neither.
  rcases accepted with rfl | unchanged
  · cases Plan.changed ledger migrations <;> simp [Report.isNoop, and_comm]
  · cases development <;> simp [Report.isNoop, unchanged, and_comm]

namespace Reconciler

variable {migrations sorted : List Migration} {memory : Memory}

end Reconciler

end SchemaLedger
