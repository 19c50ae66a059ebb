import Mathlib.Data.List.Forall2
import SchemaLedger.Proofs.Reconcile.Point

/-! How far a run has come: which orphans are removed, what is added, and what is carried over. -/

namespace SchemaLedger

/-- What begins two lists in a row consists of a beginning of each. -/
theorem prefix_append_parts {α : Type} {taken first second : List α}
    (begins : taken <+: first ++ second) :
    ∃ head tail, taken = head ++ tail ∧ head <+: first ∧ tail <+: second := by
  -- What is taken either ends within the first list or goes beyond it.
  rcases List.prefix_or_prefix_of_prefix begins (List.prefix_append first second) with
    short | ⟨tail, rfl⟩
  · exact ⟨taken, [], (List.append_nil _).symm, short, List.nil_prefix⟩
  · exact ⟨first, tail, rfl, List.prefix_rfl, (List.prefix_append_right_inj first).mp begins⟩

/-- Records are told from the others by their names, as long as the names are distinct. -/
theorem filter_names_of_sublist {taken records : List Migration} (among : taken.Sublist records)
    (distinct : (records.map (·.name)).Nodup) :
    records.filter (fun record => (taken.map (·.name)).contains record.name) = taken := by
  -- Record by record, its name is among those taken exactly if it is taken itself.
  induction among with
  | slnil => rfl
  | @cons taken records record among ih =>
    simp only [List.map_cons, List.nodup_cons] at distinct
    have absent : record.name ∉ taken.map (·.name) := fun member =>
      distinct.1 ((among.map _).subset member)
    -- The record is not taken, and it shares its name with none that is.
    rw [List.filter_cons_of_neg (by simpa using absent)]
    exact ih distinct.2
  | @cons_cons taken records record among ih =>
    simp only [List.map_cons, List.nodup_cons] at distinct
    rw [List.filter_cons_of_pos (by simp)]
    congr 1
    -- No record behind this one has its name, so it makes no difference to them.
    refine (List.filter_congr fun other member => ?_).trans (ih distinct.2)
    have differs : other.name ≠ record.name := fun same =>
      distinct.1 (same ▸ List.mem_map.mpr ⟨other, member, rfl⟩)
    simp [differs]

namespace Ledger

/-- The records of a ledger that are left when some migrations are removed. -/
def except (ledger : Ledger) (removed : List Migration) : List Migration :=
  ledger.records.filter fun record => !(removed.map (·.name)).contains record.name

/--
The scripts whose effects a ledger shows, compared with the ledger loaded.

These are the down scripts of records that are gone, and the up scripts of records that are new.
-/
def reflected (loaded current : Ledger) : List String :=
  (loaded.records.filter fun record => !current.contains record.name).map (·.down) ++
    (current.records.filter fun record => !loaded.contains record.name).map (·.up)

end Ledger

/-- How a record of the loaded ledger is carried over into a later ledger of a run. -/
inductive Carried (development : Bool) (migrations : List Migration) (old : Migration) :
    Migration → Prop where
  | kept : Carried development migrations old old
  | refreshed {current : Migration} (final : migrations.getLast? = some current)
      (same : current.name = old.name) :
      Carried development migrations old
        { old with down := current.down, description := current.description }
  | replayed {current : Migration} {time : Instant} (allowed : development = true)
      (final : migrations.getLast? = some current) (same : current.name = old.name) :
      Carried development migrations old (current.stamped time)

/-- A record is that of a migration applied at some time. -/
def Applied (migration record : Migration) : Prop := ∃ time, record = migration.stamped time

/-- A ledger that a run has reached by removing some orphans and adding some migrations. -/
structure Progress (development : Bool) (loaded : Ledger) (migrations removed added : List Migration)
    (current : Ledger) : Prop where
  orphans : removed <+: Status.orphans loaded migrations
  allowed : removed ≠ [] → development = true
  pending : added <+: Plan.pending loaded migrations
  records : ∃ kept new, current.records = kept ++ new ∧
    List.Forall₂ (Carried development migrations) (loaded.except removed) kept ∧
    List.Forall₂ Applied added new

/-- Reverting orphans leaves the other records in their order. -/
theorem Moved.records_of_reverts {ledger last : Ledger} {removed : List Migration}
    (moved : Moved ledger (removed.map .revert) last) : last.records = ledger.except removed := by
  -- Each revert removes one name from what the reverts before it have left.
  induction removed generalizing ledger with
  | nil =>
    cases moved
    simp [Ledger.except]
  | cons orphan rest ih =>
    cases moved with
    | next writes later =>
      cases writes
      rw [ih later]
      simp only [Ledger.except, Ledger.remove, List.filter_filter]
      refine List.filter_congr fun record _ => ?_
      by_cases same : record.name = orphan.name <;> simp [same]

/-- Applying migrations adds their records at the end, in order. -/
theorem Moved.records_of_appends {ledger last : Ledger} {added : List Migration}
    (moved : Moved ledger (added.map .append) last) :
    ∃ new, last.records = ledger.records ++ new ∧ List.Forall₂ Applied added new := by
  -- Each application adds one record behind those that are there.
  induction added generalizing ledger with
  | nil =>
    cases moved
    exact ⟨[], (List.append_nil _).symm, .nil⟩
  | cons migration rest ih =>
    cases moved with
    | next writes later =>
      cases writes with
      | @append _ time _ pushed =>
        obtain ⟨new, records, applied⟩ := ih later
        refine ⟨migration.stamped time :: new, ?_, .cons ⟨time, rfl⟩ applied⟩
        rw [records, (Ledger.push_ok pushed).2, List.append_assoc, List.singleton_append]

/-- What is done last exchanges one record, if it changes anything. -/
theorem Moved.records_of_last {development : Bool} {loaded ledger last : Ledger}
    {migrations : List Migration} {drifted : List Move} (moved : Moved ledger drifted last)
    (planned : drifted <+: Plan.last development loaded migrations) :
    last = ledger ∨ ∃ current stored record, last = ledger.replace record ∧
      migrations.getLast? = some current ∧ loaded.get? current.name = some stored ∧
      record.name = current.name ∧ Carried development migrations stored record := by
  -- Nothing is done last, or just one move.
  cases moved with
  | start => exact .inl rfl
  | @next _ between _ move moves writes rest =>
    rcases Plan.last_cases development loaded migrations with none | ⟨current, stored, final, found,
      ⟨_, allowed, one⟩ | ⟨_, _, one⟩ | ⟨same, _, one⟩⟩
    · rw [none] at planned
      cases List.prefix_nil.mp planned
    all_goals
      rw [one] at planned
      obtain ⟨rfl, nothing⟩ := List.cons_prefix_cons.mp planned
      obtain rfl := List.prefix_nil.mp nothing
      cases rest
      have named := (Ledger.get?_mem found).2
      cases writes
    · exact .inr ⟨current, stored, _, rfl, final, found, rfl, .replayed allowed final named.symm⟩
    · refine .inr ⟨current, stored, _, rfl, final, found, rfl, ?_⟩
      -- The up scripts agree, so only the other texts come from the local migration.
      have refreshed : Carried development migrations stored
        { stored with down := current.down, description := current.description } :=
          .refreshed final named.symm
      rwa [same, named] at refreshed

/-- A beginning of a plan removes some orphans, adds some migrations and may exchange a record. -/
theorem Plan.begin_moves {development : Bool} {loaded : Ledger} {migrations : List Migration}
    {done : List Move} (begins : done <+: moves development loaded migrations) :
    ∃ removed added drifted, done = removed.map .revert ++ (added.map .append ++ drifted) ∧
      removed <+: Status.orphans loaded migrations ∧ (removed ≠ [] → development = true) ∧
      added <+: pending loaded migrations ∧ drifted <+: last development loaded migrations := by
  -- A plan has three parts, and a beginning of it a beginning of each.
  obtain ⟨head, tail, rfl, reverting, following⟩ := prefix_append_parts begins
  obtain ⟨middle, drifted, rfl, applying, treating⟩ := prefix_append_parts following
  obtain ⟨added, missing, rfl⟩ := List.prefix_map_iff.mp applying
  unfold reverts at reverting
  split at reverting
  · rename_i allowed
    obtain ⟨removed, stray, rfl⟩ := List.prefix_map_iff.mp reverting
    exact ⟨removed, added, drifted, rfl, stray, fun _ => allowed, missing, treating⟩
  · obtain rfl := List.prefix_nil.mp reverting
    exact ⟨[], added, drifted, rfl, List.nil_prefix, fun none => absurd rfl none, missing, treating⟩

/-- The last local migration is treated without a script that runs for good. -/
theorem Plan.scripts_of_last {development : Bool} {loaded : Ledger} {migrations : List Migration}
    {drifted : List Move} (treating : drifted <+: last development loaded migrations) :
    drifted.flatMap Move.scripts = [] := by
  -- Replays, refreshes and refusals have no such scripts.
  have silent : (last development loaded migrations).flatMap Move.scripts = [] := by
    rcases last_cases development loaded migrations with none | ⟨_, _, _, _, ⟨_, _, one⟩ |
      ⟨_, _, one⟩ | ⟨_, _, one⟩⟩
    · rw [none]
      rfl
    all_goals
      rw [one]
      rfl
  rw [List.flatMap_eq_nil_iff] at silent ⊢
  exact fun move member => silent move (treating.subset member)

/-- A move without a script that runs for good is made last, behind all others. -/
theorem Plan.last_of_silent {development : Bool} {loaded : Ledger} {migrations : List Migration}
    {done later : List Move} {move : Move}
    (planned : moves development loaded migrations = done ++ move :: later)
    (silent : move.scripts = []) :
    later = [] ∧ last development loaded migrations = [move] ∧
      done = reverts development (Status.orphans loaded migrations) ++
        (pending loaded migrations).map .append := by
  -- All other moves run a script for good.
  have loud : ∀ other ∈ reverts development (Status.orphans loaded migrations) ++
      (pending loaded migrations).map .append, other.scripts ≠ [] := by
    intro other member
    rcases List.mem_append.mp member with reverting | applying
    · obtain ⟨_, orphan, _, rfl⟩ := mem_reverts reverting
      exact List.cons_ne_nil _ _
    · obtain ⟨migration, _, rfl⟩ := List.mem_map.mp applying
      exact List.cons_ne_nil _ _
  -- What is done last is one move or nothing.
  have short : last development loaded migrations = [] ∨
      ∃ final, last development loaded migrations = [final] := by
    rcases last_cases development loaded migrations with none | ⟨_, _, _, _, ⟨_, _, one⟩ |
      ⟨_, _, one⟩ | ⟨_, _, one⟩⟩
    · exact .inl none
    all_goals exact .inr ⟨_, one⟩
  rw [moves, locals, ← List.append_assoc] at planned
  -- The cut lies behind all of the other moves, or among them.
  rcases List.append_eq_append_iff.mp planned with ⟨between, rfl, same⟩ | ⟨between, same, rest⟩
  · rcases short with none | ⟨final, one⟩
    · rw [none] at same
      simp at same
    · rw [one] at same
      rcases List.append_eq_singleton_iff.mp same.symm with ⟨rfl, single⟩ | ⟨_, impossible⟩
      · cases single
        exact ⟨rfl, one, by rw [List.append_nil]⟩
      · cases impossible
  · cases between with
    | nil =>
      rcases short with none | ⟨final, one⟩
      · rw [none] at rest
        cases rest
      · rw [one] at rest
        cases rest
        exact ⟨rfl, one, by rw [same, List.append_nil]⟩
    | cons head between =>
      -- The move would be one of those that run a script.
      simp only [List.cons_append, List.cons.injEq] at rest
      obtain ⟨rfl, _⟩ := rest
      exact absurd silent (loud move (by simp [same]))

/-- Migrations that are applied keep their names and up scripts. -/
theorem texts_of_applied {added new : List Migration} (stamps : List.Forall₂ Applied added new) :
    new.map (·.name) = added.map (·.name) ∧ new.map (·.up) = added.map (·.up) := by
  -- Only the time of application is new in a record.
  induction stamps with
  | nil => exact ⟨rfl, rfl⟩
  | cons stamp _ ih =>
    obtain ⟨time, rfl⟩ := stamp
    simp [ih, Migration.stamped]

/-- Reverts, applications and what is done last lead to a ledger that shows each of them. -/
theorem Moved.progress_of_parts {development : Bool} {loaded current : Ledger}
    {migrations removed added : List Migration} {drifted : List Move}
    (moved : Moved loaded (removed.map .revert ++ (added.map .append ++ drifted)) current)
    (stray : removed <+: Status.orphans loaded migrations)
    (allowed : removed ≠ [] → development = true)
    (missing : added <+: Plan.pending loaded migrations)
    (treating : drifted <+: Plan.last development loaded migrations) :
    Progress development loaded migrations removed added current := by
  refine ⟨stray, allowed, missing, ?_⟩
  -- The ledgers between the three parts are known one after the other.
  obtain ⟨reverted, first, rest⟩ := moved.split
  obtain ⟨applied, second, third⟩ := rest.split
  obtain ⟨new, records, stamps⟩ := second.records_of_appends
  rw [first.records_of_reverts] at records
  -- Only the last part of the plan can exchange a record.
  rcases third.records_of_last treating with rfl |
    ⟨last, stored, record, rfl, final, found, named, carried⟩
  · exact ⟨_, new, records, List.forall₂_same.mpr fun _ _ => .kept, stamps⟩
  -- The exchanged record was loaded, so it stands in front of those that are new.
  have absent : record.name ∉ new.map (·.name) := by
    rw [(texts_of_applied stamps).1, named]
    intro member
    obtain ⟨migration, planned, same⟩ := List.mem_map.mp member
    have missed := (Plan.mem_pending.mp (missing.subset planned)).2
    rw [same, Ledger.contains_eq_false_iff, found] at missed
    cases missed
  refine ⟨_, new, Ledger.records_replace records absent, ?_, stamps⟩
  refine List.forall₂_map_right_iff.mpr (List.forall₂_same.mpr fun old member => ?_)
  split
  · rename_i same
    have loadedOld := Ledger.get?_of_mem (List.mem_filter.mp member).1
    rw [same, named, found] at loadedOld
    cases loadedOld
    exact carried
  · exact .kept

/-- Moves at the beginning of a plan lead to a ledger that shows what they have run. -/
theorem Moved.progress {development : Bool} {loaded current : Ledger} {migrations : List Migration}
    {done : List Move} (moved : Moved loaded done current)
    (begins : done <+: Plan.moves development loaded migrations) :
    ∃ removed added, Progress development loaded migrations removed added current ∧
      done.flatMap Move.scripts = removed.map (·.down) ++ added.map (·.up) := by
  -- A beginning of the plan is some removals, some additions and at most one treatment.
  obtain ⟨removed, added, drifted, rfl, stray, allowed, missing, treating⟩ :=
    Plan.begin_moves begins
  refine ⟨removed, added, moved.progress_of_parts stray allowed missing treating, ?_⟩
  -- A treatment of the last migration is no script of either kind.
  simp only [List.flatMap_append, List.flatMap_map, Plan.scripts_of_last treating,
    List.append_nil, Move.scripts]
  simp only [← List.map_eq_flatMap]

/-- Records that are carried over keep their names. -/
theorem names_of_carried {development : Bool} {migrations old kept : List Migration}
    (carried : List.Forall₂ (Carried development migrations) old kept) :
    kept.map (·.name) = old.map (·.name) := by
  induction carried with
  | nil => rfl
  | cons one _ ih =>
    -- A record is only ever exchanged for one of the same name.
    simp only [List.map_cons, ih, List.cons.injEq, and_true]
    cases one with
    | kept | refreshed => rfl
    | replayed _ _ same => exact same

namespace Progress

variable {development : Bool} {loaded current : Ledger} {migrations removed added : List Migration}

/-- A ledger reached has the loaded records that were not removed, and those that were added. -/
theorem names (progress : Progress development loaded migrations removed added current) :
    current.names = (loaded.except removed).map (·.name) ++ added.map (·.name) := by
  -- Records that are carried along keep their names, and new ones have those of the additions.
  obtain ⟨kept, new, records, carried, stamps⟩ := progress.records
  rw [Ledger.names, records, List.map_append, names_of_carried carried, (texts_of_applied stamps).1]

/-- What is added was not loaded. -/
theorem added_not_loaded (progress : Progress development loaded migrations removed added current)
    {name : String} (member : name ∈ added.map (·.name)) : loaded.contains name = false := by
  -- What has been added was pending, and a pending migration has no record.
  obtain ⟨migration, planned, rfl⟩ := List.mem_map.mp member
  exact (Plan.mem_pending.mp (progress.pending.subset planned)).2

/-- A loaded record is still there unless it has been removed. -/
theorem contains_loaded (progress : Progress development loaded migrations removed added current)
    {record : Migration} (member : record ∈ loaded.records) :
    (!current.contains record.name) = (removed.map (·.name)).contains record.name := by
  have contained : loaded.contains record.name = true :=
    Ledger.contains_eq_true_iff.mpr (List.mem_map.mpr ⟨record, member, rfl⟩)
  rw [Bool.eq_iff_iff, Bool.not_eq_true', ← Bool.not_eq_true, Ledger.contains_eq_true_iff,
    progress.names, List.mem_append, List.contains_iff_mem]
  constructor
  · intro gone
    -- A record that was not removed has been carried over.
    by_contra left
    refine gone (.inl (List.mem_map.mpr ⟨record, ?_, rfl⟩))
    exact List.mem_filter.mpr ⟨member, by simpa using left⟩
  · rintro taken (still | fresh)
    · obtain ⟨other, inside, same⟩ := List.mem_map.mp still
      have left := (List.mem_filter.mp inside).2
      simp only [same] at left
      simp [taken] at left
    · -- What was added has no record in the loaded ledger.
      rw [progress.added_not_loaded fresh] at contained
      cases contained

/-- A ledger reached shows the down scripts of what was removed and the up scripts of what is new. -/
theorem reflected (progress : Progress development loaded migrations removed added current) :
    loaded.reflected current = removed.map (·.down) ++ added.map (·.up) := by
  unfold Ledger.reflected
  have gone : loaded.records.filter (fun record => !current.contains record.name) = removed := by
    -- The loaded records that are missing are those removed.
    rw [List.filter_congr fun record member => progress.contains_loaded member]
    exact filter_names_of_sublist (progress.orphans.sublist.trans List.filter_sublist)
      loaded.distinct
  have grown : (current.records.filter fun record => !loaded.contains record.name).map (·.up) =
      added.map (·.up) := by
    obtain ⟨kept, new, records, carried, stamps⟩ := progress.records
    -- What was carried over counts as loaded, and what was added does not.
    have old : kept.filter (fun record => !loaded.contains record.name) = [] := by
      refine List.filter_eq_nil_iff.mpr fun record member => ?_
      have named : record.name ∈ (loaded.except removed).map (·.name) :=
        names_of_carried carried ▸ List.mem_map.mpr ⟨record, member, rfl⟩
      have contained : loaded.contains record.name = true :=
        Ledger.contains_eq_true_iff.mpr ((List.filter_sublist.map _).subset named)
      simp [contained]
    have fresh : new.filter (fun record => !loaded.contains record.name) = new := by
      refine List.filter_eq_self.mpr fun record member => ?_
      have named : record.name ∈ added.map (·.name) :=
        (texts_of_applied stamps).1 ▸ List.mem_map.mpr ⟨record, member, rfl⟩
      simp [progress.added_not_loaded named]
    rw [records, List.filter_append, old, fresh, List.nil_append, (texts_of_applied stamps).2]
  rw [gone, grown]

/-- Loaded records that are still there stand in the order in which they were loaded. -/
theorem order (progress : Progress development loaded migrations removed added current) :
    (current.names.filter loaded.contains).Sublist loaded.names := by
  -- The additions are not in the loaded ledger, so that only the kept names are left.
  have fresh : (added.map (·.name)).filter loaded.contains = [] :=
    List.filter_eq_nil_iff.mpr fun name member => by simp [progress.added_not_loaded member]
  rw [progress.names, List.filter_append, fresh, List.append_nil]
  exact List.filter_sublist.trans (List.filter_sublist.map _)

end Progress

end SchemaLedger
