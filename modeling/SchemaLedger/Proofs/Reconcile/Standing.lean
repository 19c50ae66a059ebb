import SchemaLedger.Proofs.Reconcile.Outcome

/-! How migrations stand towards the ledger, as the plan of a run and as a status report. -/

namespace SchemaLedger

namespace Plan

variable {development : Bool} {ledger : Ledger} {migrations : List Migration}

/-- The last local migration behind its record, if there is one. -/
def compared (ledger : Ledger) (migrations : List Migration) : Option (Migration × Migration) :=
  migrations.getLast?.bind fun current =>
    (ledger.get? current.name).map fun stored => (stored, current)

/-- The last local migration behind its record, if the up scripts differ. -/
def changed (ledger : Ledger) (migrations : List Migration) : Option (Migration × Migration) :=
  (compared ledger migrations).filter fun (stored, current) => stored.up != current.up

/-- The last local migration behind its record, if other texts differ but the up scripts do not. -/
def redescribed (ledger : Ledger) (migrations : List Migration) : Option (Migration × Migration) :=
  (compared ledger migrations).filter fun (stored, current) =>
    stored.up == current.up && stored.descriptorDiffers current

/-- The records that a run removes, which takes development. -/
def removed (development : Bool) (ledger : Ledger) (migrations : List Migration) : List Migration :=
  if development then Status.orphans ledger migrations else []

/-- The orphans that a run leaves alone, which it does outside development. -/
def spared (development : Bool) (ledger : Ledger) (migrations : List Migration) : List Migration :=
  if development then [] else Status.orphans ledger migrations

/-- Only orphans are removed, and only in development. -/
theorem removed_begins (development : Bool) (ledger : Ledger) (migrations : List Migration) :
    removed development ledger migrations <+: Status.orphans ledger migrations ∧
      (removed development ledger migrations ≠ [] → development = true) := by
  -- Production removes none of the orphans, development removes all.
  cases development
  · exact ⟨List.nil_prefix, fun some => absurd rfl some⟩
  · exact ⟨List.prefix_rfl, fun _ => rfl⟩

/-- What is compared is the last local migration and the record under its name. -/
theorem compared_eq_some {stored current : Migration} :
    compared ledger migrations = some (stored, current) ↔
      migrations.getLast? = some current ∧ ledger.get? current.name = some stored := by
  -- The comparison looks at the last local migration, and only if it has a record.
  simp only [compared, Option.bind_eq_some_iff, Option.map_eq_some_iff, Prod.mk.injEq]
  constructor
  · rintro ⟨_, final, _, found, rfl, rfl⟩
    exact ⟨final, found⟩
  · rintro ⟨final, found⟩
    exact ⟨current, final, stored, found, rfl, rfl⟩

/-- What is done last is done about the comparison. -/
theorem last_eq (development : Bool) (ledger : Ledger) (migrations : List Migration) :
    last development ledger migrations =
      (compared ledger migrations).elim [] fun (stored, current) =>
        drift development stored current := by
  unfold last compared
  cases migrations.getLast? with
  | none => rfl
  | some current =>
    -- Without a record there is nothing to be compared.
    cases found : ledger.get? current.name with
    | none => simp [found]
    | some stored => simp [found]

/-- What is done last replays or refuses what has changed, and refreshes other records. -/
theorem last_eq_append (development : Bool) (ledger : Ledger) (migrations : List Migration) :
    last development ledger migrations =
      ((changed ledger migrations).toList.map fun (stored, current) =>
        if development then .replay stored current else .refuse current) ++
      (redescribed ledger migrations).toList.map fun (stored, current) =>
        .refresh stored current := by
  rw [last_eq, changed, redescribed]
  cases compared ledger migrations with
  | none => rfl
  | some pair =>
    obtain ⟨stored, current⟩ := pair
    by_cases same : stored.up = current.up
    · -- With the same up script only the other texts matter.
      cases differs : stored.descriptorDiffers current <;>
        simp [drift, same, differs, Option.filter]
    · -- With another one they do not matter at all.
      cases development <;> simp [drift, same, Option.filter]

/-- The records removed are reverted first. -/
theorem reverts_orphans :
    reverts development (Status.orphans ledger migrations) =
      (removed development ledger migrations).map .revert := by
  -- Orphans are reverted exactly in the mode in which they are removed.
  cases development <;> rfl

/-- A plan has nothing to do exactly if there is nothing to do about any kind of migrations. -/
theorem moves_eq_nil :
    moves development ledger migrations = [] ↔
      removed development ledger migrations = [] ∧ pending ledger migrations = [] ∧
        changed ledger migrations = none ∧ redescribed ledger migrations = none := by
  -- The list is empty when each of its parts is.
  simp [moves, locals, reverts_orphans, last_eq_append]

/-- Reverts and applications come before what is done last. -/
theorem moves_eq (development : Bool) (ledger : Ledger) (migrations : List Migration) :
    moves development ledger migrations =
      ((removed development ledger migrations).map .revert ++
        (pending ledger migrations).map .append) ++ last development ledger migrations := by
  -- The parts are regrouped so that the treatment of the last migration stands alone.
  rw [moves, locals, reverts_orphans, List.append_assoc]

/-- Where no script fails nothing is in the way of a revert or an application. -/
theorem free_before_last {move : Move}
    (member : move ∈ (removed development ledger migrations).map .revert ++
      (pending ledger migrations).map .append) : move.hindrance? [] = none := by
  -- With no failing scripts nothing stands in the way of a removal or an addition.
  rcases List.mem_append.mp member with reverting | applying
  · obtain ⟨orphan, _, rfl⟩ := List.mem_map.mp reverting
    exact Memory.obstacle?_nil _ _
  · obtain ⟨migration, _, rfl⟩ := List.mem_map.mp applying
    exact Memory.obstacle?_nil _ _

/-- Where no script fails all reverts and applications are made. -/
theorem feasible_moves (development : Bool) (ledger : Ledger) (migrations : List Migration) :
    feasible [] (moves development ledger migrations) =
      (removed development ledger migrations).map .revert ++
        ((pending ledger migrations).map .append ++
          feasible [] (last development ledger migrations)) := by
  -- All moves before the last are feasible, so that only that one is in question.
  rw [moves_eq, feasible_append fun _ => free_before_last, List.append_assoc]

/-- Where no script fails only a change is in the way, and only outside development. -/
theorem hindrance?_moves (development : Bool) (ledger : Ledger) (migrations : List Migration) :
    hindrance? [] (moves development ledger migrations) =
      if development then none
      else (changed ledger migrations).map fun (_, current) => .upChanged current.name := by
  have refreshed : ((redescribed ledger migrations).toList.map fun (stored, current) =>
      .refresh stored current).findSome? (Move.hindrance? []) = none := by
    -- A refresh writes the ledger only.
    refine List.findSome?_eq_none_iff.mpr fun move member => ?_
    obtain ⟨⟨stored, current⟩, _, rfl⟩ := List.mem_map.mp member
    exact Memory.obstacle?_nil _ _
  rw [moves_eq, hindrance?_append fun _ => free_before_last, last_eq_append, hindrance?,
    List.findSome?_append, refreshed, Option.or_none]
  -- A change is replayed in development, where no script fails, and refused elsewhere.
  cases development <;> cases changed ledger migrations <;> rfl

/-- Where no script fails nothing is in the way in development, nor without a change. -/
theorem free_of_accepted (accepted : development = true ∨ changed ledger migrations = none) :
    hindrance? [] (moves development ledger migrations) = none := by
  rw [hindrance?_moves]
  rcases accepted with rfl | unchanged
  · rfl
  · -- Without a change nothing is in the way in either mode.
    rw [unchanged]
    exact ite_self none

/-- The report on a plan names the migrations by how they stand towards the ledger. -/
theorem report_eq (development : Bool) (ledger : Ledger) (migrations : List Migration) :
    report development ledger migrations =
      { alreadyApplied := (recorded ledger migrations).map (·.name)
        applied := (pending ledger migrations).map (·.name)
        reverted := (removed development ledger migrations).map (·.name)
        orphaned := (spared development ledger migrations).map (·.name)
        replayed :=
          if development then (changed ledger migrations).toList.map (·.2.name) else []
        refreshed := (redescribed ledger migrations).toList.map (·.2.name) } := by
  have drifted : driftReport (last development ledger migrations) =
      { replayed := if development then (changed ledger migrations).toList.map (·.2.name) else []
        refreshed := (redescribed ledger migrations).toList.map (·.2.name) } := by
    rw [last_eq_append]
    cases development <;> cases changed ledger migrations <;>
      cases redescribed ledger migrations <;> rfl
  -- The report on orphans and that on local migrations have no list in common.
  cases development <;>
    simp [report, orphansReport, localsReport, drifted, Report.join, removed, spared]

/-- Only where nothing follows a migration it is compared. -/
theorem compared_cons {migration : Migration} {rest : List Migration} :
    compared ledger (migration :: rest) =
      if rest.isEmpty then (ledger.get? migration.name).map fun stored => (stored, migration)
      else compared ledger rest := by
  -- A migration with others behind it is not the last, and does not matter.
  cases rest with
  | nil => rfl
  | cons next rest => simp [compared, List.getLast?_cons_cons]

end Plan

namespace Status

variable {ledger : Ledger} {migrations : List Migration} {states : List MigrationState}

/-- The names of those lines of a status report that show one of some states. -/
def named (states : List MigrationState) (lines : List MigrationStatus) : List String :=
  (lines.filter fun line => states.contains line.state).map (·.name)

/-- The names of further lines follow. -/
theorem named_append (first second : List MigrationStatus) :
    named states (first ++ second) = named states first ++ named states second := by
  simp [named]

/-- Orphans are all shown in the same state. -/
theorem named_orphaned (records : List Migration) :
    named states (records.map orphaned) =
      if states.contains .orphaned then records.map (·.name) else [] := by
  -- Whether a line counts does not depend on its record.
  have constant : (records.map orphaned).filter (fun line => states.contains line.state) =
      (records.filter fun _ => states.contains .orphaned).map orphaned := List.filter_map
  rw [named, constant, List.map_map]
  cases states.contains .orphaned
  · simp
  · rw [if_pos rfl, List.filter_true]
    rfl

/-- The name of a first line comes first, if it is in one of the states. -/
theorem named_locals_cons {migration : Migration} {rest : List Migration} :
    named states (locals ledger (migration :: rest)) =
      (if states.contains (stateOf ledger migration rest.isEmpty) then [migration.name] else []) ++
        named states (locals ledger rest) := by
  -- Whether the first name is listed depends on the state of its line alone.
  rw [locals, named, List.filter_cons]
  split <;> rfl

/-- Where it does not matter which migration is last, the names shown are those in some states. -/
theorem named_locals {shown : Migration → Bool}
    (agree : ∀ migration last, states.contains (stateOf ledger migration last) = shown migration) :
    named states (locals ledger migrations) = (migrations.filter shown).map (·.name) := by
  -- The induction is on the migrations, whose lines stand in the same order.
  induction migrations with
  | nil => rfl
  | cons migration rest ih =>
    rw [named_locals_cons, ih, agree, List.filter_cons]
    split <;> rfl

/-- A migration is pending without a record, and is applied or changed with one. -/
theorem stateOf_cases (ledger : Ledger) (migration : Migration) (last : Bool) :
    (ledger.contains migration.name = false ∧ stateOf ledger migration last = .pending) ∨
      (ledger.contains migration.name = true ∧
        (stateOf ledger migration last = .applied ∨ stateOf ledger migration last = .changed)) := by
  unfold stateOf Ledger.contains
  cases ledger.get? migration.name with
  | none => exact .inl ⟨rfl, rfl⟩
  | some stored =>
    refine .inr ⟨rfl, ?_⟩
    -- Only the last migration can be shown as changed.
    simp only
    split
    · exact .inr rfl
    · exact .inl rfl

/-- What the status shows as pending is pending. -/
theorem named_pending : named [.pending] (locals ledger migrations) =
    (Plan.pending ledger migrations).map (·.name) := by
  -- A migration is pending when the ledger has no record of it, wherever it stands.
  refine named_locals fun migration last => ?_
  rcases stateOf_cases ledger migration last with ⟨absent, same⟩ | ⟨present, same | same⟩ <;>
    simp [*]

/-- What the status shows as applied or changed is recorded. -/
theorem named_recorded : named [.applied, .changed] (locals ledger migrations) =
    (Plan.recorded ledger migrations).map (·.name) := by
  -- Applied and changed are the two states of a migration with a record.
  refine named_locals fun migration last => ?_
  rcases stateOf_cases ledger migration last with ⟨absent, same⟩ | ⟨present, same | same⟩ <;>
    simp [*]

/-- No local migration is shown as an orphan. -/
theorem named_orphaned_locals : named [.orphaned] (locals ledger migrations) = [] := by
  -- No local migration is an orphan, whatever the ledger holds.
  have none : (migrations.filter fun _ => false).map (·.name) = [] := by simp
  -- The filter that keeps nothing stands for the empty list, to fit the lemma.
  rw [← none]
  refine named_locals fun migration last => ?_
  rcases stateOf_cases ledger migration last with ⟨_, same⟩ | ⟨_, same | same⟩ <;> simp [same]

/-- What the status shows as changed is the last local migration, if its up script has changed. -/
theorem named_changed : named [.changed] (locals ledger migrations) =
    (Plan.changed ledger migrations).toList.map (·.2.name) := by
  -- The induction leads to the last migration, which is the only one whose up script is looked at.
  induction migrations with
  | nil => rfl
  | cons migration rest ih =>
    rw [named_locals_cons, ih]
    cases rest with
    | cons next rest =>
      -- Behind this migration there is another one, so its own up script does not matter.
      rw [Plan.changed, Plan.changed, @Plan.compared_cons ledger migration (next :: rest)]
      cases found : ledger.get? migration.name <;> simp [stateOf, found]
    | nil =>
      rw [Plan.changed, Plan.changed, Plan.compared_cons]
      cases found : ledger.get? migration.name with
      -- Without a record the migration is pending, and there is no comparison.
      | none => simp [stateOf, found, Plan.compared]
      | some stored =>
        by_cases same : stored.up = migration.up <;>
          simp [stateOf, found, same, Plan.compared, Option.filter]

/-- Where nothing is pending and nothing has changed all local migrations are shown as applied. -/
theorem locals_applied (complete : Plan.pending ledger migrations = [])
    (unchanged : Plan.changed ledger migrations = none) :
    (locals ledger migrations).map (fun line => (line.name, line.state)) =
      migrations.map fun migration => (migration.name, .applied) := by
  -- Each line has the name of its migration.
  have names : (locals ledger migrations).map (·.name) = migrations.map (·.name) := by
    clear complete unchanged
    induction migrations with
    | nil => rfl
    | cons migration rest ih => rw [locals, List.map_cons, ih, List.map_cons]
  have applied : ∀ line ∈ locals ledger migrations, line.state = .applied := by
    intro line member
    -- No line shows a state that there are no names for.
    have other : ∀ state, named [state] (locals ledger migrations) = [] → line.state ≠ state := by
      intro state none same
      rw [named, List.map_eq_nil_iff, List.filter_eq_nil_iff] at none
      exact none line member (by simp [same])
    have started := other .pending (by rw [named_pending, complete, List.map_nil])
    have kept := other .changed (by rw [named_changed, unchanged]; rfl)
    have defined := other .orphaned named_orphaned_locals
    cases state : line.state with
    | applied => rfl
    | pending => exact absurd state started
    | changed => exact absurd state kept
    | orphaned => exact absurd state defined
  -- The lines have the names of the migrations, and all show the same state.
  have paired : (locals ledger migrations).map (fun line => (line.name, line.state)) =
      ((locals ledger migrations).map (·.name)).map fun name => (name, .applied) := by
    rw [List.map_map]
    exact List.map_congr_left fun line member => by rw [applied line member]; rfl
  rw [paired, names, List.map_map]
  rfl

/-- The lines on local migrations in order, followed by those on orphans. -/
def lines (ledger : Ledger) (migrations : List Migration) : List MigrationStatus :=
  locals ledger migrations ++ (orphans ledger migrations).map orphaned

/-- Where nothing is pending or changed the lines show what is applied, and then the orphans. -/
theorem lines_of_settled (complete : Plan.pending ledger migrations = [])
    (unchanged : Plan.changed ledger migrations = none) :
    (lines ledger migrations).map (fun line => (line.name, line.state)) =
      migrations.map (fun migration => (migration.name, .applied)) ++
        ((orphans ledger migrations).map (·.name)).map fun name => (name, .orphaned) := by
  -- With nothing pending or changed all local lines are applied, and the rest are orphans.
  rw [lines, List.map_append, locals_applied complete unchanged, List.map_map, List.map_map]
  rfl

/-- Once migrations are ordered, a status report consists of the lines on them. -/
theorem report_of_ordered {sorted : List Migration}
    (ordered : canonicalOrder migrations = .ok sorted) (ledger : Ledger) :
    statusReport migrations ledger = .ok (lines ledger sorted) := by
  -- A list that can be sorted has its lines in sorted order.
  rw [statusReport, ordered]
  rfl

/-- The lines of a report show a migration as pending where it is. -/
theorem pending_of_lines : named [.pending] (lines ledger migrations) =
    (Plan.pending ledger migrations).map (·.name) := by
  -- Only local lines can be pending.
  rw [lines, named_append, named_pending, named_orphaned, if_neg (by decide), List.append_nil]

/-- The lines of a report show a migration as an orphan where it is. -/
theorem orphans_of_lines : named [.orphaned] (lines ledger migrations) =
    (orphans ledger migrations).map (·.name) := by
  -- Only the lines behind the local ones can be orphaned.
  rw [lines, named_append, named_orphaned_locals, named_orphaned, if_pos (by decide),
    List.nil_append]

/-- The lines of a report show a migration as changed where it has. -/
theorem changed_of_lines : named [.changed] (lines ledger migrations) =
    (Plan.changed ledger migrations).toList.map (·.2.name) := by
  -- Only local lines can be changed.
  rw [lines, named_append, named_changed, named_orphaned, if_neg (by decide), List.append_nil]

/-- The lines of a report show a migration as applied or changed where it is recorded. -/
theorem recorded_of_lines : named [.applied, .changed] (lines ledger migrations) =
    (Plan.recorded ledger migrations).map (·.name) := by
  -- Orphans are records too, but they are not listed as applied.
  rw [lines, named_append, named_recorded, named_orphaned, if_neg (by decide), List.append_nil]

end Status

end SchemaLedger
