import SchemaLedger.Status
import SchemaLedger.Reconcile.Report
import SchemaLedger.Proofs.Ledger.Lookup

/-! What a reconciliation has to do is settled by the ledger it loads and the local migrations. -/

namespace SchemaLedger

/-- One change that a reconciliation makes, or refuses to make. -/
inductive Move where
  /-- Runs the down script of an orphan, and removes its record. -/
  | revert (orphan : Migration)
  /-- Runs the up script of a migration, and adds its record. -/
  | append (migration : Migration)
  /-- Brings a record up to date without running a script. -/
  | refresh (stored current : Migration)
  /-- Reverts a migration within a transaction, and applies it in its current form. -/
  | replay (stored current : Migration)
  /-- Ends the run, because the up script of an applied migration has changed. -/
  | refuse (current : Migration)

/-- The name of the migration that a move is about. -/
def Move.name : Move → String
  | .revert migration | .append migration | .refresh _ migration | .replay _ migration
  | .refuse migration => migration.name

/-- A report of what was done first, followed by what was done next. -/
def Report.join (first second : Report) : Report where
  alreadyApplied := first.alreadyApplied ++ second.alreadyApplied
  applied := first.applied ++ second.applied
  reverted := first.reverted ++ second.reverted
  orphaned := first.orphaned ++ second.orphaned
  replayed := first.replayed ++ second.replayed
  refreshed := first.refreshed ++ second.refreshed

/-- Reports are joined in order, whichever are joined first. -/
theorem Report.join_assoc (first second third : Report) :
    (first.join second).join third = first.join (second.join third) := by
  -- Each list of a report is joined by appending.
  simp [Report.join, List.append_assoc]

/-- An orphan stands in the ledger, and no local migration has its name. -/
theorem Status.mem_orphans {ledger : Ledger} {migrations : List Migration} {orphan : Migration} :
    orphan ∈ Status.orphans ledger migrations ↔
      orphan ∈ ledger.records ∧ orphan.name ∉ migrations.map (·.name) := by
  simp [Status.orphans]

namespace Plan

variable (development : Bool) (ledger : Ledger)

/-- Local migrations without a record, in the order given. -/
def pending (migrations : List Migration) : List Migration :=
  migrations.filter fun migration => !ledger.contains migration.name

/-- Local migrations with a record, in the order given. -/
def recorded (migrations : List Migration) : List Migration :=
  migrations.filter fun migration => ledger.contains migration.name

/-- What is done about a recorded migration that is compared with its record. -/
def drift (stored current : Migration) : List Move :=
  if stored.up ≠ current.up then
    if development then [.replay stored current] else [.refuse current]
  else if stored.descriptorDiffers current then [.refresh stored current]
  else []

/-- What is done about the last local migration, if it is recorded. -/
def last (migrations : List Migration) : List Move :=
  match migrations.getLast? with
  | none => []
  | some current =>
    match ledger.get? current.name with
    | none => []
    | some stored => drift development stored current

/-- What is done about local migrations: new ones are applied before the last one is compared. -/
def locals (migrations : List Migration) : List Move :=
  (pending ledger migrations).map .append ++ last development ledger migrations

/-- What is done about orphans: they are reverted in development only. -/
def reverts (orphans : List Migration) : List Move :=
  if development then orphans.map .revert else []

/-- What a reconciliation has to do, in order. -/
def moves (migrations : List Migration) : List Move :=
  reverts development (Status.orphans ledger migrations) ++ locals development ledger migrations

/-- The report on orphans. -/
def orphansReport (orphans : List Migration) : Report :=
  if development then { reverted := orphans.map (·.name) }
  else { orphaned := orphans.map (·.name) }

/-- The report on changed migrations. -/
def driftReport (moves : List Move) : Report where
  replayed := moves.filterMap fun
    | .replay _ current => some current.name
    | _ => none
  refreshed := moves.filterMap fun
    | .refresh _ current => some current.name
    | _ => none

/-- The report on local migrations. -/
def localsReport (migrations : List Migration) : Report :=
  { driftReport (last development ledger migrations) with
    alreadyApplied := (recorded ledger migrations).map (·.name)
    applied := (pending ledger migrations).map (·.name) }

variable {development : Bool} {ledger : Ledger}

/-- Only orphans are reverted, and only in development. -/
theorem mem_reverts {orphans : List Migration} {move : Move}
    (planned : move ∈ reverts development orphans) :
    development = true ∧ ∃ orphan ∈ orphans, move = .revert orphan := by
  -- Outside development nothing is reverted, so there is nothing to be a member of.
  unfold reverts at planned
  split at planned
  · rename_i allowed
    obtain ⟨orphan, member, rfl⟩ := List.mem_map.mp planned
    exact ⟨allowed, orphan, member, rfl⟩
  · cases planned

/-- What comes behind other migrations is last if anything is. -/
theorem last_cons {migration : Migration} {rest : List Migration} (more : rest ≠ []) :
    last development ledger (migration :: rest) = last development ledger rest := by
  -- A first element with others behind it is not the last.
  cases rest with
  | nil => exact absurd rfl more
  | cons next rest => simp [last, List.getLast?_cons_cons]

/-- A migration without a record is not compared with one, even if it is the last. -/
theorem last_cons_pending {migration : Migration} {rest : List Migration}
    (free : ledger.contains migration.name = false) :
    last development ledger (migration :: rest) = last development ledger rest := by
  by_cases more : rest = []
  · subst more
    -- Even at the very end there is no record to compare it with.
    simp [last, Ledger.contains_eq_false_iff.mp free]
  · exact last_cons more

/-- A recorded migration is compared with its record where no other one follows. -/
theorem last_cons_recorded {migration stored : Migration} {rest : List Migration}
    (found : ledger.get? migration.name = some stored) :
    last development ledger (migration :: rest) =
      (if rest.isEmpty then drift development stored migration else []) ++
        last development ledger rest := by
  by_cases more : rest = []
  · subst more
    -- At the very end it is compared with its record.
    simp [last, found]
  · -- Otherwise the comparison is left to a later migration.
    simp [last_cons more, more]

/-- A migration without a record is applied before what follows it. -/
theorem locals_cons_pending {migration : Migration} {rest : List Migration}
    (free : ledger.contains migration.name = false) :
    locals development ledger (migration :: rest) =
      .append migration :: locals development ledger rest := by
  -- A pending migration has nothing to compare, even where it is the last.
  simp [locals, pending, free, last_cons_pending free]

/-- A recorded migration is skipped, unless it is the last one. -/
theorem locals_cons_recorded {migration stored : Migration} {rest : List Migration}
    (found : ledger.get? migration.name = some stored) :
    locals development ledger (migration :: rest) =
      (if rest.isEmpty then drift development stored migration else []) ++
        locals development ledger rest := by
  have contained : ledger.contains migration.name = true := by simp [Ledger.contains, found]
  -- Nothing is pending behind the last migration, so the order of the two parts does not matter.
  cases rest with
  | nil => simp [locals, pending, contained, last, found]
  | cons next rest => simp [locals, pending, contained, last_cons_recorded found]

/-- Ledgers that agree on the local migrations ask for the same moves. -/
theorem locals_congr {other : Ledger} {migrations : List Migration}
    (agree : ∀ migration ∈ migrations, other.get? migration.name = ledger.get? migration.name) :
    locals development other migrations = locals development ledger migrations := by
  -- The plan is made migration by migration, and each looks up its own name only.
  induction migrations with
  | nil => rfl
  | cons migration rest ih =>
    have same := agree migration List.mem_cons_self
    have tail := ih fun other member => agree other (List.mem_cons_of_mem _ member)
    cases found : ledger.get? migration.name with
    | none =>
      rw [locals_cons_pending (Ledger.contains_eq_false_iff.mpr found),
        locals_cons_pending (Ledger.contains_eq_false_iff.mpr (same.trans found)), tail]
    | some stored =>
      rw [locals_cons_recorded found, locals_cons_recorded (same.trans found), tail]

/-- A migration applied for the first time is reported before what follows it. -/
theorem localsReport_cons_pending {migration : Migration} {rest : List Migration}
    (free : ledger.contains migration.name = false) :
    localsReport development ledger (migration :: rest) =
      Report.join { applied := [migration.name] } (localsReport development ledger rest) := by
  -- It is counted as applied, and nothing is reported of the comparison.
  simp [localsReport, driftReport, Report.join, pending, recorded, free, last_cons_pending free]

/-- A recorded migration is reported with what its comparison asked for, if it is the last. -/
theorem localsReport_cons_recorded {migration stored : Migration} {rest : List Migration}
    (found : ledger.get? migration.name = some stored) :
    localsReport development ledger (migration :: rest) =
      (driftReport (if rest.isEmpty then drift development stored migration else [])).join
        (Report.join { alreadyApplied := [migration.name] }
          (localsReport development ledger rest)) := by
  -- It is counted as found, and compared only if it is the last.
  have contained : ledger.contains migration.name = true := by simp [Ledger.contains, found]
  simp [localsReport, driftReport, Report.join, pending, recorded, contained,
    last_cons_recorded found, List.filterMap_append]

/-- Ledgers that agree on the local migrations lead to the same report on them. -/
theorem localsReport_congr {other : Ledger} {migrations : List Migration}
    (agree : ∀ migration ∈ migrations, other.get? migration.name = ledger.get? migration.name) :
    localsReport development other migrations = localsReport development ledger migrations := by
  -- The report is put together in the same way as the plan.
  induction migrations with
  | nil => rfl
  | cons migration rest ih =>
    have same := agree migration List.mem_cons_self
    have tail := ih fun other member => agree other (List.mem_cons_of_mem _ member)
    cases found : ledger.get? migration.name with
    | none =>
      rw [localsReport_cons_pending (Ledger.contains_eq_false_iff.mpr found),
        localsReport_cons_pending (Ledger.contains_eq_false_iff.mpr (same.trans found)), tail]
    | some stored =>
      rw [localsReport_cons_recorded found, localsReport_cons_recorded (same.trans found), tail]

/-- The last local migration is replayed, refused, refreshed or left alone. -/
theorem last_cases (development : Bool) (ledger : Ledger) (migrations : List Migration) :
    last development ledger migrations = [] ∨
      ∃ current stored, migrations.getLast? = some current ∧
        ledger.get? current.name = some stored ∧
        ((stored.up ≠ current.up ∧ development = true ∧
          last development ledger migrations = [.replay stored current]) ∨
        (stored.up ≠ current.up ∧ development = false ∧
          last development ledger migrations = [.refuse current]) ∨
        (stored.up = current.up ∧ stored.descriptorDiffers current = true ∧
          last development ledger migrations = [.refresh stored current])) := by
  unfold last
  cases final : migrations.getLast? with
  | none => exact .inl rfl
  | some current =>
    cases found : ledger.get? current.name with
    | none => simp [found]
    | some stored =>
      -- A recorded migration is first compared by its up script, and then by its other texts.
      simp only [found, drift]
      by_cases changed : stored.up = current.up
      · by_cases differs : stored.descriptorDiffers current = true
        · exact .inr ⟨current, stored, rfl, found, .inr (.inr ⟨changed, differs, by simp [*]⟩)⟩
        · exact .inl (by simp [*])
      · refine .inr ⟨current, stored, rfl, found, ?_⟩
        -- What is done about a changed up script depends on the mode.
        cases development with
        | true => exact .inl ⟨changed, rfl, by simp [changed]⟩
        | false => exact .inr (.inl ⟨changed, rfl, by simp [changed]⟩)

/-- A replay asks for development and for an up script that differs from the recorded one. -/
theorem of_last_eq_replay {migrations : List Migration} {stored current : Migration}
    (planned : last development ledger migrations = [.replay stored current]) :
    development = true ∧ migrations.getLast? = some current ∧
      ledger.get? current.name = some stored ∧ stored.up ≠ current.up := by
  -- Of all that may be done last only this is a replay.
  rcases last_cases development ledger migrations with none | ⟨_, _, final, found,
    ⟨changed, allowed, one⟩ | ⟨_, _, one⟩ | ⟨_, _, one⟩⟩
  · rw [none] at planned
    cases planned
  all_goals
    rw [one] at planned
    cases planned
  exact ⟨allowed, final, found, changed⟩

/-- A refresh asks for the recorded up script, and for other texts that differ from the record. -/
theorem of_last_eq_refresh {migrations : List Migration} {stored current : Migration}
    (planned : last development ledger migrations = [.refresh stored current]) :
    migrations.getLast? = some current ∧ ledger.get? current.name = some stored ∧
      stored.up = current.up ∧ stored.descriptorDiffers current = true := by
  -- Of all that may be done last only this is a refresh.
  rcases last_cases development ledger migrations with none | ⟨_, _, final, found,
    ⟨_, _, one⟩ | ⟨_, _, one⟩ | ⟨same, differs, one⟩⟩
  · rw [none] at planned
    cases planned
  all_goals
    rw [one] at planned
    cases planned
  exact ⟨final, found, same, differs⟩

/-- What is done last is about the last local migration, which is recorded. -/
theorem name_of_last {migrations : List Migration} {move : Move}
    (planned : move ∈ last development ledger migrations) :
    ∃ current stored, migrations.getLast? = some current ∧ move.name = current.name ∧
      ledger.get? current.name = some stored := by
  -- Whatever is planned here carries the name of the last migration.
  rcases last_cases development ledger migrations with none | ⟨current, stored, final, found,
    ⟨_, _, one⟩ | ⟨_, _, one⟩ | ⟨_, _, one⟩⟩
  · rw [none] at planned
    cases planned
  all_goals
    rw [one, List.mem_singleton] at planned
    exact ⟨current, stored, final, by rw [planned]; rfl, found⟩

/-- A migration that is pending is a local one without a record. -/
theorem mem_pending {migrations : List Migration} {migration : Migration} :
    migration ∈ pending ledger migrations ↔
      migration ∈ migrations ∧ ledger.contains migration.name = false := by
  simp [pending]

/-- No two moves of a plan are about the same name. -/
theorem moves_distinct {migrations : List Migration}
    (distinct : (migrations.map (·.name)).Nodup) :
    ((moves development ledger migrations).map Move.name).Nodup := by
  have stray : ((reverts development (Status.orphans ledger migrations)).map Move.name).Nodup := by
    -- Orphans are records of one ledger, and no two records share a name.
    unfold reverts
    split
    · rw [List.map_map]
      exact ledger.distinct.sublist (List.filter_sublist.map _)
    · exact List.nodup_nil
  have fresh : (((pending ledger migrations).map .append).map Move.name).Nodup := by
    -- What is pending is some of the local migrations, whose names are distinct.
    rw [List.map_map]
    exact distinct.sublist (List.filter_sublist.map _)
  have single : ((last development ledger migrations).map Move.name).Nodup := by
    -- At most one move is made last.
    rcases last_cases development ledger migrations with none | ⟨_, _, _, _, ⟨_, _, one⟩ |
      ⟨_, _, one⟩ | ⟨_, _, one⟩⟩
    · simp [none]
    all_goals simp [one]
  -- It remains that the three parts of the plan share no names.
  simp only [moves, locals, List.map_append, List.nodup_append]
  refine ⟨stray, ⟨fresh, single, ?_⟩, ?_⟩
  · -- What is pending has no record, and what is compared has one.
    intro first applied second compared same
    obtain ⟨_, planned, rfl⟩ := List.mem_map.mp applied
    obtain ⟨migration, missing, rfl⟩ := List.mem_map.mp planned
    obtain ⟨move, planned, rfl⟩ := List.mem_map.mp compared
    obtain ⟨current, stored, _, named, found⟩ := name_of_last planned
    have absent := Ledger.contains_eq_false_iff.mp (mem_pending.mp missing).2
    rw [← named, ← same] at found
    exact absurd (absent.symm.trans found) (by simp)
  · -- Orphans have other names than local migrations.
    intro first reverted second treated same
    obtain ⟨_, planned, rfl⟩ := List.mem_map.mp reverted
    obtain ⟨_, orphan, stray, rfl⟩ := mem_reverts planned
    refine (Status.mem_orphans.mp stray).2 ?_
    rw [show orphan.name = second from same]
    rcases List.mem_append.mp treated with applied | compared
    · obtain ⟨_, planned, rfl⟩ := List.mem_map.mp applied
      obtain ⟨migration, missing, rfl⟩ := List.mem_map.mp planned
      exact List.mem_map.mpr ⟨migration, (mem_pending.mp missing).1, rfl⟩
    · obtain ⟨move, planned, rfl⟩ := List.mem_map.mp compared
      obtain ⟨current, _, final, named, _⟩ := name_of_last planned
      exact List.mem_map.mpr ⟨current, List.mem_of_getLast? final, named.symm⟩

/-- A planned move reverts an orphan, applies what is pending or treats the last migration. -/
theorem mem_moves {migrations : List Migration} {move : Move}
    (planned : move ∈ moves development ledger migrations) :
    (development = true ∧ ∃ orphan ∈ Status.orphans ledger migrations, move = .revert orphan) ∨
      (∃ migration ∈ pending ledger migrations, move = .append migration) ∨
      move ∈ last development ledger migrations := by
  -- The three parts of the plan are told apart one after the other.
  rcases List.mem_append.mp planned with reverting | following
  · exact .inl (mem_reverts reverting)
  rcases List.mem_append.mp following with applying | treating
  · obtain ⟨migration, missing, rfl⟩ := List.mem_map.mp applying
    exact .inr (.inl ⟨migration, missing, rfl⟩)
  · exact .inr (.inr treating)

/-- Only the last local migration can be refused. -/
theorem getLast?_of_refuse {migrations : List Migration} {current : Migration}
    (planned : .refuse current ∈ moves development ledger migrations) :
    migrations.getLast? = some current := by
  -- Neither a revert nor an application is a refusal.
  rcases mem_moves planned with ⟨_, _, _, other⟩ | ⟨_, _, other⟩ | treating
  · cases other
  · cases other
  · rcases last_cases development ledger migrations with none | ⟨_, _, final, _, ⟨_, _, one⟩ |
      ⟨_, _, one⟩ | ⟨_, _, one⟩⟩
    · rw [none] at treating
      cases treating
    all_goals
      rw [one, List.mem_singleton] at treating
      cases treating
    exact final

end Plan

end SchemaLedger
