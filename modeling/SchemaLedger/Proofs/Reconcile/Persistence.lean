import SchemaLedger.Proofs.Reconcile.Calls
import SchemaLedger.Store.Memory

/-! Every script that a run executes for good is recorded in the ledger by the very next call. -/

namespace SchemaLedger

/-- A script that is run for good, and the ledger that records it in place of the current one. -/
inductive Records (loaded : Ledger) (migrations : List Migration) (current : Ledger) :
    String → Ledger → Prop where
  /-- An orphan that is still recorded is reverted, and exactly its record is removed. -/
  | removal {orphan : Migration} (stray : orphan ∈ Status.orphans loaded migrations)
      (present : orphan ∈ current.records) :
      Records loaded migrations current orphan.down (current.remove orphan.name)
  /-- A migration without a record is applied, and exactly its record is added at the end. -/
  | addition {migration : Migration} {time : Instant} {next : Ledger}
      (missing : migration ∈ Plan.pending loaded migrations)
      (pushed : current.push (migration.stamped time) = .ok next)
      (grown : next.records = current.records ++ [migration.stamped time]) :
      Records loaded migrations current migration.up next

/-- The record of the last migration is brought up to date, and keeps its time of application. -/
inductive Refreshes (migrations : List Migration) (current : Ledger) : Ledger → Prop where
  | refresh {migration stored : Migration} (final : migrations.getLast? = some migration)
      (found : current.get? migration.name = some stored) (same : stored.up = migration.up)
      (differs : stored.descriptorDiffers migration = true) :
      Refreshes migrations current
        (current.replace { migration with appliedAt := stored.appliedAt })

/-- A call executes a script. -/
def Call.isExecute : Call → Bool
  | .execute _ => true
  | _ => false

variable {development : Bool} {loaded current next : Ledger} {migrations : List Migration}
  {done later : List Move} {move : Move}

/-- Moves made before leave the record that a move is about as it was loaded. -/
theorem Moved.get?_planned (distinct : (migrations.map (·.name)).Nodup)
    (planned : Plan.moves development loaded migrations = done ++ move :: later)
    (moved : Moved loaded done current) : current.get? move.name = loaded.get? move.name := by
  refine moved.get?_other fun other member same => ?_
  -- The plan is about each name at most once.
  have names := @Plan.moves_distinct development loaded migrations distinct
  rw [planned, List.map_append, List.map_cons, List.nodup_append] at names
  exact names.2.2 _ (List.mem_map.mpr ⟨other, member, same.symm⟩) _ List.mem_cons_self rfl

/-- A move that runs a script for good writes the ledger that records it. -/
theorem Records.of_move {script : String} (distinct : (migrations.map (·.name)).Nodup)
    (planned : Plan.moves development loaded migrations = done ++ move :: later)
    (moved : Moved loaded done current) (writes : move.Writes current next)
    (runs : move.scripts = [script]) : Records loaded migrations current script next := by
  have unchanged := moved.get?_planned distinct planned
  -- Only reverts and applications run scripts for good.
  have member : move ∈ Plan.moves development loaded migrations := by simp [planned]
  rcases Plan.mem_moves member with ⟨_, orphan, stray, rfl⟩ | ⟨migration, missing, rfl⟩ | treating
  · obtain rfl : orphan.down = script := by simpa [Move.scripts] using runs
    cases writes
    -- No move before this one was about the orphan, so its record is still there.
    have loadedOrphan := Ledger.get?_of_mem (Status.mem_orphans.mp stray).1
    exact .removal stray (Ledger.get?_mem (unchanged.trans loadedOrphan)).1
  · obtain rfl : migration.up = script := by simpa [Move.scripts] using runs
    cases writes with
    | append pushed => exact .addition missing pushed (Ledger.push_ok pushed).2
  · have silent := Plan.scripts_of_last (@List.prefix_rfl _ (Plan.last development loaded migrations))
    rw [List.flatMap_eq_nil_iff.mp silent move treating] at runs
    cases runs

/-- A move that only refreshes a record is the last one, and writes the refreshed record. -/
theorem Refreshes.of_move {stored migration : Migration} (distinct : (migrations.map (·.name)).Nodup)
    (planned : Plan.moves development loaded migrations =
      done ++ .refresh stored migration :: later)
    (moved : Moved loaded done current) (writes : (Move.refresh stored migration).Writes current next) :
    Refreshes migrations current next ∧ later = [] := by
  have unchanged := moved.get?_planned distinct planned
  -- A refresh runs no script, so it can only be what is done last.
  obtain ⟨alone, one, _⟩ := Plan.last_of_silent planned rfl
  obtain ⟨final, found, same, differs⟩ := Plan.of_last_eq_refresh one
  cases writes
  exact ⟨.refresh final (unchanged.trans found) same differs, alone⟩

/-- A move that does not fail ends with a call that executes no script. -/
theorem Move.Calls.last_of_success {made : List CallRecord}
    (calls : move.Calls current next made none) :
    ∃ front record, made = front ++ [record] ∧ record.call.isExecute = false := by
  -- The shape of its calls tells how a move ends.
  rcases calls.shape with ⟨_, _, _, _, impossible⟩ | ⟨script, _, rfl⟩ | ⟨_, _, _, rfl⟩ |
    ⟨_, _, _, replays⟩
  · cases impossible
  · -- The script is not the last call, because the write comes behind it.
    exact ⟨[⟨.execute script, none⟩], _, rfl, rfl⟩
  · exact ⟨[], _, rfl, rfl⟩
  · -- A replay ends by closing its transaction.
    rcases replays.bracketed with ⟨error, rfl⟩ | ⟨body, closing, rfl, _, closes⟩
    · exact ⟨[], _, rfl, rfl⟩
    · refine ⟨⟨.transact .begin, none⟩ :: body, closing, rfl, ?_⟩
      rcases closes with same | same <;> rw [same] <;> rfl

/-- Between two moves the call before is not the execution of a script. -/
theorem Follows.last_of_success {made : List CallRecord} {moves : List Move}
    (follows : Follows loaded moves made (.ok current)) :
    ∀ record ∈ made.getLast?, record.call.isExecute = false := by
  -- The last move decides, unless there is none.
  generalize reached : (.ok current : Except MigrationError Ledger) = ended at follows
  induction follows with
  | done => simp
  | @next _ _ _ _ made later _ _ calls _ ih =>
    cases later with
    | nil =>
      obtain ⟨front, record, rfl, quiet⟩ := calls.last_of_success
      simpa using quiet
    | cons head rest => simpa using ih reached
  | stopped => cases reached
  | refused => cases reached

/-- Moves at the beginning of a plan lead to a ledger that shows what they have run. -/
theorem Moved.reflected (moved : Moved loaded done current)
    (begins : done <+: Plan.moves development loaded migrations) :
    loaded.reflected current = done.flatMap Move.scripts := by
  -- Both sides are read off the removals and additions that have been made.
  obtain ⟨removed, added, progress, scripts⟩ := moved.progress begins
  rw [progress.reflected, scripts]

/-- At any point at most one script that was run for good is not shown by the last ledger. -/
theorem Point.one_unrecorded {outcome : Except MigrationError Ledger} {seen unseen : List CallRecord}
    (point : Point loaded (Plan.moves development loaded migrations) outcome seen unseen) :
    ∃ unrecorded, unrecorded.length ≤ 1 ∧ History.lasting false seen =
      loaded.reflected (History.written loaded seen) ++ unrecorded := by
  cases point with
  | @within done later move current next earlier inner rest tail failure planned past future reached
      writes calls goesOn ends latest =>
    -- The moves made so far begin the plan, with or without the one under way.
    have before : done <+: Plan.moves development loaded migrations := ⟨_, planned.symm⟩
    have including : done ++ [move] <+: Plan.moves development loaded migrations :=
      ⟨later, by rw [planned, List.append_assoc]; rfl⟩
    rw [past, History.lasting_append, History.written_append, reached.closed, reached.lasting,
      reached.written]
    -- The move under way has either not been written yet, or its scripts are all shown.
    rcases calls.at_point with ⟨same, short⟩ | ⟨same, run⟩
    · exact ⟨_, short, by rw [same, reached.moved.reflected before]⟩
    · refine ⟨[], Nat.zero_le _, ?_⟩
      have moved := reached.moved.append (.next writes (.start next))
      rw [same, run, moved.reflected including, List.flatMap_append, List.flatMap_singleton,
        List.append_nil]
  | finished past future ended =>
    refine ⟨[], Nat.zero_le _, ?_⟩
    rw [past.lasting, past.written, past.moved.reflected List.prefix_rfl, List.append_nil]
  | refused planned past future ended =>
    refine ⟨[], Nat.zero_le _, ?_⟩
    rw [past.lasting, past.written, past.moved.reflected ⟨_, planned.symm⟩, List.append_nil]

namespace Reconciler

open History

section Recording

variable {σ : Type} {r : Reconciler σ} {migrations sorted : List Migration} {state : σ}
  {before after : List CallRecord}

/-- A script that is run for good is recorded by the very next call. -/
theorem recorded_by_next_call (ordered : canonicalOrder migrations = .ok sorted)
    (opened : (r.store.load state).1 = .ok loaded) {script : String}
    (cut : r.calls migrations state = before ++ ⟨.execute script, none⟩ :: after)
    (outside : openAfter false before = false) :
    ∃ next answer later, after = ⟨.swap (written loaded before) next, answer⟩ :: later ∧
      Records loaded sorted (written loaded before) script next := by
  obtain ⟨seen, outcome, rfl, place, _⟩ := placed ordered opened cut (by simp)
  cases place with
  | @place done later move current next earlier inner rest tail failure planned past future reached
      writes calls goesOn ends =>
    -- The script is the first call of its move, so all moves before it have been recorded.
    rw [openAfter_load, past, openAfter_append, reached.closed] at outside
    obtain ⟨runs, rfl, rfl⟩ := calls.of_execute outside
    have stored : written loaded (⟨.load, none⟩ :: seen) = current := by
      rw [written_load, past, List.append_nil, reached.written]
    rw [stored]
    exact ⟨next, failure, tail, future,
      Records.of_move (canonicalOrder_ok ordered).2 planned reached.moved writes runs⟩

/-- A write outside a transaction records the script of the call before, or refreshes a record. -/
theorem records_or_refreshes (ordered : canonicalOrder migrations = .ok sorted)
    (opened : (r.store.load state).1 = .ok loaded) {expected next : Ledger}
    {answer : Option MigrationError}
    (cut : r.calls migrations state = before ++ ⟨.swap expected next, answer⟩ :: after)
    (outside : openAfter false before = false) :
    expected = written loaded before ∧
    ((∃ earlier script, before = earlier ++ [⟨.execute script, none⟩] ∧
      Records loaded sorted expected script next) ∨
    (Refreshes sorted expected next ∧ after = [] ∧
      lasting false before = loaded.reflected expected ∧
      ∀ record ∈ before.getLast?, record.call.isExecute = false)) := by
  have distinct := (canonicalOrder_ok ordered).2
  obtain ⟨seen, outcome, rfl, place, _⟩ := placed ordered opened cut (by simp)
  cases place with
  | @place done later move current offered earlier inner rest tail failure planned past future
      reached writes calls goesOn ends =>
    rw [openAfter_load, past, openAfter_append, reached.closed] at outside
    obtain ⟨rfl, rfl, same⟩ := calls.of_swap
    -- The moves before have been written, so their last ledger is the one expected.
    have stored : written loaded (⟨.load, none⟩ :: seen) = expected := by
      rw [written_load, past, written_append, reached.written, same]
    refine ⟨stored.symm, ?_⟩
    -- The write stands behind a script, alone, or within a transaction, which is excluded.
    rcases calls.swap_cases with ⟨_, rfl, _, ⟨script, runs, rfl⟩ | ⟨_, _, rfl, rfl⟩⟩ | ⟨inside, _⟩
    · exact .inl ⟨⟨.load, none⟩ :: earlier, script, by rw [past, List.cons_append],
        Records.of_move distinct planned reached.moved writes runs⟩
    · obtain ⟨refreshes, rfl⟩ := Refreshes.of_move distinct planned reached.moved writes
      rw [List.append_nil] at past
      subst past
      refine .inr ⟨refreshes, ?_, ?_, ?_⟩
      · -- No move follows the refresh, so no call does.
        rw [future, List.nil_append]
        cases failure with
        | none =>
          cases goesOn rfl
          rfl
        | some error => exact (ends error rfl).1
      · rw [lasting_load, reached.lasting, reached.moved.reflected ⟨_, planned.symm⟩]
      · cases seen with
        | nil => simp [Call.isExecute]
        | cons head rest => simpa using reached.last_of_success
    · rw [inside] at outside
      cases outside

/-- Wherever a run is cut off, the ledger written last shows all scripts run for good but one. -/
theorem one_unrecorded (ordered : canonicalOrder migrations = .ok sorted)
    (opened : (r.store.load state).1 = .ok loaded) {seen : List CallRecord}
    (begins : seen <+: r.calls migrations state) :
    ∃ unrecorded, unrecorded.length ≤ 1 ∧
      lasting false seen = loaded.reflected (written loaded seen) ++ unrecorded := by
  obtain ⟨unseen, cut⟩ := begins
  obtain ⟨made, outcome, _, called, follows, _⟩ := follows_plan ordered opened
  rw [called] at cut
  cases seen with
  | nil =>
    -- Before the first call nothing has been run, and nothing has changed.
    refine ⟨[], Nat.zero_le _, ?_⟩
    have start : loaded.reflected loaded = [] :=
      (Moved.start loaded).reflected (@List.nil_prefix _ (Plan.moves r.development loaded sorted))
    show [] = loaded.reflected loaded ++ []
    rw [start, List.append_nil]
  | cons head seen =>
    simp only [List.cons_append, List.cons.injEq] at cut
    obtain ⟨rfl, rfl⟩ := cut
    -- Loading runs and writes nothing, so that what counts are the calls behind it.
    rw [lasting_load, written_load]
    exact (Point.of_follows follows).one_unrecorded

/-- A run fails with the error of a call, or because the last local migration is refused. -/
theorem fails_by_call_or_refusal (ordered : canonicalOrder migrations = .ok sorted)
    (opened : (r.store.load state).1 = .ok loaded) {error : MigrationError}
    (failed : r.result migrations state = .error error) :
    (∃ call cause name, ⟨call, some cause⟩ ∈ r.calls migrations state ∧
      error = call.blame name cause) ∨
    ∃ last, sorted.getLast? = some last ∧ error = .upChanged last.name := by
  obtain ⟨made, outcome, report, called, follows, ended⟩ := follows_plan ordered opened
  rw [failed] at ended
  cases outcome with
  | ok final => cases ended
  | error reason =>
    cases ended
    -- Following a plan fails for one of these two reasons, so adding a record never fails.
    rcases follows.blamed with ⟨call, cause, name, member, same⟩ | ⟨migration, planned, same⟩
    · exact .inl ⟨call, cause, name, by rw [called]; exact List.mem_cons_of_mem _ member, same⟩
    · exact .inr ⟨migration, Plan.getLast?_of_refuse planned, same⟩

end Recording

end Reconciler

end SchemaLedger
