import Mathlib.Algebra.GroupWithZero.Nat
import SchemaLedger.Proofs.Reconcile.Standing
import SchemaLedger.Proofs.Reconcile.Telling

/-! A run tells in batches how many migrations it has found, so that none of them is left untold. -/

namespace SchemaLedger

/-- Nothing more is told, or next of all that a migration is run. -/
def EndsOrRuns (events : List Event) : Prop :=
  events = [] ∨ ∃ name description rest, events = .migrationRunning name description :: rest

/-- How many migrations were found in a row is told if there were any. -/
def batch (found : Nat) : List Event := if 0 < found then [.alreadyRun found] else []

/--
What is told while migrations are gone through, where some in a row were found before.

Those found since the last count are always counted before a migration is run, and at the end.
-/
inductive Narrates (loaded : Ledger) : Nat → List Migration → List Event → Prop where
  | finished : Narrates loaded 0 [] []
  | aside {found : Nat} {migrations : List Migration} {event : Event} {later : List Event}
      (aside : event.isAside = true) (rest : Narrates loaded found migrations later) :
      Narrates loaded found migrations (event :: later)
  /-- A migration with a record is found, which is not told at once. -/
  | found {found : Nat} {migration : Migration} {migrations : List Migration} {later : List Event}
      (recorded : loaded.contains migration.name = true)
      (rest : Narrates loaded (found + 1) migrations later) :
      Narrates loaded found (migration :: migrations) later
  /-- A migration without a record is run when nothing found is left to be counted. -/
  | running {migration : Migration} {migrations : List Migration} {later : List Event}
      (pending : loaded.contains migration.name = false)
      (rest : Narrates loaded 0 migrations later) :
      Narrates loaded 0 (migration :: migrations)
        (.migrationRunning migration.name migration.description :: later)
  /-- All that were found are counted at once, right before a migration is run or at the end. -/
  | batch (found : Nat) {migrations : List Migration} {later : List Event}
      (next : EndsOrRuns later) (rest : Narrates loaded 0 migrations later) :
      Narrates loaded (found + 1) migrations (.alreadyRun (found + 1) :: later)

namespace Plan

variable {ledger : Ledger} {migration : Migration} {rest : List Migration}

/-- A migration with a record is one of those recorded. -/
theorem recorded_cons_found (found : ledger.contains migration.name = true) :
    recorded ledger (migration :: rest) = migration :: recorded ledger rest :=
  -- The first migration passes the filter.
  List.filter_cons_of_pos found

/-- A migration without a record is none of those recorded. -/
theorem recorded_cons_pending (free : ledger.contains migration.name = false) :
    recorded ledger (migration :: rest) = recorded ledger rest :=
  -- The first migration does not pass the filter.
  List.filter_cons_of_neg (by simp [free])

end Plan

namespace Narrates

variable {loaded : Ledger} {found : Nat} {migrations : List Migration}
  {told later before after : List Event}

/-- Asides may come before anything else is told. -/
theorem asides {events : List Event} (asides : ∀ event ∈ events, event.isAside = true)
    (narrates : Narrates loaded found migrations later) :
    Narrates loaded found migrations (events ++ later) := by
  -- By induction on the asides, which the narrative skips one at a time.
  induction events with
  | nil => exact narrates
  | cons event rest ih =>
    have both := List.forall_mem_cons.mp asides
    exact .aside both.1 (ih both.2)

/-- What was found before is counted in front of what is told of the migrations to come. -/
theorem behind_batch (narrates : Narrates loaded 0 migrations later) (next : EndsOrRuns later) :
    Narrates loaded found migrations (SchemaLedger.batch found ++ later) := by
  -- A batch of none is not told, so that nothing stands before the rest.
  cases found with
  | zero => exact narrates
  | succ found => exact .batch found next narrates

/-- The counts told come to the migrations found before and those found on the way. -/
theorem sum_counts (narrates : Narrates loaded found migrations told) :
    (counts told).sum = found + (Plan.recorded loaded migrations).length := by
  -- The induction is on what is told, and a batch takes over all that was found before it.
  induction narrates with
  | finished => rfl
  | aside aside rest ih => rw [counts_aside aside, ih]
  | found recorded rest ih =>
    rw [ih, Plan.recorded_cons_found recorded, List.length_cons]
    omega
  | running pending rest ih => rw [counts_running, Plan.recorded_cons_pending pending, ih]
  | batch found next rest ih => rw [counts_alreadyRun, List.sum_cons, ih, Nat.zero_add]

/-- The migrations run are those without a record, in order. -/
theorem started_eq (narrates : Narrates loaded found migrations told) :
    started told = (Plan.pending loaded migrations).map (·.name) := by
  -- By induction on the narrative: only a running event starts a migration.
  induction narrates with
  | finished => rfl
  | aside aside rest ih => rw [started_aside aside, ih]
  | found recorded rest ih => simp [ih, Plan.pending, recorded]
  | running pending rest ih => simp [ih, Plan.pending, pending]
  | batch found next rest ih => rw [started_alreadyRun, ih]

/-- A count that is told is positive, and a migration is run right behind it if anything follows. -/
theorem batched {count : Nat} (narrates : Narrates loaded found migrations told)
    (cut : told = before ++ .alreadyRun count :: after) : 0 < count ∧ EndsOrRuns after := by
  -- Nothing is told of a recorded migration by itself.
  -- The count at hand is the first event told, or one of those behind it.
  induction narrates generalizing before with
  | finished => simp at cut
  | aside aside rest ih =>
    rcases List.cons_eq_append_iff.mp cut with ⟨rfl, same⟩ | ⟨inner, rfl, same⟩
    · cases same
      cases aside
    · exact ih same
  | found recorded rest ih => exact ih cut
  | running pending rest ih =>
    rcases List.cons_eq_append_iff.mp cut with ⟨rfl, same⟩ | ⟨inner, rfl, same⟩
    · cases same
    · exact ih same
  | batch found next rest ih =>
    rcases List.cons_eq_append_iff.mp cut with ⟨rfl, same⟩ | ⟨inner, rfl, same⟩
    · cases same
      exact ⟨Nat.succ_pos found, next⟩
    · exact ih same

/-- When a migration is run, all migrations found before it have been counted. -/
theorem counted_before {name description : String}
    (narrates : Narrates loaded found migrations told)
    (cut : told = before ++ .migrationRunning name description :: after) :
    ∃ earlier migration others, migrations = earlier ++ migration :: others ∧
      migration.name = name ∧ migration.description = description ∧
      (counts before).sum = found + (Plan.recorded loaded earlier).length := by
  -- The induction takes up one event or one migration found, and both sides grow with it alike.
  induction narrates generalizing before with
  | finished => simp at cut
  | aside aside rest ih =>
    rcases List.cons_eq_append_iff.mp cut with ⟨rfl, same⟩ | ⟨inner, rfl, same⟩
    · cases same
      cases aside
    · obtain ⟨earlier, migration, others, split, named, described, sum⟩ := ih same
      refine ⟨earlier, migration, others, split, named, described, ?_⟩
      rw [counts_aside aside, sum]
  | @found _ first _ _ recorded rest ih =>
    obtain ⟨earlier, migration, others, rfl, named, described, sum⟩ := ih cut
    refine ⟨first :: earlier, migration, others, rfl, named, described, ?_⟩
    rw [sum, Plan.recorded_cons_found recorded, List.length_cons]
    omega
  | @running first migrations _ pending rest ih =>
    rcases List.cons_eq_append_iff.mp cut with ⟨rfl, same⟩ | ⟨inner, rfl, same⟩
    · -- Nothing was found before, and nothing has been counted.
      cases same
      exact ⟨[], first, migrations, rfl, rfl, rfl, rfl⟩
    · obtain ⟨earlier, migration, others, rfl, named, described, sum⟩ := ih same
      refine ⟨first :: earlier, migration, others, rfl, named, described, ?_⟩
      rw [counts_running, Plan.recorded_cons_pending pending, sum]
  | batch found next rest ih =>
    rcases List.cons_eq_append_iff.mp cut with ⟨rfl, same⟩ | ⟨inner, rfl, same⟩
    · cases same
    · obtain ⟨earlier, migration, others, split, named, described, sum⟩ := ih same
      refine ⟨earlier, migration, others, split, named, described, ?_⟩
      -- The batch has taken over what was found before it.
      rw [counts_alreadyRun, List.sum_cons, sum, Nat.zero_add]

end Narrates

/-- How the events of a run that succeeds tell which local migrations it has found and run. -/
structure ToldInBatches (loaded : Ledger) (migrations : List Migration) (report : Report)
    (events : List Event) : Prop where
  positive : ∀ count, .alreadyRun count ∈ events → 0 < count
  /-- No migration found is left out of the counts, and none is counted twice. -/
  total : (counts events).sum = report.alreadyApplied.length
  next : ∀ before count after, events = before ++ .alreadyRun count :: after → EndsOrRuns after
  applied : started events = report.applied
  /-- What is counted before a migration is run are the recorded migrations in front of it. -/
  counted : ∀ before name description after,
    events = before ++ .migrationRunning name description :: after →
    ∃ earlier migration later, migrations = earlier ++ migration :: later ∧
      migration.name = name ∧ migration.description = description ∧
      (counts before).sum = (Plan.recorded loaded earlier).length

namespace Sample

/-- A migration that is defined locally, and comes between two others. -/
def posts : Migration :=
  { name := "0_posts", up := "create posts", down := "drop posts", description := "posts" }

/-- Migrations of one number are put in order by the rest of their names. -/
theorem posts_between : canonicalOrder [users, posts, legacy] = .ok [legacy, posts, users] := by
  -- The keys are computed once, so that the sort only has to compare them.
  have keyed : keyedMigrations [] [users, posts, legacy] =
      .ok [(⟨1, "_users"⟩, users), (⟨0, "_posts"⟩, posts), (⟨0, "_legacy"⟩, legacy)] := by
    decide +kernel
  have first : (OrderKey.compare ⟨1, "_users"⟩ ⟨0, "_posts"⟩).isLE = false := by decide
  have second : (OrderKey.compare ⟨0, "_posts"⟩ ⟨0, "_legacy"⟩).isLE = false := by decide +kernel
  simp [canonicalOrder, keyed, List.mergeSort, List.MergeSort.Internal.splitInTwo, first, second,
    Bind.bind, Except.bind, Pure.pure, Except.pure]

end Sample

namespace Reconciler

open Run (Tells Concludes concludes_pure tells_pure tells_report)

variable {σ : Type} {r : Reconciler σ} {loaded : Ledger}

/-- The events of a run on a store in a given state, in order. -/
def events (r : Reconciler σ) (migrations : List Migration) (state : σ) : List Event :=
  (r.run migrations { state }).2.events

/-- How many migrations were found in a row is all that is told of them. -/
theorem tells_reportAlreadyRun (found : Nat) :
    Tells (reportAlreadyRun found : Run σ Unit) fun told _ => told = batch found := by
  -- A batch is reported exactly if it is not empty.
  unfold reportAlreadyRun batch
  split
  · exact (tells_report _).mono fun _ _ holds => holds.1
  · exact tells_pure rfl

/-- Local migrations are gone through as the events tell it. -/
theorem narrates_advance (discreet : r.store.Discreet) (migrations : List Migration)
    (ledger : Ledger) (report : Report) (found : Nat)
    (distinct : (migrations.map (·.name)).Nodup)
    (agree : ∀ migration ∈ migrations, ledger.get? migration.name = loaded.get? migration.name) :
    Concludes (r.advance ledger report found migrations) fun told _ =>
      Narrates loaded found migrations told := by
  -- The induction is on the migrations still to come, whose records are those that were loaded.
  induction migrations generalizing ledger report found with
  | nil =>
    unfold Reconciler.advance
    refine (tells_reportAlreadyRun found).thenConcludes fun told _ same => concludes_pure ?_
    rw [same]
    exact Narrates.finished.behind_batch (.inl rfl)
  | cons migration rest ih =>
    simp only [List.map_cons, List.nodup_cons] at distinct
    have same := agree migration List.mem_cons_self
    have others := fun other member => agree other (List.mem_cons_of_mem _ member)
    unfold Reconciler.advance
    cases known : ledger.get? migration.name with
    | none =>
      -- What was found so far is counted, and then the migration is run.
      have free := Ledger.contains_eq_false_iff.mpr known
      have pending := Ledger.contains_eq_false_iff.mpr (same.symm.trans known)
      refine (tells_reportAlreadyRun found).thenConcludes fun told _ counted => ?_
      rw [counted]
      refine ((tells_apply discreet ledger report migration).withCalls
        (r.makes_apply report free)).thenConcludes fun running applied holds => ?_
      obtain ⟨⟨asides, rfl, quiet⟩, made, next, failure, writes, _, ended⟩ := holds
      obtain ⟨rfl, rfl⟩ := succeeded_of_ok ended
      -- The new record has another name than the migrations to come.
      have still : ∀ other ∈ rest, next.get? other.name = loaded.get? other.name := by
        intro other member
        refine (writes.get?_other fun taken => distinct.1 ?_).trans (others other member)
        exact List.mem_map.mpr ⟨other, member, taken⟩
      refine (ih next _ 0 distinct.2 still).mono fun later _ narrates => ?_
      exact (Narrates.running pending (narrates.asides quiet)).behind_batch (.inr ⟨_, _, _, rfl⟩)
    | some stored =>
      have recorded : loaded.contains migration.name = true := by
        simp [Ledger.contains, ← same, known]
      by_cases final : rest.isEmpty = true
      · -- No migration follows, so it does not matter how the ledger changes.
        obtain rfl := List.isEmpty_iff.mp final
        simp only [if_pos final]
        refine Tells.thenConcludes (quiet_settleLast discreet ledger report stored migration)
          fun asides settled quiet => ?_
        refine (ih settled.1 _ (found + 1) distinct.2 (List.forall_mem_nil _)).mono
          fun later _ narrates => ?_
        exact .asides quiet (.found recorded narrates)
      · -- An older migration is found without anything being told.
        simp only [if_neg final]
        rw [pure_bind]
        refine (ih ledger _ (found + 1) distinct.2 others).mono fun later _ narrates => ?_
        exact .found recorded narrates

/-- Orphans are settled quietly before local migrations are told of. -/
theorem narrates_afterLoad (discreet : r.store.Discreet) {migrations sorted : List Migration}
    (ordered : canonicalOrder migrations = .ok sorted) (loaded : Ledger) :
    Concludes (r.afterLoad sorted loaded) fun told _ => Narrates loaded 0 sorted told := by
  refine Tells.thenConcludes
    (Tells.withCalls (quiet_settleOrphans discreet (Status.orphans loaded sorted) loaded {})
      (r.makes_settleOrphans _ loaded {})) fun asides settled holds => ?_
  obtain ⟨quiet, made, outcome, follows, ended⟩ := holds
  cases outcome with
  | error error => cases ended
  | ok next =>
    cases ended
    -- No local migration has lost its record to an orphan.
    refine (narrates_advance discreet sorted next _ 0 (canonicalOrder_ok ordered).2
      follows.moved.get?_defined).mono fun later _ narrates => ?_
    exact narrates.asides quiet

variable {migrations sorted : List Migration} {state : σ} {report : Report}

/-- A run that succeeds has ordered the migrations and loaded the ledger that it reports on. -/
theorem planned_of_succeeded (succeeded : r.result migrations state = .ok report) :
    ∃ sorted loaded, canonicalOrder migrations = .ok sorted ∧
      (r.store.load state).1 = .ok loaded ∧ report = Plan.report r.development loaded sorted := by
  obtain ⟨final, _, course⟩ := r.calls_course migrations state
  generalize r.calls migrations state = calls at course
  generalize r.result migrations state = result at course succeeded
  -- Two of the three courses end with an error.
  cases course with
  | unordered refused => cases succeeded
  | unloaded ordered failed => cases succeeded
  | @followed sorted loaded made outcome ordered opened follows =>
    -- The plan has been followed to its end, which is what the report is about.
    refine ⟨sorted, loaded, ordered, opened, ?_⟩
    cases outcome with
    | error error => cases succeeded
    | ok reached =>
      cases succeeded
      rfl

/-- The events of a run that succeeds tell which local migrations the loaded ledger has recorded. -/
theorem narrates_events (discreet : r.store.Discreet)
    (ordered : canonicalOrder migrations = .ok sorted)
    (opened : (r.store.load state).1 = .ok loaded)
    (succeeded : r.result migrations state = .ok report) :
    Narrates loaded 0 sorted (r.events migrations state) := by
  have unfolded := r.run_of_opened ordered { state } opened
  obtain ⟨told, events, narrates⟩ :=
    narrates_afterLoad discreet ordered loaded (Run.load r.store { state }).2
  rw [result, unfolded] at succeeded
  rw [Reconciler.events, unfolded, events]
  -- What the store tells about the loading comes first.
  exact (narrates report succeeded).asides (discreet .load)

/--
A run that succeeds tells in batches how many local migrations it has found in the ledger.

The batches come to all of them, and each is told right before a migration is run or at the end.
Before a migration is run, the batches come to the migrations found in front of it.
-/
theorem found_told_in_batches (discreet : r.store.Discreet)
    (succeeded : r.result migrations state = .ok report) :
    ∃ sorted loaded, canonicalOrder migrations = .ok sorted ∧
      (r.store.load state).1 = .ok loaded ∧
      ToldInBatches loaded sorted report (r.events migrations state) := by
  -- All parts are read off the narrative that the events of a run make up.
  obtain ⟨sorted, loaded, ordered, opened, rfl⟩ := planned_of_succeeded succeeded
  have narrates := narrates_events discreet ordered opened succeeded
  refine ⟨sorted, loaded, ordered, opened, ?_⟩
  exact {
    positive := fun count member => by
      obtain ⟨before, after, cut⟩ := List.append_of_mem member
      exact (narrates.batched cut).1
    total := by
      rw [narrates.sum_counts, Plan.report_eq, Nat.zero_add, List.length_map]
    next := fun before count after cut => (narrates.batched cut).2
    applied := by
      rw [narrates.started_eq, Plan.report_eq]
    counted := fun before name description after cut => by
      obtain ⟨earlier, migration, later, split, named, described, sum⟩ :=
        narrates.counted_before cut
      -- The count goes on from none, so that a prefix tells as many as it has found.
      rw [Nat.zero_add] at sum
      exact ⟨earlier, migration, later, split, named, described, sum⟩ }

/-- One migration is applied between two that are recorded, the last of which is replayed. -/
theorem found_told_in_batches_sample :
    let memory := { Memory.withLedger Sample.drifted with failing := ["drop people"] }
    let reconciler := inMemory (fun _ => Sample.epoch) true
    let migrations := [Sample.users, Sample.posts, Sample.legacy]
    reconciler.store.Discreet ∧
    reconciler.result migrations memory =
      .ok {
        alreadyApplied := ["0_legacy", "1_users"]
        applied := ["0_posts"]
        replayed := ["1_users"] } ∧
    (counts (reconciler.events migrations memory)).sum = 2 ∧
    started (reconciler.events migrations memory) = ["0_posts"] := by
  intro memory reconciler migrations
  have closed : memory.inTransaction = false := rfl
  -- Two batches of one, as a pending migration stands between the recorded ones.
  have succeeded : reconciler.result migrations memory =
      .ok {
        alreadyApplied := ["0_legacy", "1_users"]
        applied := ["0_posts"]
        replayed := ["1_users"] } := by
    obtain ⟨_, _, _, _, ended⟩ := run_inMemory (fun _ => Sample.epoch) true
      Sample.posts_between closed
    rw [show reconciler.result migrations memory = _ from ended]
    decide +kernel
  obtain ⟨_, _, _, _, told⟩ := found_told_in_batches Memory.store_discreet succeeded
  exact ⟨Memory.store_discreet, succeeded, told.total, told.applied⟩

end Reconciler

end SchemaLedger
