import SchemaLedger.Proofs.Reconcile.Conformance
import SchemaLedger.Proofs.Reconcile.Progress
import SchemaLedger.Store.Memory

/-! The calls of a run on a store, and the place that each of them has in the plan. -/

namespace SchemaLedger.Reconciler

variable {σ : Type} (r : Reconciler σ) (migrations : List Migration) (state : σ)

/-- The calls of a run on a store in a given state, in order. -/
def calls : List CallRecord := (r.run migrations { state }).2.calls

/-- The report or error with which a run on a store in a given state ends. -/
def result : Except MigrationError Report := (r.run migrations { state }).1

/-- A run from the start of a session takes a course that the store answers. -/
theorem calls_course :
    ∃ final, r.store.Answers state (r.calls migrations state) final ∧
      Course r.development migrations (r.store.load state).1 (r.calls migrations state)
        (r.result migrations state) := by
  -- A new session has no calls yet.
  obtain ⟨made, answers, same, course⟩ := r.run_course migrations { state }
  rw [List.nil_append] at same
  exact ⟨_, by rw [calls, same]; exact answers, by rw [calls, same]; exact course⟩

variable {r migrations state} {sorted : List Migration} {loaded : Ledger}

/-- Once the ledger is loaded, a run follows the plan made from it. -/
theorem follows_plan (ordered : canonicalOrder migrations = .ok sorted)
    (opened : (r.store.load state).1 = .ok loaded) :
    ∃ made outcome report, r.calls migrations state = ⟨.load, none⟩ :: made ∧
      Follows loaded (Plan.moves r.development loaded sorted) made outcome ∧
      r.result migrations state = outcome.map fun _ => report := by
  obtain ⟨final, _, course⟩ := r.calls_course migrations state
  generalize r.calls migrations state = calls at course
  generalize r.result migrations state = result at course
  -- Two of the three courses end before the plan is made.
  cases course with
  | unordered refused => rw [ordered] at refused; cases refused
  | unloaded _ failed => rw [opened] at failed; cases failed
  | followed accepted read follows =>
    rw [ordered] at accepted
    rw [opened] at read
    -- The list that was sorted and the ledger that was loaded are the ones given.
    cases accepted
    cases read
    exact ⟨_, _, _, rfl, follows, rfl⟩

/-- Only a run that has ordered the migrations and loaded the ledger makes further calls. -/
theorem opened_of_mem {record : CallRecord} (member : record ∈ r.calls migrations state)
    (later : record.call ≠ .load) :
    ∃ sorted loaded, canonicalOrder migrations = .ok sorted ∧
      (r.store.load state).1 = .ok loaded := by
  obtain ⟨final, _, course⟩ := r.calls_course migrations state
  generalize r.calls migrations state = calls at course member
  generalize r.result migrations state = result at course
  -- Without an order nothing is called, and without a ledger only the loading.
  cases course with
  | unordered => cases member
  | unloaded =>
    rw [List.mem_singleton.mp member] at later
    exact absurd rfl later
  | followed ordered opened => exact ⟨_, _, ordered, opened⟩

/-- Every call of a run but the first has its place in the plan. -/
theorem placed (ordered : canonicalOrder migrations = .ok sorted)
    (opened : (r.store.load state).1 = .ok loaded) {before after : List CallRecord}
    {record : CallRecord} (cut : r.calls migrations state = before ++ record :: after)
    (later : record.call ≠ .load) :
    ∃ seen outcome, before = ⟨.load, none⟩ :: seen ∧
      Placed loaded (Plan.moves r.development loaded sorted) outcome seen record after ∧
      ∀ error, outcome = .error error → r.result migrations state = .error error := by
  obtain ⟨made, outcome, report, called, follows, ended⟩ := follows_plan ordered opened
  rw [called] at cut
  cases before with
  | nil =>
    simp only [List.nil_append, List.cons.injEq] at cut
    -- The very first call loads the ledger.
    exact absurd (by rw [← cut.1]) later
  | cons head seen =>
    simp only [List.cons_append, List.cons.injEq] at cut
    obtain ⟨rfl, rfl⟩ := cut
    exact ⟨seen, outcome, rfl, follows.placed, fun error failed => by rw [ended, failed]; rfl⟩

end SchemaLedger.Reconciler

namespace SchemaLedger.Sample

/-- A migration that is defined locally. -/
def users : Migration :=
  { name := "1_users", up := "create users", down := "drop users", description := "users" }

/-- A migration that is only recorded. -/
def legacy : Migration :=
  { name := "0_legacy", up := "create legacy", down := "drop legacy", description := "legacy" }

/-- A ledger with one record, which is an orphan unless its migration is defined locally. -/
def ledger : Ledger := ⟨[legacy], by decide⟩

/-- The time shown by a clock that stands still. -/
def epoch : Instant := ⟨⟨1970, 1, 1⟩, 0, 0, 0, 0, by decide⟩

/-- A reconciler of a store in memory. -/
def reconciler (development : Bool) : Reconciler Memory := ⟨Memory.store, fun _ => epoch, development⟩

/-- A migration that is defined locally, and comes first. -/
def accounts : Migration :=
  { name := "0_accounts", up := "create accounts", down := "drop accounts",
    description := "accounts" }

/-- The record of a migration whose scripts have changed since. -/
def people : Migration :=
  { name := "1_users", up := "create people", down := "drop people", description := "people" }

/-- A ledger with an orphan, and with a record that differs from the migration defined locally. -/
def drifted : Ledger := ⟨[legacy, people], by decide⟩

/-- Migrations are put in order by the numbers of their names. -/
theorem accounts_before_users : canonicalOrder [users, accounts] = .ok [accounts, users] := by
  -- The keys are computed once, so that the sort only has to compare them.
  have keyed : keyedMigrations [] [users, accounts] =
      .ok [(⟨1, "_users"⟩, users), (⟨0, "_accounts"⟩, accounts)] := by decide +kernel
  have swapped : (OrderKey.compare ⟨1, "_users"⟩ ⟨0, "_accounts"⟩).isLE = false := by decide
  simp [canonicalOrder, keyed, List.mergeSort, List.MergeSort.Internal.splitInTwo, swapped,
    Bind.bind, Except.bind, Pure.pure, Except.pure]

/-- What another writer does who empties the ledger before the second call. -/
def emptied (turn : Nat) (memory : Memory) : Memory :=
  if turn = 1 then { memory with ledger := some .empty } else memory

end SchemaLedger.Sample
