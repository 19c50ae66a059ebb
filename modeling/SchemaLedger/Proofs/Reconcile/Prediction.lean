import SchemaLedger.Proofs.Reconcile.Standing

/-! The status of migrations predicts what a run on the same ledger does. -/

namespace SchemaLedger

/-- Without failing scripts a run removes its orphans in development, and adds what is pending. -/
theorem Moved.names_of_feasible {development : Bool} {loaded current : Ledger}
    {migrations : List Migration}
    (moved : Moved loaded (Plan.feasible [] (Plan.moves development loaded migrations)) current) :
    current.names =
      (loaded.names.filter fun name =>
        !((Plan.removed development loaded migrations).map (·.name)).contains name) ++
      (Plan.pending loaded migrations).map (·.name) := by
  rw [Plan.feasible_moves] at moved
  obtain ⟨begins, allowed⟩ := Plan.removed_begins development loaded migrations
  -- It does not matter whether what is done last has been done.
  have progress := moved.progress_of_parts begins allowed List.prefix_rfl
    (List.takeWhile_prefix _)
  have kept : (loaded.except (Plan.removed development loaded migrations)).map (·.name) =
      loaded.names.filter fun name =>
        !((Plan.removed development loaded migrations).map (·.name)).contains name := by
    rw [Ledger.except, Ledger.names, List.filter_map]
    rfl
  rw [progress.names, kept]

open Status (named)

/-- How a run bears out the lines of a status report on the ledger that it loads. -/
structure Predicts (development : Bool) (lines : List MigrationStatus) (loaded final : Ledger)
    (result : Except MigrationError Report) : Prop where
  succeeds : (∃ report, result = .ok report) ↔ development = true ∨ named [.changed] lines = []
  names : final.names =
    (loaded.names.filter fun name =>
      !(development && (named [.orphaned] lines).contains name)) ++ named [.pending] lines
  orphans : ∀ report, result = .ok report →
    (if development then report.reverted else report.orphaned) = named [.orphaned] lines
  /-- A change is replayed in development, and is what the run fails with elsewhere. -/
  changed : ∀ name, name ∈ named [.changed] lines ↔
    if development then ∃ report, result = .ok report ∧ name ∈ report.replayed
    else result = .error (.upChanged name)
  recorded : ∀ report, result = .ok report →
    report.alreadyApplied = named [.applied, .changed] lines

/-- Where no script fails a plan is carried out as the lines on the same migrations say. -/
theorem Plan.borne_out {development : Bool} {loaded final : Ledger} {migrations : List Migration}
    (moved : Moved loaded (feasible [] (moves development loaded migrations)) final) :
    Predicts development (Status.lines loaded migrations) loaded final
      (unlessFailed (hindrance? [] (moves development loaded migrations))
        (report development loaded migrations)) := by
  constructor
  case succeeds =>
    -- Only a change is in the way, and only outside development.
    rw [hindrance?_moves, Status.changed_of_lines]
    cases development <;> cases changed loaded migrations <;> simp [unlessFailed]
  case names =>
    -- Outside development no orphan is removed.
    rw [moved.names_of_feasible, Status.pending_of_lines, Status.orphans_of_lines]
    cases development <;> simp [removed]
  case orphans =>
    intro reported ended
    rw [(succeeded_of_ok ended.symm).2, report_eq, Status.orphans_of_lines]
    cases development <;> rfl
  case changed =>
    intro name
    -- A report on a replay takes development, and a refusal takes its absence.
    rw [hindrance?_moves, Status.changed_of_lines, report_eq]
    cases development <;> cases changed loaded migrations <;> simp [unlessFailed, eq_comm]
  case recorded =>
    -- The report counts as already applied what has a record, changed or not.
    intro reported ended
    rw [(succeeded_of_ok ended.symm).2, report_eq, Status.recorded_of_lines]

namespace Reconciler

variable {migrations : List Migration} {memory : Memory} {ledger : Ledger}

/--
The status of migrations fails exactly where a run does not get to its first call.

Otherwise the run does with the migrations what the status says of them, in either mode.
-/
theorem status_predicts_run (clock : Nat → Instant) (development : Bool)
    (migrations : List Migration) (present : memory.ledger = some ledger)
    (working : memory.failing = []) (closed : memory.inTransaction = false) :
    (∀ error, statusReport migrations ledger = .error error ↔
      (inMemory clock development).result migrations memory = .error error ∧
        (inMemory clock development).calls migrations memory = []) ∧
    ∀ lines, statusReport migrations ledger = .ok lines →
      ∃ final, ((inMemory clock development).left migrations memory).ledger = some final ∧
        Predicts development lines ledger final
          ((inMemory clock development).result migrations memory) := by
  cases ordered : canonicalOrder migrations with
  | error refusal =>
    -- A list that cannot be sorted is refused by both, with the same error.
    obtain ⟨ended, silent, _⟩ := unordered_run (inMemory clock development) memory ordered
    have refused : statusReport migrations ledger = .error refusal := by
      rw [statusReport, ordered]
      rfl
    rw [ended, silent, refused]
    exact ⟨fun error => by simp, fun lines impossible => by cases impossible⟩
  | ok sorted =>
    rw [Status.report_of_ordered ordered]
    refine ⟨fun error => ?_, fun lines same => ?_⟩
    · -- The first call of the run is the loading of the ledger.
      obtain ⟨made, _, called, _⟩ := follows_inMemory clock development memory ordered
      rw [called]
      simp
    · cases same
      obtain ⟨final, _, moved, left, ended⟩ :=
        run_inMemory clock development ordered closed
      -- Nothing fails and the ledger is there, so that the run gets as far as the plan allows.
      have recorded : memory.recorded = ledger := by simp [Memory.recorded, present]
      rw [working, recorded] at moved ended
      refine ⟨final, by rw [left]; rfl, ?_⟩
      rw [ended]
      exact Plan.borne_out moved

/-- A change that the status shows is what a run in production fails with. -/
theorem status_predicts_run_sample :
    let memory := Memory.withLedger Sample.drifted
    let migrations := [Sample.users, Sample.accounts]
    let lines := Status.lines Sample.drifted [Sample.accounts, Sample.users]
    memory.ledger = some Sample.drifted ∧ memory.failing = [] ∧ memory.inTransaction = false ∧
    statusReport migrations Sample.drifted = .ok lines ∧
    Status.named [.changed] lines = ["1_users"] ∧
    (inMemory (fun _ => Sample.epoch) false).result migrations memory =
      .error (.upChanged "1_users") := by
  intro memory migrations lines
  have reported : statusReport migrations Sample.drifted = .ok lines :=
    Status.report_of_ordered Sample.accounts_before_users Sample.drifted
  -- The state of each line is seen before anything is run.
  have shown : Status.named [.changed] lines = ["1_users"] := by decide
  obtain ⟨final, _, predicted⟩ := (@status_predicts_run memory Sample.drifted
    (fun _ => Sample.epoch) false migrations rfl rfl rfl).2 lines reported
  exact ⟨rfl, rfl, rfl, reported, shown, (predicted.changed "1_users").mp (by simp [shown])⟩

end Reconciler

end SchemaLedger
