import SchemaLedger.Proofs.Migration.Ties
import SchemaLedger.Proofs.Reconcile.Standing

/-! A forbidden change is met behind the migrations that are pending, which are applied before it. -/

namespace SchemaLedger

namespace Plan

variable {failing : List String} {ledger : Ledger} {migrations missing : List Migration}
  {stored current : Migration}

/-- The migrations that come before the first one whose up script fails. -/
def working (failing : List String) (missing : List Migration) : List Migration :=
  missing.takeWhile fun migration => !failing.contains migration.up

/-- How a run ends that is refused behind some migrations, unless one of their up scripts fails. -/
def refusal (failing : List String) (missing : List Migration) (current : Migration) :
    MigrationError :=
  match missing.find? fun migration => failing.contains migration.up with
  | some broken =>
    .scriptFailed broken.name broken.up (.store (Memory.Refusal.scriptFailed broken.up).reason)
  | none => .upChanged current.name

/-- Outside development a change is refused behind what is pending, and orphans are left alone. -/
theorem moves_of_changed (final : migrations.getLast? = some current)
    (found : ledger.get? current.name = some stored) (differs : stored.up ≠ current.up) :
    moves false ledger migrations =
      (pending ledger migrations).map .append ++ [.refuse current] := by
  have drifted : last false ledger migrations = [.refuse current] := by
    simp [last, final, found, drift, differs]
  rw [moves_eq, drifted]
  -- No record is removed outside development, so there is nothing before the pending ones.
  rfl

/-- Migrations are applied up to the first one whose up script fails, and nothing else is done. -/
theorem feasible_of_refused (failing : List String) (missing : List Migration)
    (current : Migration) :
    feasible failing (missing.map .append ++ [.refuse current]) =
      (working failing missing).map .append := by
  -- The induction is on the migrations before the refusal, up to the first that is not free.
  induction missing with
  | nil => rfl
  | cons migration rest ih =>
    rw [List.map_cons, List.cons_append, working]
    cases fails : failing.contains migration.up with
    | true =>
      -- A script that fails hinders its migration, and with it all behind it.
      have hindered : (Move.append migration).hindrance? failing = some _ :=
        Memory.obstacle?_cons_of_failing fails
      rw [feasible_cons_of_hindered hindered, List.takeWhile_cons_of_neg (by simpa using fails)]
      rfl
    | false =>
      have free : (Move.append migration).hindrance? failing = none :=
        Memory.obstacle?_cons fails
      rw [feasible_cons free, List.takeWhile_cons_of_pos (by simpa using fails), ih]
      rfl

/-- What is in the way of a plan with a refusal is an up script that fails, or the refusal. -/
theorem hindrance?_of_refused (failing : List String) (missing : List Migration)
    (current : Migration) :
    hindrance? failing (missing.map .append ++ [.refuse current]) =
      some (refusal failing missing current) := by
  -- Behind the migrations that are free the refusal itself is found.
  induction missing with
  | nil => rfl
  | cons migration rest ih =>
    rw [List.map_cons, List.cons_append, refusal, List.find?_cons]
    cases fails : failing.contains migration.up with
    | true => exact hindrance?_cons_of_hindered (Memory.obstacle?_cons_of_failing fails)
    | false =>
      have free : (Move.append migration).hindrance? failing = none :=
        Memory.obstacle?_cons fails
      rw [hindrance?_cons free, ih]
      rfl

end Plan

/-- The first call for a migration that is to be applied executes its up script. -/
theorem Follows.executes_first {ledger : Ledger} {migration : Migration} {moves : List Move}
    {made : List CallRecord} {outcome : Except MigrationError Ledger}
    (follows : Follows ledger (.append migration :: moves) made outcome) :
    ∃ failure later, made = ⟨.execute migration.up, failure⟩ :: later := by
  -- Of the calls of an application the script is the first.
  -- Whether the script succeeds or fails, nothing is called before it.
  have attempted : ∀ next first failure,
      (Move.append migration).Calls ledger next first failure →
        ∃ failure later, first = ⟨.execute migration.up, failure⟩ :: later := by
    intro next first failure calls
    cases calls with
    | append attempts =>
      cases attempts with
      | next rest => exact ⟨none, _, rfl⟩
      | failed _ _ error => exact ⟨some error, _, rfl⟩
  cases follows with
  | next _ calls _ =>
    obtain ⟨failure, later, rfl⟩ := attempted _ _ _ calls
    exact ⟨failure, _, rfl⟩
  | stopped _ calls => exact attempted _ _ _ calls

namespace Reconciler

variable {migrations sorted : List Migration} {memory : Memory} {stored current : Migration}

/-- A run in production that meets a change calls nothing before it exactly if nothing is pending. -/
theorem silent_of_changed (clock : Nat → Instant)
    (ordered : canonicalOrder migrations = .ok sorted) (final : sorted.getLast? = some current)
    (found : memory.recorded.get? current.name = some stored)
    (differs : stored.up ≠ current.up) :
    (inMemory clock false).calls migrations memory = [⟨.load, none⟩] ↔
      Plan.pending memory.recorded sorted = [] := by
  obtain ⟨made, outcome, called, follows, -, -⟩ := follows_inMemory clock false memory ordered
  rw [Plan.moves_of_changed final found differs] at follows
  rw [called, List.cons.injEq, and_iff_right rfl]
  cases pending : Plan.pending memory.recorded sorted with
  | nil =>
    rw [pending, List.map_nil, List.nil_append] at follows
    refine ⟨fun _ => rfl, fun _ => ?_⟩
    -- The refusal is the only move, and it writes nothing.
    cases follows with
    | next writes | stopped writes => cases writes
    | refused => rfl
  | cons migration rest =>
    -- The first pending migration is called for before the refusal is reached.
    rw [pending, List.map_cons, List.cons_append] at follows
    obtain ⟨failure, later, rfl⟩ := follows.executes_first
    simp

/--
A run in production ends in an error where the last local migration has changed.

Before that it applies what is pending, up to the first migration whose up script fails.
So the change is met before anything is done exactly if nothing is pending.
-/
theorem change_refused_behind_pending (clock : Nat → Instant)
    (ordered : canonicalOrder migrations = .ok sorted) (closed : memory.inTransaction = false)
    (final : sorted.getLast? = some current)
    (found : memory.recorded.get? current.name = some stored)
    (differs : stored.up ≠ current.up) :
    let production := inMemory clock false
    let pending := Plan.pending memory.recorded sorted
    let applied := Plan.working memory.failing pending
    production.result migrations memory = .error (Plan.refusal memory.failing pending current) ∧
    (production.left migrations memory).executed = memory.executed ++ applied.map (·.up) ∧
    (production.left migrations memory).writes = memory.writes + applied.length ∧
    (∃ reached new, (production.left migrations memory).ledger = some reached ∧
      reached.records = memory.recorded.records ++ new ∧ List.Forall₂ Applied applied new) ∧
    (production.result migrations memory = .error (.upChanged current.name) ∧
      production.calls migrations memory = [⟨.load, none⟩] ↔ pending = []) := by
  intro production pending applied
  -- The run makes the moves of its plan that are free, and ends with what stops it.
  obtain ⟨reached, noted, moved, left, ended⟩ := run_inMemory clock false ordered closed
  rw [Plan.moves_of_changed final found differs, Plan.feasible_of_refused] at moved left
  rw [Plan.moves_of_changed final found differs, Plan.hindrance?_of_refused] at ended
  -- Each of these moves runs one script and writes the ledger once.
  have ran : (applied.map Move.append).flatMap (Move.runs memory.failing) = applied.map (·.up) := by
    rw [List.flatMap_map, List.map_eq_flatMap]
    rfl
  obtain ⟨new, records, stamps⟩ := moved.records_of_appends
  refine ⟨ended, ?_, ?_, ⟨reached, new, ?_, records, stamps⟩, ?_⟩
  · rw [show production.left migrations memory = _ from left, ← ran]
    rfl
  · rw [show production.left migrations memory = _ from left, ← List.length_map Move.append]
    rfl
  · rw [show production.left migrations memory = _ from left]
    rfl
  · have silent : production.calls migrations memory = [⟨.load, none⟩] ↔ pending = [] :=
      silent_of_changed clock ordered final found differs
    rw [silent, and_iff_right_iff_imp]
    -- Without pending migrations no script can fail before the refusal.
    intro none
    rw [show production.result migrations memory = _ from ended, show Plan.pending _ _ = [] from none]
    rfl

/-- A changed migration is refused at once where all others are recorded. -/
theorem change_refused_behind_pending_sample :
    let memory := Memory.withLedger Sample.drifted
    let production := inMemory (fun _ => Sample.epoch) false
    memory.inTransaction = false ∧
    canonicalOrder [Sample.users] = .ok [Sample.users] ∧
    [Sample.users].getLast? = some Sample.users ∧
    memory.recorded.get? "1_users" = some Sample.people ∧
    Sample.people.up ≠ Sample.users.up ∧
    production.result [Sample.users] memory = .error (.upChanged "1_users") ∧
    production.calls [Sample.users] memory = [⟨.load, none⟩] := by
  intro memory production
  have ordered : canonicalOrder [Sample.users] = .ok [Sample.users] :=
    canonicalOrder_of_tied ⟨1, "_users"⟩ (by decide) (by decide +kernel)
  have found : memory.recorded.get? "1_users" = some Sample.people := by decide
  have differs : Sample.people.up ≠ Sample.users.up := by decide
  -- The changed migration stands alone, so that nothing is pending before it.
  obtain ⟨-, -, -, -, refused⟩ := change_refused_behind_pending (fun _ => Sample.epoch) ordered
    (show memory.inTransaction = false from rfl) rfl found differs
  obtain ⟨ended, silent⟩ := refused.mpr (by decide)
  exact ⟨rfl, ordered, rfl, found, differs, ended, silent⟩

/-- A pending migration is applied and recorded before the change behind it ends the run. -/
theorem pending_applied_before_refusal :
    let memory := Memory.withLedger Sample.drifted
    let production := inMemory (fun _ => Sample.epoch) false
    canonicalOrder [Sample.users, Sample.accounts] = .ok [Sample.accounts, Sample.users] ∧
    memory.inTransaction = false ∧
    memory.recorded.get? "1_users" = some Sample.people ∧
    Sample.people.up ≠ Sample.users.up ∧
    production.result [Sample.users, Sample.accounts] memory = .error (.upChanged "1_users") ∧
    (production.left [Sample.users, Sample.accounts] memory).executed = ["create accounts"] ∧
    (production.left [Sample.users, Sample.accounts] memory).writes = 1 := by
  intro memory production
  have closed : memory.inTransaction = false := rfl
  have recorded : memory.recorded = Sample.drifted := rfl
  have working : memory.failing = [] := rfl
  -- What is feasible in production is the pending one, the changed one behind it is refused.
  have feasible : Plan.feasible [] (Plan.moves false Sample.drifted
      [Sample.accounts, Sample.users]) = [.append Sample.accounts] := rfl
  obtain ⟨_, _, _, left, ended⟩ := run_inMemory (fun _ => Sample.epoch) false
    Sample.accounts_before_users closed
  rw [recorded, working, feasible] at left
  refine ⟨Sample.accounts_before_users, closed, by decide, by decide, ?_, ?_, ?_⟩
  · rw [show production.result [Sample.users, Sample.accounts] memory = _ from ended]
    decide +kernel
  · rw [show production.left [Sample.users, Sample.accounts] memory = _ from left]
    rfl
  · rw [show production.left [Sample.users, Sample.accounts] memory = _ from left]
    rfl

end Reconciler

end SchemaLedger
