import Mathlib.Data.List.Nodup
import SchemaLedger.Proofs.Reconcile.Course

/-! What is left to do after some moves of a plan is what the new ledger asks for. -/

namespace SchemaLedger

/-- The names of orphans are known from the names in the ledger. -/
theorem Status.names_of_orphans (ledger : Ledger) (migrations : List Migration) :
    (Status.orphans ledger migrations).map (·.name) =
      ledger.names.filter fun name => !(migrations.map (·.name)).contains name := by
  -- Names and records are filtered by the same question.
  rw [Status.orphans, Ledger.names, List.filter_map]
  rfl

namespace Plan

variable {development : Bool} {ledger other next : Ledger} {migrations : List Migration}
  {move : Move} {rest : List Move}

/-- What is pending is known from the names in the ledger. -/
theorem pending_congr (same : other.names = ledger.names) (migrations : List Migration) :
    pending other migrations = pending ledger migrations := by
  -- Whether a migration is pending is a question about names.
  simp only [pending, Ledger.contains_congr same]

/-- A ledger with the names of another one has orphans to be reverted if that one has. -/
theorem reverts_eq_nil_congr (same : other.names = ledger.names)
    (none : reverts development (Status.orphans ledger migrations) = []) :
    reverts development (Status.orphans other migrations) = [] := by
  unfold reverts at none ⊢
  split
  · rename_i allowed
    rw [if_pos allowed, List.map_eq_nil_iff] at none
    -- The orphans of both ledgers have the same names, so there are none in either.
    have names := Status.names_of_orphans other migrations
    rw [same, ← Status.names_of_orphans, none, List.map_nil, List.map_eq_nil_iff] at names
    rw [names, List.map_nil]
  · rfl

/-- The first move of a plan reverts an orphan, applies a migration or treats the last one. -/
theorem moves_eq_cons (planned : moves development ledger migrations = move :: rest) :
    (development = true ∧ ∃ orphan strays, Status.orphans ledger migrations = orphan :: strays ∧
      move = .revert orphan ∧ rest = strays.map .revert ++ locals development ledger migrations) ∨
    (reverts development (Status.orphans ledger migrations) = [] ∧
      ∃ migration missing, pending ledger migrations = migration :: missing ∧
      move = .append migration ∧ rest = missing.map .append ++ last development ledger migrations) ∨
    (reverts development (Status.orphans ledger migrations) = [] ∧ pending ledger migrations = [] ∧
      last development ledger migrations = move :: rest) := by
  by_cases none : reverts development (Status.orphans ledger migrations) = []
  · -- Without reverts the first move is the first application, if there is one.
    rw [moves, none, List.nil_append, locals] at planned
    cases missing : pending ledger migrations with
    | nil =>
      rw [missing] at planned
      exact .inr (.inr ⟨none, rfl, planned⟩)
    | cons migration others =>
      rw [missing, List.map_cons, List.cons_append, List.cons.injEq] at planned
      exact .inr (.inl ⟨none, migration, others, rfl, planned.1.symm, planned.2.symm⟩)
  · -- Something can only be reverted in development, and only if there is an orphan.
    unfold reverts at none
    split at none
    · rename_i allowed
      cases stray : Status.orphans ledger migrations with
      | nil => simp [stray] at none
      | cons orphan others =>
        rw [moves, reverts, if_pos allowed, stray, List.map_cons, List.cons_append,
          List.cons.injEq] at planned
        exact .inl ⟨allowed, orphan, others, rfl, planned.1.symm, planned.2.symm⟩
    · exact absurd rfl none

/-- Of migrations with distinct names the others are left when the first one is taken out. -/
theorem filter_others {first : Migration} {others : List Migration}
    (distinct : ((first :: others).map (·.name)).Nodup) :
    (first :: others).filter (·.name != first.name) = others := by
  simp only [List.map_cons, List.nodup_cons] at distinct
  rw [List.filter_cons_of_neg (by simp)]
  -- None of the others has the name of the first one.
  refine List.filter_eq_self.mpr fun other member => ?_
  have differs : other.name ≠ first.name := fun same =>
    distinct.1 (same ▸ List.mem_map.mpr ⟨other, member, rfl⟩)
  simpa using differs

/-- Removing an orphan leaves the other orphans. -/
theorem orphans_remove {orphan : Migration} {strays : List Migration}
    (stray : Status.orphans ledger migrations = orphan :: strays) :
    Status.orphans (ledger.remove orphan.name) migrations = strays := by
  have distinct : ((orphan :: strays).map (·.name)).Nodup := by
    rw [← stray]
    exact ledger.distinct.sublist (List.filter_sublist.map _)
  -- It does not matter whether the record is removed before or after orphans are looked for.
  rw [Status.orphans, Ledger.remove, List.filter_filter]
  simp only [Bool.and_comm]
  rw [← List.filter_filter, ← Status.orphans, stray]
  exact filter_others distinct

/-- Adding the record of a local migration adds no orphan. -/
theorem orphans_push {record : Migration} (pushed : ledger.push record = .ok next)
    (known : record.name ∈ migrations.map (·.name)) :
    Status.orphans next migrations = Status.orphans ledger migrations := by
  -- The record comes last, and is not an orphan.
  rw [Status.orphans, (Ledger.push_ok pushed).2, List.filter_append, ← Status.orphans]
  simpa using known

/-- Recording what is pending leaves the others pending. -/
theorem pending_push {migration record : Migration} {missing : List Migration}
    (distinct : (migrations.map (·.name)).Nodup) (pushed : ledger.push record = .ok next)
    (same : record.name = migration.name)
    (planned : pending ledger migrations = migration :: missing) :
    pending next migrations = missing := by
  have names : ((migration :: missing).map (·.name)).Nodup := by
    rw [← planned]
    exact distinct.sublist (List.filter_sublist.map _)
  -- A migration is still pending if it was before and is not the one recorded.
  have split : pending next migrations =
      (pending ledger migrations).filter (·.name != migration.name) := by
    simp only [pending, List.filter_filter, Ledger.contains_push pushed, same, Bool.not_or,
      Bool.and_comm]
    rfl
  rw [split, planned]
  exact filter_others names

/-- A record that agrees with its migration in all texts needs no comparison. -/
theorem drift_recorded (migration : Migration) (time : Option Instant) :
    drift development { migration with appliedAt := time } migration = [] := by
  -- The record differs from its migration in the time alone, which is not compared.
  simp [drift, Migration.descriptorDiffers]

/-- Recording what is pending leaves the comparison of the last migration as it was. -/
theorem last_push {migration : Migration} {time : Instant}
    (distinct : (migrations.map (·.name)).Nodup) (defined : migration ∈ migrations)
    (pushed : ledger.push (migration.stamped time) = .ok next) :
    last development next migrations = last development ledger migrations := by
  unfold last
  cases final : migrations.getLast? with
  | none => rfl
  | some current =>
    by_cases same : current.name = migration.name
    · -- A migration that is recorded now was not compared before, and needs no comparison now.
      have identical := List.inj_on_of_nodup_map distinct (List.mem_of_getLast? final) defined same
      subst identical
      have absent := Ledger.contains_eq_false_iff.mp (Ledger.push_ok pushed).1
      have found := Ledger.get?_push_self pushed
      simp only [Migration.stamped] at absent found
      simp only [absent, found, drift_recorded]
    · -- Any other migration is compared with the record that it had before.
      simp only [Ledger.get?_push pushed same]

/-- Nothing is left to do once the record of the last migration has been brought up to date. -/
theorem moves_replace {current stored : Migration} (time : Option Instant)
    (none : reverts development (Status.orphans ledger migrations) = [])
    (complete : pending ledger migrations = []) (final : migrations.getLast? = some current)
    (found : ledger.get? current.name = some stored) :
    moves development (ledger.replace { current with appliedAt := time }) migrations = [] := by
  have names := Ledger.names_replace ledger { current with appliedAt := time }
  have contained : ledger.contains current.name = true := by simp [Ledger.contains, found]
  have renewed : (ledger.replace { current with appliedAt := time }).get? current.name =
      some { current with appliedAt := time } :=
    Ledger.get?_replace_self contained
  -- The names are the same as before, so all that could be left is the last migration.
  rw [moves, reverts_eq_nil_congr names none, locals, pending_congr names, complete]
  simp only [last, final, renewed, drift_recorded, List.map_nil, List.append_nil]

end Plan

/-- Behind the first move of a plan the new ledger asks for the others. -/
theorem Move.Writes.remainder {development : Bool} {ledger next : Ledger}
    {migrations : List Migration} {move : Move} {rest : List Move}
    (writes : move.Writes ledger next)
    (planned : Plan.moves development ledger migrations = move :: rest)
    (distinct : (migrations.map (·.name)).Nodup) :
    Plan.moves development next migrations = rest := by
  rcases Plan.moves_eq_cons planned with ⟨allowed, orphan, strays, stray, rfl, rfl⟩ |
    ⟨none, migration, missing, lacking, rfl, rfl⟩ | ⟨none, complete, single⟩
  · -- Orphans have other names than local migrations, which are looked up as before.
    cases writes
    have agree : ∀ migration ∈ migrations,
        (ledger.remove orphan.name).get? migration.name = ledger.get? migration.name := by
      intro migration member
      refine Ledger.get?_remove fun same => ?_
      have foreign := (Status.mem_orphans.mp (stray ▸ List.mem_cons_self)).2
      exact foreign (List.mem_map.mpr ⟨migration, member, same⟩)
    rw [Plan.moves, Plan.orphans_remove stray, Plan.locals_congr agree, Plan.reverts,
      if_pos allowed]
  · -- The record that is added makes no orphan, and takes one migration from those pending.
    cases writes with
    | @append _ time _ pushed =>
      have same : (migration.stamped time).name = migration.name := rfl
      have defined : migration ∈ migrations :=
        (Plan.mem_pending.mp (lacking ▸ List.mem_cons_self)).1
      have known : migration.name ∈ migrations.map (·.name) :=
        List.mem_map.mpr ⟨migration, defined, rfl⟩
      rw [Plan.moves, Plan.orphans_push pushed known, none, List.nil_append, Plan.locals,
        Plan.pending_push distinct pushed same lacking, Plan.last_push distinct defined pushed]
  · -- Behind the last migration nothing is left.
    rcases Plan.last_cases development ledger migrations with nothing | ⟨current, stored, final,
      found, ⟨_, _, one⟩ | ⟨_, _, one⟩ | ⟨_, _, one⟩⟩
    · rw [nothing] at single
      cases single
    all_goals
      rw [one] at single
      cases single
      cases writes
    · exact Plan.moves_replace _ none complete final found
    · exact Plan.moves_replace _ none complete final found

/-- Behind moves at the beginning of a plan the ledger reached asks for the others. -/
theorem Moved.remainder {development : Bool} {loaded current : Ledger} {migrations : List Migration}
    {done rest : List Move} (moved : Moved loaded done current)
    (planned : Plan.moves development loaded migrations = done ++ rest)
    (distinct : (migrations.map (·.name)).Nodup) :
    Plan.moves development current migrations = rest := by
  -- The induction is on the moves made, each of which leaves a plan that is shorter by one.
  induction moved with
  | start => exact planned
  | next writes _ ih => exact ih (writes.remainder planned distinct)

end SchemaLedger
