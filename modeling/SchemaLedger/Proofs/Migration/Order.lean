import SchemaLedger.Migration.Order

/-! Ordering migrations sorts them by their keys, provided that their names allow it. -/

namespace SchemaLedger

namespace Migration

/-- The key of a migration, where a malformed name counts as the least one. -/
def key (migration : Migration) : OrderKey :=
  (OrderKey.ofName migration.name).toOption.getD ⟨0, ""⟩

/-- A migration may stand before another one if its key is not greater. -/
def mayPrecede (left right : Migration) : Bool := (left.key.compare right.key).isLE

/-- The key of a migration is the one that its name has. -/
theorem key_eq {migration : Migration} {key : OrderKey}
    (parsed : OrderKey.ofName migration.name = .ok key) : migration.key = key := by
  -- The name has a key, so that the one for other names is not used.
  rw [Migration.key, parsed]
  rfl

end Migration

open Migration

/-- Keys are put to migrations whose names are well-formed, distinct and not seen before. -/
theorem keyedMigrations_eq_ok {migrations : List Migration} {seen : List String}
    {keyed : List (OrderKey × Migration)} :
    keyedMigrations seen migrations = .ok keyed ↔
      (migrations.map (·.name)).Nodup ∧ (∀ migration ∈ migrations, migration.name ∉ seen) ∧
        (∀ migration ∈ migrations, ∃ key, OrderKey.ofName migration.name = .ok key) ∧
        keyed = migrations.map fun migration => (migration.key, migration) := by
  -- The induction is on the migrations, where each name met counts as seen for those behind it.
  induction migrations generalizing seen keyed with
  | nil => simp [keyedMigrations, eq_comm]
  | cons migration rest ih =>
    rw [keyedMigrations, List.forall_mem_cons, List.forall_mem_cons, List.map_cons, List.map_cons,
      List.nodup_cons]
    -- A repeated name is refused before its key is looked at.
    by_cases repeated : migration.name ∈ seen
    · simp [repeated]
    rw [if_neg (by simpa using repeated)]
    cases parsed : OrderKey.ofName migration.name with
    | error error => simp [bind, Except.bind]
    | ok key =>
      constructor
      · intro accepted
        cases others : keyedMigrations (migration.name :: seen) rest with
        | error error => simp [others, bind, Except.bind] at accepted
        | ok tail =>
          obtain ⟨distinct, unseen, wellFormed, rfl⟩ := ih.mp others
          simp only [others, bind, Except.bind, pure, Except.pure, Except.ok.injEq] at accepted
          -- Later names differ from this one, because it counts as seen for them.
          have fresh : migration.name ∉ rest.map (·.name) := fun member => by
            obtain ⟨other, inside, named⟩ := List.mem_map.mp member
            exact unseen other inside (named ▸ List.mem_cons_self)
          refine ⟨⟨fresh, distinct⟩, ⟨repeated, fun other inside known => ?_⟩,
            ⟨⟨key, rfl⟩, wellFormed⟩, ?_⟩
          · exact unseen other inside (List.mem_cons_of_mem _ known)
          · rw [← accepted, key_eq parsed]
      · rintro ⟨⟨fresh, distinct⟩, ⟨-, unseen⟩, ⟨-, wellFormed⟩, rfl⟩
        -- Names behind this one are none that were seen, including this one.
        have unseenToo : ∀ other ∈ rest, other.name ∉ migration.name :: seen := by
          intro other inside known
          rcases List.mem_cons.mp known with named | earlier
          · exact fresh (List.mem_map.mpr ⟨other, inside, named⟩)
          · exact unseen other inside earlier
        rw [ih.mpr ⟨distinct, unseenToo, wellFormed, rfl⟩, key_eq parsed]
        rfl

/-- Migrations can be put in order if their names are well-formed and distinct, and then are. -/
theorem canonicalOrder_eq_ok {migrations sorted : List Migration} :
    canonicalOrder migrations = .ok sorted ↔
      (migrations.map (·.name)).Nodup ∧
        (∀ migration ∈ migrations, ∃ key, OrderKey.ofName migration.name = .ok key) ∧
        sorted = migrations.mergeSort mayPrecede := by
  -- The keys that are put to migrations for sorting are taken off again behind it.
  have keyless : ((migrations.map fun migration => (migration.key, migration)).mergeSort
      fun left right => (left.1.compare right.1).isLE).map (·.2) =
        migrations.mergeSort mayPrecede := by
    have keyed : (migrations.mergeSort mayPrecede).map (fun migration => (migration.key, migration)) =
        (migrations.map fun migration => (migration.key, migration)).mergeSort
          fun left right => (left.1.compare right.1).isLE := List.map_mergeSort fun _ _ _ _ => rfl
    rw [← keyed, List.map_map]
    exact List.map_id _
  rw [canonicalOrder]
  cases accepted : keyedMigrations [] migrations with
  | error error =>
    -- With an error among the keys no list would do.
    have refused : ∀ keyed, keyedMigrations [] migrations ≠ .ok keyed := by simp [accepted]
    simp only [ne_eq, keyedMigrations_eq_ok] at refused
    simp only [bind, Except.bind, reduceCtorEq, false_iff]
    rintro ⟨distinct, wellFormed, -⟩
    exact refused _ ⟨distinct, fun _ _ => List.not_mem_nil, wellFormed, rfl⟩
  | ok keyed =>
    obtain ⟨distinct, -, wellFormed, rfl⟩ := keyedMigrations_eq_ok.mp accepted
    simp only [bind, Except.bind, pure, Except.pure, Except.ok.injEq, keyless]
    exact ⟨fun same => ⟨distinct, wellFormed, same.symm⟩, fun whole => whole.2.2.symm⟩

/-- Migrations in canonical order are the given ones, and their names are distinct. -/
theorem canonicalOrder_ok {migrations sorted : List Migration}
    (ordered : canonicalOrder migrations = .ok sorted) :
    sorted.Perm migrations ∧ (sorted.map (·.name)).Nodup := by
  -- Sorting rearranges the list and leaves its names as they are.
  obtain ⟨distinct, -, rfl⟩ := canonicalOrder_eq_ok.mp ordered
  have rearranged := List.mergeSort_perm migrations mayPrecede
  exact ⟨rearranged, (rearranged.map _).nodup_iff.mpr distinct⟩

end SchemaLedger
