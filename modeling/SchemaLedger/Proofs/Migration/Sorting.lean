import Mathlib.Data.List.Induction
import Mathlib.Data.List.Nodup
import SchemaLedger.Proofs.Migration.Names

/-! Migrations are sorted by their names and otherwise left as they come, or else the first fault
among them is reported. -/

namespace SchemaLedger

open Migration

/-- Migrations can be put in order if each of their names has a key, and none occurs twice. -/
def Orderable (migrations : List Migration) : Prop :=
  (∀ migration ∈ migrations, ∃ key, OrderKey.ofName migration.name = .ok key) ∧
    (migrations.map (·.name)).Nodup

/-- Migrations are sorted, and not moved any further than this takes. -/
structure StablySorted (migrations sorted : List Migration) : Prop where
  rearranged : sorted.Perm migrations
  ordered : sorted.Pairwise fun earlier later => MayStandBefore earlier.name later.name
  /-- Those whose names compare equal come in the order given. -/
  stable : ∀ name, sorted.filter (ties name) = migrations.filter (ties name)

/-- The first migration whose name is repeated or has no key, and the error that says so. -/
inductive FirstFault (migrations : List Migration) : MigrationError → Prop where
  | repeated {before : List Migration} {migration : Migration} {after : List Migration}
      (found : migrations = before ++ migration :: after) (sound : Orderable before)
      (seen : migration.name ∈ before.map (·.name)) :
      FirstFault migrations (.duplicate migration.name)
  | malformed {before : List Migration} {migration : Migration} {after : List Migration}
      (found : migrations = before ++ migration :: after) (sound : Orderable before)
      (keyless : ∀ key, OrderKey.ofName migration.name ≠ .ok key) :
      FirstFault migrations (.nameFormat migration.name)

section Faults

variable {migrations front back : List Migration} {migration : Migration} {seen : List String}
  {error : MigrationError}

/-- One more migration can be put in order with others if it has a key and a name of its own. -/
theorem orderable_concat :
    Orderable (front ++ [migration]) ↔
      Orderable front ∧ (∃ key, OrderKey.ofName migration.name = .ok key) ∧
        migration.name ∉ front.map (·.name) := by
  -- The last name has to be readable, and not to be among those before it.
  rw [Orderable, Orderable, List.map_append, List.forall_mem_append, List.map_singleton,
    List.forall_mem_singleton, List.nodup_append_comm, List.singleton_append, List.nodup_cons]
  constructor
  · rintro ⟨⟨keyed, ownKey⟩, fresh, distinct⟩
    exact ⟨⟨keyed, distinct⟩, ownKey, fresh⟩
  · rintro ⟨⟨keyed, distinct⟩, ownKey, fresh⟩
    exact ⟨⟨keyed, ownKey⟩, fresh, distinct⟩

/-- The first fault remains the first one whatever stands behind it. -/
theorem FirstFault.append (fault : FirstFault front error) (back : List Migration) :
    FirstFault (front ++ back) error := by
  -- A fault that has been found stays the first, whatever comes behind it.
  cases fault with
  | repeated found sound seen =>
    exact .repeated (by rw [found, List.append_assoc, List.cons_append]) sound seen
  | malformed found sound keyless =>
    exact .malformed (by rw [found, List.append_assoc, List.cons_append]) sound keyless

/-- Migrations that cannot be put in order have a first fault. -/
theorem orderable_or_fault (migrations : List Migration) :
    Orderable migrations ∨ ∃ error, FirstFault migrations error := by
  -- Migrations are added at the end, where they cannot come before a fault that was found.
  induction migrations using List.reverseRecOn with
  | nil => exact .inl ⟨by simp, by simp⟩
  | append_singleton front migration ih =>
    rcases ih with sound | ⟨error, fault⟩
    · by_cases seen : migration.name ∈ front.map (·.name)
      · exact .inr ⟨_, .repeated rfl sound seen⟩
      by_cases keyed : ∃ key, OrderKey.ofName migration.name = .ok key
      · exact .inl (orderable_concat.mpr ⟨sound, keyed, seen⟩)
      · exact .inr ⟨_, .malformed rfl sound (not_exists.mp keyed)⟩
    · exact .inr ⟨error, fault.append _⟩

/-- What comes behind migrations with keys is looked at with their names in mind. -/
theorem keyedMigrations_append {keyed : List (OrderKey × Migration)}
    (accepted : keyedMigrations seen front = .ok keyed)
    (refused : keyedMigrations ((front.map (·.name)).reverse ++ seen) back = .error error) :
    keyedMigrations seen (front ++ back) = .error error := by
  -- Each migration with a key adds its name to those seen, until the front is used up.
  induction front generalizing seen keyed with
  | nil => exact refused
  | cons migration rest ih =>
    rw [keyedMigrations] at accepted
    rw [List.cons_append, keyedMigrations]
    split at accepted
    · cases accepted
    · rename_i fresh
      rw [if_neg fresh]
      cases parsed : OrderKey.ofName migration.name with
      | error other => simp [parsed, bind, Except.bind] at accepted
      | ok key =>
        cases others : keyedMigrations (migration.name :: seen) rest with
        | error other => simp [parsed, others, bind, Except.bind] at accepted
        | ok tail =>
          -- The names seen so far are kept with the newest one first.
          have behind :
              keyedMigrations ((rest.map (·.name)).reverse ++ migration.name :: seen) back =
                .error error := by
            simpa using refused
          rw [ih others behind]
          rfl

/-- Migrations can be put in order if nothing is wrong with them, and then are sorted. -/
theorem canonicalOrder_eq_ok_iff {sorted : List Migration} :
    canonicalOrder migrations = .ok sorted ↔
      Orderable migrations ∧ sorted = migrations.mergeSort mayPrecede := by
  -- What is asked of the list is the same in another order.
  rw [canonicalOrder_eq_ok, Orderable]
  constructor
  · rintro ⟨distinct, keyed, same⟩
    exact ⟨⟨keyed, distinct⟩, same⟩
  · rintro ⟨⟨keyed, distinct⟩, same⟩
    exact ⟨distinct, keyed, same⟩

/-- The first fault is what is reported. -/
theorem canonicalOrder_of_fault (fault : FirstFault migrations error) :
    canonicalOrder migrations = .error error := by
  -- Whatever stands before the fault has been given its keys by then.
  have reported {before after : List Migration} {migration : Migration}
      (found : migrations = before ++ migration :: after) (sound : Orderable before)
      (refused : keyedMigrations ((before.map (·.name)).reverse ++ []) (migration :: after) =
        .error error) : canonicalOrder migrations = .error error := by
    obtain ⟨keyed, distinct⟩ := sound
    have accepted := keyedMigrations_eq_ok.mpr
      ⟨distinct, fun _ _ => List.not_mem_nil, keyed, rfl⟩
    rw [canonicalOrder, found, keyedMigrations_append accepted refused]
    rfl
  cases fault with
  | @repeated before migration after found sound seen =>
    refine reported found sound ?_
    -- The name has been seen, so that its key is not looked at.
    rw [keyedMigrations, if_pos (by simpa using seen)]
  | @malformed before migration after found sound keyless =>
    -- A name without a key cannot be among those before it, which all have one.
    have fresh : migration.name ∉ before.map (·.name) := by
      intro member
      obtain ⟨other, inside, same⟩ := List.mem_map.mp member
      obtain ⟨key, parsed⟩ := sound.1 other inside
      exact keyless key (same ▸ parsed)
    refine reported found sound ?_
    rw [keyedMigrations, if_neg (by simpa using fresh)]
    cases parsed : OrderKey.ofName migration.name with
    | ok key => exact absurd parsed (keyless key)
    | error other =>
      obtain ⟨-, rfl⟩ := ofName_eq_error.mp parsed
      rfl

/-- Exactly the first fault is reported. -/
theorem canonicalOrder_eq_error :
    canonicalOrder migrations = .error error ↔ FirstFault migrations error := by
  -- A list without a fault would have been sorted.
  constructor
  · intro refused
    rcases orderable_or_fault migrations with sound | ⟨other, fault⟩
    · have sorted := canonicalOrder_eq_ok_iff.mpr ⟨sound, rfl⟩
      rw [refused] at sorted
      cases sorted
    · obtain rfl : error = other :=
        Except.error.inj (refused.symm.trans (canonicalOrder_of_fault fault))
      exact fault
  · exact canonicalOrder_of_fault

end Faults

section Stability

variable {migrations sorted : List Migration} {left right : Migration} {leftKey rightKey : OrderKey}

/-- One migration may stand before another one if its name may. -/
theorem mayStandBefore_iff (parsed : OrderKey.ofName left.name = .ok leftKey)
    (parsedToo : OrderKey.ofName right.name = .ok rightKey) :
    MayStandBefore left.name right.name ↔ left.mayPrecede right = true := by
  -- Both names are readable, so that the keys decide on either side.
  rw [MayStandBefore, compareNames_of_keys parsed parsedToo, mayPrecede, key_eq parsed,
    key_eq parsedToo]
  simp

/-- Migrations in canonical order are sorted stably. -/
theorem stablySorted_canonicalOrder (ordered : canonicalOrder migrations = .ok sorted) :
    StablySorted migrations sorted := by
  -- Neighbours in the sorted list are members of the given one, and have keys.
  obtain ⟨⟨keyed, -⟩, rfl⟩ := canonicalOrder_eq_ok_iff.mp ordered
  refine ⟨List.mergeSort_perm migrations mayPrecede, ?_, filter_ties ordered⟩
  refine (pairwise_sort migrations).imp_of_mem fun {earlier later} first second precedes => ?_
  obtain ⟨earlierKey, parsed⟩ := keyed earlier (List.mem_mergeSort.mp first)
  obtain ⟨laterKey, parsedToo⟩ := keyed later (List.mem_mergeSort.mp second)
  exact (mayStandBefore_iff parsed parsedToo).mpr precedes

/-- There is only one way to sort migrations stably. -/
theorem StablySorted.canonical (sound : Orderable migrations)
    (stably : StablySorted migrations sorted) : canonicalOrder migrations = .ok sorted := by
  -- Two sorted lists are the same if they have the same entries for each key, in the same order.
  obtain ⟨rearranged, ordered, stable⟩ := stably
  have keyed : ∀ migration ∈ sorted, ∃ key, OrderKey.ofName migration.name = .ok key :=
    fun migration member => sound.1 migration (rearranged.mem_iff.mp member)
  refine canonicalOrder_eq_ok_iff.mpr ⟨sound, ?_⟩
  refine eq_of_filter_eq ?_ (pairwise_sort migrations) fun key => ?_
  · refine ordered.imp_of_mem fun {earlier later} first second before => ?_
    obtain ⟨earlierKey, parsed⟩ := keyed earlier first
    obtain ⟨laterKey, parsedToo⟩ := keyed later second
    exact (mayStandBefore_iff parsed parsedToo).mp before
  · rw [filter_sort, filter_key_eq rearranged.symm sound.1 stable]

/--
Migrations are put in order exactly if every name has a key and none is repeated.

They are sorted by name then, and those that compare equal stay as they come. Otherwise the first
migration at fault is reported, be it for a repeated name or for a malformed one.
-/
theorem canonicalOrder_sorts (migrations : List Migration) :
    ((∃ sorted, canonicalOrder migrations = .ok sorted) ↔ Orderable migrations) ∧
    (∀ sorted, canonicalOrder migrations = .ok sorted ↔
      Orderable migrations ∧ StablySorted migrations sorted) ∧
    (∀ error, canonicalOrder migrations = .error error ↔ FirstFault migrations error) := by
  refine ⟨?_, fun sorted => ?_, fun error => canonicalOrder_eq_error⟩
  · constructor
    · rintro ⟨sorted, ordered⟩
      exact (canonicalOrder_eq_ok_iff.mp ordered).1
    · intro sound
      exact ⟨_, canonicalOrder_eq_ok_iff.mpr ⟨sound, rfl⟩⟩
  · constructor
    · intro ordered
      exact ⟨(canonicalOrder_eq_ok_iff.mp ordered).1, stablySorted_canonicalOrder ordered⟩
    · -- Only one list is sorted stably, which is the one that sorting gives.
      rintro ⟨sound, stably⟩
      exact stably.canonical sound

end Stability

end SchemaLedger
