import Mathlib.Data.List.Perm.Basic
import SchemaLedger.Proofs.Migration.Order

/-! Sorting forgets the order given, but for migrations whose names compare equal. -/

namespace SchemaLedger

namespace OrderKey

/-- Keys are ordered by their numbers first, and then by the rest of the name. -/
instance : Std.TransCmp OrderKey.compare :=
  inferInstanceAs (Std.TransCmp (compareLex (compareOn number) (compareOn rest)))

/-- Keys that compare equal are equal. -/
instance : Std.LawfulEqCmp OrderKey.compare where
  compare_self := Std.ReflCmp.compare_self
  eq_of_compare {left right} same := by
    obtain ⟨numbers, rests⟩ := Ordering.then_eq_eq.mp same
    obtain ⟨number, rest⟩ := left
    simp only [Std.LawfulEqCmp.compare_eq_iff_eq] at numbers rests
    rw [numbers, rests]

/-- A key compares equal to itself. -/
theorem compare_self (key : OrderKey) : key.compare key = .eq := Std.ReflCmp.compare_self

/-- Exchanging two keys turns their comparison around. -/
theorem compare_swap (left right : OrderKey) : right.compare left = (left.compare right).swap :=
  Std.OrientedCmp.eq_swap

end OrderKey

/-- Names compare as their keys. -/
theorem compareNames_of_keys {left right : String} {leftKey rightKey : OrderKey}
    (parsed : OrderKey.ofName left = .ok leftKey)
    (parsedToo : OrderKey.ofName right = .ok rightKey) :
    compareNames left right = .ok (leftKey.compare rightKey) := by
  -- Both names have a key, so that their comparison is that of the keys.
  rw [compareNames, parsed, parsedToo]
  rfl

namespace Migration

/-- A migration ties with a name if the two names compare equal. -/
def ties (name : String) (migration : Migration) : Bool :=
  (compareNames name migration.name).toOption == some .eq

/-- A migration ties with a well-formed name if it has its key. -/
theorem ties_eq {name : String} {migration : Migration} {own other : OrderKey}
    (parsed : OrderKey.ofName name = .ok own)
    (parsedOther : OrderKey.ofName migration.name = .ok other) :
    migration.ties name = decide (migration.key = own) := by
  -- Keys compare as equal only if they are equal.
  have equal : own.compare other = .eq ↔ other = own :=
    Std.LawfulEqCmp.compare_eq_iff_eq.trans eq_comm
  rw [ties, compareNames_of_keys parsed parsedOther, key_eq parsedOther, Bool.eq_iff_iff,
    decide_eq_true_iff, ← equal]
  cases own.compare other <;> decide

/-- Nothing ties with a malformed name. -/
theorem ties_of_malformed {name : String} {migration : Migration} {error : MigrationError}
    (malformed : OrderKey.ofName name = .error error) : migration.ties name = false := by
  -- A malformed name cannot be compared with any other.
  rw [ties, compareNames, malformed]
  rfl

/-- A migration may stand before itself. -/
theorem mayPrecede_refl (migration : Migration) : migration.mayPrecede migration = true := by
  -- A key compares as equal to itself.
  rw [mayPrecede, OrderKey.compare_self]
  rfl

/-- Of three migrations the first may stand before the last if each may stand before the next. -/
theorem mayPrecede_trans (first second third : Migration) (before : first.mayPrecede second = true)
    (after : second.mayPrecede third = true) : first.mayPrecede third = true :=
  Std.TransCmp.isLE_trans before after

/-- Of two migrations either may stand before the other. -/
theorem mayPrecede_total (left right : Migration) :
    (left.mayPrecede right || right.mayPrecede left) = true := by
  -- Comparing the other way round gives the opposite.
  rw [mayPrecede, mayPrecede, OrderKey.compare_swap left.key]
  cases left.key.compare right.key <;> rfl

/-- Migrations that may stand before each other have the same key. -/
theorem key_eq_of_mayPrecede {left right : Migration} (before : left.mayPrecede right = true)
    (after : right.mayPrecede left = true) : left.key = right.key :=
  Std.LawfulEqCmp.eq_of_compare (Std.OrientedCmp.isLE_antisymm before after)

end Migration

open Migration

section Sorting

variable {migrations first second sorted other : List Migration}

/-- Sorted migrations come in an order in which each may stand before those behind it. -/
theorem pairwise_sort (migrations : List Migration) :
    (migrations.mergeSort mayPrecede).Pairwise (mayPrecede · ·) :=
  List.pairwise_mergeSort mayPrecede_trans mayPrecede_total migrations

/-- Migrations that all have the same key are sorted, whatever their order. -/
theorem pairwise_of_same_key {own : OrderKey} (same : ∀ migration ∈ migrations, migration.key = own) :
    migrations.Pairwise (mayPrecede · ·) := by
  -- Any two have the same key, so that either may precede the other.
  refine List.pairwise_iff_forall_sublist.mpr fun {left right} both => ?_
  rw [mayPrecede, same left (both.subset (by simp)), same right (both.subset (by simp)),
    OrderKey.compare_self]
  rfl

/-- Sorting leaves migrations with the same key in the order given. -/
theorem filter_sort (key : OrderKey) (migrations : List Migration) :
    (migrations.mergeSort mayPrecede).filter (·.key = key) = migrations.filter (·.key = key) := by
  have alike : (migrations.filter (·.key = key)).Pairwise (mayPrecede · ·) :=
    pairwise_of_same_key fun migration member => by simpa using (List.mem_filter.mp member).2
  -- What is already in order is found in the sorted list in the same order, and nothing else is.
  have kept := (List.sublist_mergeSort mayPrecede_trans mayPrecede_total alike
    List.filter_sublist).filter (·.key = key)
  rw [List.filter_filter] at kept
  simp only [Bool.and_self] at kept
  have lengths := ((List.mergeSort_perm migrations mayPrecede).filter (·.key = key)).length_eq
  exact (kept.eq_of_length lengths.symm).symm

/-- Lists with the same migrations of every key have the same migrations. -/
theorem mem_iff_of_filter_eq
    (alike : ∀ key, first.filter (·.key = key) = second.filter (·.key = key))
    (migration : Migration) : migration ∈ first ↔ migration ∈ second := by
  -- A migration passes the filter for its own key.
  have members := congrArg (migration ∈ ·) (alike migration.key)
  simpa using members

/-- Sorted migrations are the same if those of every key come in the same order. -/
theorem eq_of_filter_eq (ordered : first.Pairwise (mayPrecede · ·))
    (orderedToo : second.Pairwise (mayPrecede · ·))
    (alike : ∀ key, first.filter (·.key = key) = second.filter (·.key = key)) : first = second := by
  induction first generalizing second with
  | nil =>
    refine (List.eq_nil_iff_forall_not_mem.mpr fun migration member => ?_).symm
    exact List.not_mem_nil ((mem_iff_of_filter_eq alike migration).mpr member)
  | cons migration rest ih =>
    have shared := mem_iff_of_filter_eq alike
    cases second with
    | nil => exact absurd ((shared migration).mp List.mem_cons_self) List.not_mem_nil
    | cons other others =>
      -- Each of the two first ones may stand before the other, which is found behind it.
      have before : migration.mayPrecede other = true := by
        rcases List.mem_cons.mp ((shared other).mpr List.mem_cons_self) with rfl | behind
        · exact mayPrecede_refl _
        · exact List.rel_of_pairwise_cons ordered behind
      have after : other.mayPrecede migration = true := by
        rcases List.mem_cons.mp ((shared migration).mp List.mem_cons_self) with rfl | behind
        · exact mayPrecede_refl _
        · exact List.rel_of_pairwise_cons orderedToo behind
      -- Both may stand before the other, so that they have one key, for which they come first.
      have same := key_eq_of_mayPrecede before after
      have front := alike migration.key
      rw [List.filter_cons_of_pos (by simp), List.filter_cons_of_pos (by simp [same])] at front
      obtain ⟨rfl, -⟩ := List.cons.inj front
      -- The rest of both lists is the same for every key, with or without the first one.
      have later : ∀ key, rest.filter (·.key = key) = others.filter (·.key = key) := fun key => by
        have both := alike key
        rw [List.filter_cons, List.filter_cons] at both
        split at both
        · exact (List.cons.inj both).2
        · exact both
      rw [ih ordered.of_cons orderedToo.of_cons later]

/-- Migrations with well-formed names tie with such a name if they have its key. -/
theorem filter_ties_eq {name : String} {own : OrderKey}
    (wellFormed : ∀ migration ∈ migrations, ∃ key, OrderKey.ofName migration.name = .ok key)
    (parsed : OrderKey.ofName name = .ok own) :
    migrations.filter (ties name) = migrations.filter (·.key = own) := by
  -- Every name has a key, so that ties are a matter of keys.
  refine List.filter_congr fun migration member => ?_
  obtain ⟨key, parsedOther⟩ := wellFormed migration member
  exact ties_eq parsed parsedOther

/-- Migrations in canonical order that tie with a name are in the order given. -/
theorem filter_ties (ordered : canonicalOrder migrations = .ok sorted) (name : String) :
    sorted.filter (ties name) = migrations.filter (ties name) := by
  obtain ⟨-, wellFormed, rfl⟩ := canonicalOrder_eq_ok.mp ordered
  cases parsed : OrderKey.ofName name with
  | error error =>
    -- Nothing ties with a malformed name.
    have none : ties name = fun _ => false := funext fun _ => ties_of_malformed parsed
    simp [none]
  | ok own =>
    have wellFormedToo : ∀ migration ∈ migrations.mergeSort mayPrecede,
        ∃ key, OrderKey.ofName migration.name = .ok key := fun migration member =>
      wellFormed migration (List.mem_mergeSort.mp member)
    -- Sorting keeps the order of those with one key.
    rw [filter_ties_eq wellFormed parsed, filter_ties_eq wellFormedToo parsed, filter_sort]

/-- Migrations that all have the same key stay in the order given. -/
theorem canonicalOrder_of_tied (own : OrderKey) (distinct : (migrations.map (·.name)).Nodup)
    (tied : ∀ migration ∈ migrations, OrderKey.ofName migration.name = .ok own) :
    canonicalOrder migrations = .ok migrations := by
  -- A tied list is sorted as it stands.
  have sorted : migrations.Pairwise (mayPrecede · ·) :=
    pairwise_of_same_key fun migration member => key_eq (tied migration member)
  exact canonicalOrder_eq_ok.mpr ⟨distinct, fun migration member => ⟨own, tied migration member⟩,
    (List.mergeSort_of_pairwise sorted).symm⟩

/-- Whether migrations can be put in order does not depend on the order given. -/
theorem canonicalOrder_perm (rearranged : first.Perm second)
    (ordered : canonicalOrder first = .ok sorted) : ∃ other, canonicalOrder second = .ok other := by
  -- What makes a list fit to be sorted does not depend on its arrangement.
  obtain ⟨distinct, wellFormed, -⟩ := canonicalOrder_eq_ok.mp ordered
  refine ⟨_, canonicalOrder_eq_ok.mpr ⟨(rearranged.map _).nodup_iff.mp distinct, ?_, rfl⟩⟩
  exact fun migration member => wellFormed migration (rearranged.mem_iff.mpr member)

/-- Rearranged migrations of every key come in the same order if those that tie with a name do. -/
theorem filter_key_eq (rearranged : first.Perm second)
    (wellFormed : ∀ migration ∈ first, ∃ key, OrderKey.ofName migration.name = .ok key)
    (alike : ∀ name, second.filter (ties name) = first.filter (ties name)) (key : OrderKey) :
    second.filter (·.key = key) = first.filter (·.key = key) := by
  have wellFormedToo : ∀ migration ∈ second, ∃ key, OrderKey.ofName migration.name = .ok key :=
    fun migration member => wellFormed migration (rearranged.mem_iff.mpr member)
  by_cases used : ∃ migration ∈ first, OrderKey.ofName migration.name = .ok key
  · -- The key is that of a name, for which the two lists agree.
    obtain ⟨migration, -, parsed⟩ := used
    rw [← filter_ties_eq wellFormed parsed, ← filter_ties_eq wellFormedToo parsed, alike]
  · -- No migration has the key, in whatever order they come.
    have none : first.filter (·.key = key) = [] := by
      refine List.filter_eq_nil_iff.mpr fun migration member same => used ⟨migration, member, ?_⟩
      obtain ⟨own, parsed⟩ := wellFormed migration member
      rw [parsed, ← of_decide_eq_true same, key_eq parsed]
    have noneToo := (rearranged.filter (·.key = key)).symm
    rw [none] at noneToo
    rw [none, noneToo.eq_nil]

/-- Rearranged migrations are put in the same order if those that tie have kept theirs. -/
theorem canonicalOrder_eq_iff (rearranged : first.Perm second)
    (ordered : canonicalOrder first = .ok sorted) (orderedToo : canonicalOrder second = .ok other) :
    other = sorted ↔ ∀ name, second.filter (ties name) = first.filter (ties name) := by
  -- Sorted lists are the same if the migrations of each key stand in the same order.
  constructor
  · rintro rfl name
    rw [← filter_ties ordered, ← filter_ties orderedToo]
  · intro alike
    obtain ⟨-, wellFormed, rfl⟩ := canonicalOrder_eq_ok.mp ordered
    obtain ⟨-, -, rfl⟩ := canonicalOrder_eq_ok.mp orderedToo
    refine eq_of_filter_eq (pairwise_sort _) (pairwise_sort _) fun key => ?_
    rw [filter_sort, filter_sort, filter_key_eq rearranged wellFormed alike]

/-- Where no two names compare equal, migrations are put in the same order in any case. -/
theorem canonicalOrder_eq_of_apart (rearranged : first.Perm second)
    (apart : ∀ left ∈ first, ∀ right ∈ first, right.ties left.name = true → left = right)
    (ordered : canonicalOrder first = .ok sorted) (orderedToo : canonicalOrder second = .ok other) :
    other = sorted := by
  -- Two sorted arrangements can differ only in migrations that tie.
  obtain ⟨-, wellFormed, rfl⟩ := canonicalOrder_eq_ok.mp ordered
  obtain ⟨-, -, rfl⟩ := canonicalOrder_eq_ok.mp orderedToo
  have same := (List.mergeSort_perm second mayPrecede).trans
    (rearranged.symm.trans (List.mergeSort_perm first mayPrecede).symm)
  refine List.Perm.eq_of_pairwise (fun left right inSecond inFirst before after => ?_)
    (pairwise_sort _) (pairwise_sort _) same
  -- Two that may stand in either order have one key, and so tie.
  have leftMember := rearranged.mem_iff.mpr (List.mem_mergeSort.mp inSecond)
  have rightMember := List.mem_mergeSort.mp inFirst
  obtain ⟨own, parsed⟩ := wellFormed left leftMember
  obtain ⟨key, parsedOther⟩ := wellFormed right rightMember
  refine apart left leftMember right rightMember ?_
  rw [ties_eq parsed parsedOther, ← key_eq_of_mayPrecede before after, key_eq parsed]
  simp

end Sorting

end SchemaLedger
