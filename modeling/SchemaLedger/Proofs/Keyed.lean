import Mathlib.Tactic.SplitIfs
import SchemaLedger.Keyed

/-! A keyed collection is determined by what is found in it, and a list of ordered entries is one
as it stands. -/

namespace SchemaLedger

section Entries

variable {α : Type} {name other : String} {value : α} {entries left right : List (String × α)}

/-- The first entry is found under its name, and others behind it. -/
theorem entryFor?_cons (entry : String × α) (rest : List (String × α)) :
    entryFor? other (entry :: rest) =
      if other = entry.1 then some entry.2 else entryFor? other rest := by
  -- The search stops at the first entry of the name.
  by_cases same : other = entry.1
  · simp [entryFor?, same]
  · have apart : (entry.1 == other) = false := by simpa using Ne.symm same
    simp [entryFor?, apart, same]

/-- What is found under a name has been filed there. -/
theorem mem_of_entryFor? (found : entryFor? name entries = some value) :
    (name, value) ∈ entries := by
  -- What the search returns is the value of an entry that it has met.
  obtain ⟨⟨key, filed⟩, first, rfl⟩ := Option.map_eq_some_iff.mp found
  have same := List.find?_some first
  simp only [beq_iff_eq] at same
  exact same ▸ List.mem_of_find?_eq_some first

/-- No name is found among names that are all greater. -/
theorem entryFor?_of_lt (above : ∀ entry ∈ entries, name < entry.1) :
    entryFor? name entries = none := by
  -- An entry that was found would come after its own name.
  cases found : entryFor? name entries with
  | none => rfl
  | some value => exact absurd (above _ (mem_of_entryFor? found)) (String.lt_irrefl name)

/-- Every one of ordered entries is found under its name. -/
theorem entryFor?_eq_some (ordered : EntriesOrdered entries) :
    entryFor? name entries = some value ↔ (name, value) ∈ entries := by
  -- Names only occur once, since those behind an entry come after it.
  refine ⟨mem_of_entryFor?, fun member => ?_⟩
  induction entries with
  | nil => cases member
  | cons entry rest ih =>
    obtain ⟨above, tail⟩ := List.pairwise_cons.mp ordered
    rw [entryFor?_cons]
    rcases List.mem_cons.mp member with rfl | behind
    · exact if_pos rfl
    · rw [if_neg (String.ne_of_lt (above _ behind)).symm, ih tail behind]

/-- Ordered entries are the same if the same is found among them. -/
theorem EntriesOrdered.ext (ordered : EntriesOrdered left) (orderedToo : EntriesOrdered right)
    (same : ∀ name, entryFor? name left = entryFor? name right) : left = right := by
  -- Entries in strict order are all different.
  have distinct : ∀ {entries : List (String × α)}, EntriesOrdered entries → entries.Nodup :=
    fun ordered => ordered.imp fun before same => String.ne_of_lt before (congrArg Prod.fst same)
  -- Either list has the entries that looking up finds, and in the same order.
  have perm : left.Perm right := by
    refine (List.perm_ext_iff_of_nodup (distinct ordered) (distinct orderedToo)).mpr ?_
    rintro ⟨name, value⟩
    rw [← entryFor?_eq_some ordered, ← entryFor?_eq_some orderedToo, same]
  exact perm.eq_of_pairwise (fun _ _ _ _ before after => absurd before (String.lt_asymm after))
    ordered orderedToo

/-- A value is found under its name, and others are found as before. -/
theorem entryFor?_insertEntry (entries : List (String × α)) :
    entryFor? other (insertEntry name value entries) =
      if other = name then some value else entryFor? other entries := by
  induction entries with
  | nil => rw [insertEntry, entryFor?_cons]
  | cons entry rest ih =>
    -- The new entry comes first, or takes the place of the first, or goes behind it.
    by_cases before : name < entry.1
    · rw [insertEntry, if_pos before, entryFor?_cons]
    by_cases equal : name = entry.1
    · rw [insertEntry, if_neg before, if_pos equal, entryFor?_cons, entryFor?_cons, equal]
      split_ifs <;> rfl
    · rw [insertEntry, if_neg before, if_neg equal, entryFor?_cons, entryFor?_cons, ih]
      -- No name is both that of the entry and the one that is filed.
      split_ifs with first filed
      · exact absurd (filed.symm.trans first) equal
      all_goals rfl

/-- A name that is greater than all others comes last. -/
theorem insertEntry_last (below : ∀ entry ∈ entries, entry.1 < name) :
    insertEntry name value entries = entries ++ [(name, value)] := by
  -- The new name comes after every entry, so that the search for its place passes all of them.
  induction entries with
  | nil => rfl
  | cons entry rest ih =>
    have before := below entry List.mem_cons_self
    rw [insertEntry, if_neg (String.lt_asymm before), if_neg (String.ne_of_lt before).symm,
      ih fun later member => below later (.tail _ member)]
    rfl

/-- Nothing is found under a name that was erased, and others are found as before. -/
theorem entryFor?_eraseEntry : entryFor? other (eraseEntry name entries) =
    if other = name then none else entryFor? other entries := by
  induction entries with
  | nil => simp [eraseEntry, entryFor?]
  | cons entry rest ih =>
    rw [eraseEntry] at ih ⊢
    -- Erasing drops the entries of one name, and the search for another passes them anyway.
    by_cases erased : entry.1 = name
    · rw [List.filter_cons_of_neg (by simp [erased]), ih, entryFor?_cons, erased]
      split_ifs <;> rfl
    · rw [List.filter_cons_of_pos (by simp [erased]), entryFor?_cons, entryFor?_cons, ih]
      split_ifs with first filed
      · exact absurd (first.symm.trans filed) erased
      all_goals rfl

/-- Entries are still in order when some are erased. -/
theorem eraseEntry_ordered (name : String) (ordered : EntriesOrdered entries) :
    EntriesOrdered (eraseEntry name entries) := ordered.filter _

end Entries

namespace Keyed

variable {α : Type} {name other : String} {value : α} {entries : List (String × α)}
  {keyed left right : Keyed α}

/-- What is found under a name has been filed there. -/
theorem mem_of_get? (found : keyed.get? name = some value) : (name, value) ∈ keyed.entries :=
  mem_of_entryFor? found

/-- A value is filed under its name, and nothing else is filed there. -/
theorem get?_insert (keyed : Keyed α) :
    (keyed.insert name value).get? other = if other = name then some value else keyed.get? other :=
  -- Looking up searches the entries, into which the new one has been put.
  entryFor?_insertEntry keyed.entries

/-- Collections are the same if the same is found in them. -/
theorem ext_get? (same : ∀ name, left.get? name = right.get? name) : left = right := by
  -- The order of the entries is settled by their names, so that nothing else can differ.
  have entries := left.ordered.ext right.ordered same
  cases left
  cases right
  exact (Keyed.mk.injEq ..).mpr entries

/-- What ordered entries fill in is found, and what they do not is found as before. -/
theorem get?_filled (ordered : EntriesOrdered entries) :
    (entries.foldl (fun keyed entry => keyed.insert entry.1 entry.2) keyed).get? name =
      (entryFor? name entries).or (keyed.get? name) := by
  induction entries generalizing keyed with
  | nil => rfl
  | cons entry rest ih =>
    obtain ⟨above, tail⟩ := List.pairwise_cons.mp ordered
    rw [List.foldl_cons, ih tail, get?_insert, entryFor?_cons]
    split_ifs with first
    · -- The entry is not replaced by those behind it, whose names are greater.
      rw [first, entryFor?_of_lt above]
      rfl
    · rfl

/-- Ordered entries make up the collection that they fill. -/
theorem ofList_entries (ordered : EntriesOrdered entries) : ofList entries = ⟨entries, ordered⟩ :=
  -- Filling the entries in one by one finds for each name what the entries hold for it.
  ext_get? fun _ => (get?_filled ordered).trans Option.or_none

/-- Where all entries have a property, they still have it when another one with it is filed. -/
theorem forall_insert {kept : String × α → Prop} (each : ∀ entry ∈ keyed.entries, kept entry)
    (own : kept (name, value)) : ∀ entry ∈ (keyed.insert name value).entries, kept entry := by
  -- An entry is the new one or one of those before.
  intro entry member
  rcases mem_insertEntry member with rfl | before
  · exact own
  · exact each entry before

/-- Where all entries have a property, they still have it when others with it are filled in. -/
theorem forall_filled {kept : String × α → Prop} (each : ∀ entry ∈ keyed.entries, kept entry)
    (own : ∀ entry ∈ entries, kept entry) :
    ∀ entry ∈ (entries.foldl (fun keyed entry => keyed.insert entry.1 entry.2) keyed).entries,
      kept entry := by
  -- The entries are put in one after the other, and each of them keeps the property.
  induction entries generalizing keyed with
  | nil => exact each
  | cons entry rest ih =>
    exact ih (forall_insert each (own entry List.mem_cons_self))
      fun later member => own later (.tail _ member)

end Keyed

end SchemaLedger
