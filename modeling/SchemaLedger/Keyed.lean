/-! A keyed collection holds one value for each name, in order of the names. -/

namespace SchemaLedger

/-- The value filed under a name. -/
def entryFor? {α : Type} (name : String) (entries : List (String × α)) : Option α :=
  (entries.find? (·.1 == name)).map (·.2)

/-- Ordered entries with a value filed under a name, in place of an earlier one. -/
def insertEntry {α : Type} (name : String) (value : α) : List (String × α) → List (String × α)
  | [] => [(name, value)]
  | entry :: rest =>
    -- Names behind the first entry are greater still, so the search ends here.
    if name < entry.1 then (name, value) :: entry :: rest
    else if name = entry.1 then (name, value) :: rest
    else entry :: insertEntry name value rest

/-- Ordered entries without the value filed under a name. -/
def eraseEntry {α : Type} (name : String) (entries : List (String × α)) : List (String × α) :=
  entries.filter (·.1 != name)

/-- The names of entries increase strictly. -/
def EntriesOrdered {α : Type} (entries : List (String × α)) : Prop :=
  entries.Pairwise (·.1 < ·.1)

/-- Inserting brings in no entry but the one inserted. -/
theorem mem_insertEntry {α : Type} {name : String} {value : α} {entries : List (String × α)}
    {entry : String × α} (member : entry ∈ insertEntry name value entries) :
    entry = (name, value) ∨ entry ∈ entries := by
  induction entries with
  | nil => simpa [insertEntry] using member
  | cons head rest ih =>
    by_cases before : name < head.1
    · simpa [insertEntry, before] using member
    · by_cases same : name = head.1
      · -- The new entry takes the place of the first one, and the others stay.
        simp only [insertEntry, if_neg before, if_pos same] at member
        rcases List.mem_cons.mp member with rfl | inside
        · exact .inl rfl
        · exact .inr (List.mem_cons_of_mem _ inside)
      · -- Where the names differ the first entry stays, and the insertion goes on behind it.
        simp only [insertEntry, if_neg before, if_neg same] at member
        rcases List.mem_cons.mp member with rfl | inside
        · exact .inr List.mem_cons_self
        · exact (ih inside).imp_right (List.mem_cons_of_mem _)

/-- Inserting keeps entries in order. -/
theorem insertEntry_ordered {α : Type} (name : String) (value : α) {entries : List (String × α)}
    (ordered : EntriesOrdered entries) : EntriesOrdered (insertEntry name value entries) := by
  induction entries with
  | nil => simp [insertEntry, EntriesOrdered]
  | cons head rest ih =>
    obtain ⟨above, tail⟩ := List.pairwise_cons.mp ordered
    by_cases before : name < head.1
    · -- The new name precedes the first one, and so all of them.
      simp only [insertEntry, if_pos before]
      refine List.pairwise_cons.mpr ⟨?_, ordered⟩
      intro entry member
      rcases List.mem_cons.mp member with rfl | inside
      · exact before
      · exact String.lt_trans before (above entry inside)
    · by_cases same : name = head.1
      · -- The name stays in its place, so it still precedes what follows it.
        simp only [insertEntry, if_neg before, if_pos same]
        refine List.pairwise_cons.mpr ⟨?_, tail⟩
        intro entry member
        rw [same]
        exact above entry member
      · -- The new name comes later, so the first entry still precedes what follows it.
        have after : head.1 < name :=
          String.not_le.mp fun reverse =>
            same (String.le_antisymm reverse (String.not_lt.mp before))
        simp only [insertEntry, if_neg before, if_neg same]
        refine List.pairwise_cons.mpr ⟨?_, ih tail⟩
        intro entry member
        rcases mem_insertEntry member with rfl | inside
        · exact after
        · exact above entry inside

/-- A collection with at most one value for each name. -/
structure Keyed (α : Type) where
  entries : List (String × α)
  ordered : EntriesOrdered entries

namespace Keyed

instance {α : Type} [DecidableEq α] : DecidableEq (Keyed α) := fun left right =>
  decidable_of_iff (left.entries = right.entries) ⟨fun same => by
    cases left; cases right; simpa using same, fun same => by rw [same]⟩

/-- The collection that holds nothing. -/
def empty {α : Type} : Keyed α := ⟨[], List.Pairwise.nil⟩

/-- The value under a name. -/
def get? {α : Type} (keyed : Keyed α) (name : String) : Option α := entryFor? name keyed.entries

/-- Files a value under a name, where it replaces an earlier one. -/
def insert {α : Type} (keyed : Keyed α) (name : String) (value : α) : Keyed α :=
  ⟨insertEntry name value keyed.entries, insertEntry_ordered name value keyed.ordered⟩

/-- The names, in order. -/
def names {α : Type} (keyed : Keyed α) : List String := keyed.entries.map (·.1)

/-- The collection that a list fills from the left, so that later values win. -/
def ofList {α : Type} (entries : List (String × α)) : Keyed α :=
  entries.foldl (fun keyed entry => keyed.insert entry.1 entry.2) empty

end Keyed

end SchemaLedger
