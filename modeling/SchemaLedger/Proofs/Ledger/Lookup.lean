import SchemaLedger.Ledger.Basic

/-! What is found in a ledger after a record was added, exchanged or removed. -/

namespace SchemaLedger.Ledger

/-- A record that is found stands in the ledger, under the name asked for. -/
theorem get?_mem {ledger : Ledger} {name : String} {record : Migration}
    (found : ledger.get? name = some record) : record ∈ ledger.records ∧ record.name = name := by
  -- The search goes through the records and stops at one with the name asked for.
  have member := List.mem_of_find?_eq_some found
  have named := List.find?_some found
  exact ⟨member, by simpa using named⟩

/-- Every record of a ledger is found under its name. -/
theorem get?_of_mem {ledger : Ledger} {record : Migration} (member : record ∈ ledger.records) :
    ledger.get? record.name = some record := by
  -- Names are distinct, so no earlier record can be found in its place.
  have general : ∀ records : List Migration, (records.map (·.name)).Nodup → record ∈ records →
      records.find? (·.name == record.name) = some record := by
    intro records
    induction records with
    | nil => intro _ member; simp at member
    | cons head rest ih =>
      intro distinct member
      simp only [List.map_cons, List.nodup_cons] at distinct
      rcases List.mem_cons.mp member with rfl | inside
      · -- The record at the front is found at once.
        simp
      · have differs : head.name ≠ record.name := fun same =>
          -- The record at the front has another name, so the search goes on behind it.
          distinct.1 (same ▸ List.mem_map.mpr ⟨record, inside, rfl⟩)
        simpa [differs] using ih distinct.2 inside
  exact general ledger.records ledger.distinct member

/-- A name is in the ledger exactly when a record is found under it. -/
theorem contains_eq_true_iff {ledger : Ledger} {name : String} :
    ledger.contains name = true ↔ name ∈ ledger.names := by
  -- A name is contained if a record of it is found.
  simp [contains, get?, names, List.find?_isSome]

/-- Where nothing is found, the name is not in the ledger. -/
theorem contains_eq_false_iff {ledger : Ledger} {name : String} :
    ledger.contains name = false ↔ ledger.get? name = none := by
  -- A name is not contained if no record of it is found.
  simp [contains]

/-- A record whose name is free can be added, and then stands at the end. -/
theorem push_of_free {ledger : Ledger} {record : Migration}
    (free : ledger.contains record.name = false) :
    ∃ next, ledger.push record = .ok next ∧ next.records = ledger.records ++ [record] := by
  -- The name is free, so that the push is not refused.
  simp [push, free]

/-- A record is added only where its name is free, and stands at the end. -/
theorem push_ok {ledger next : Ledger} {record : Migration} (pushed : ledger.push record = .ok next) :
    ledger.contains record.name = false ∧ next.records = ledger.records ++ [record] := by
  -- Adding asks whether the name is taken before it does anything.
  unfold push at pushed
  split at pushed
  · -- A taken name is refused, which is no success.
    cases pushed
  · rename_i free
    cases pushed
    exact ⟨by simpa using free, rfl⟩

/-- Adding a record leaves the other names as they are. -/
theorem get?_push {ledger next : Ledger} {record : Migration} {name : String}
    (pushed : ledger.push record = .ok next) (other : name ≠ record.name) :
    next.get? name = ledger.get? name := by
  have records := (push_ok pushed).2
  -- The new record stands last and has another name, so it is not what is found.
  simp [get?, records, List.find?_append, Ne.symm other]

/-- Removing a record leaves the other names as they are. -/
theorem get?_remove {ledger : Ledger} {name removed : String} (other : name ≠ removed) :
    (ledger.remove removed).get? name = ledger.get? name := by
  -- Looking up a name behind the filter only asks for that name, which is not the removed one.
  simp only [get?, remove, List.find?_filter]
  congr 1
  funext record
  by_cases same : record.name = name
  · simp [same, other]
  · simp [same]

/-- Records among which there is none of a name stay as they are when it is exchanged. -/
theorem replaceIn_of_absent {record : Migration} {records : List Migration}
    (absent : record.name ∉ records.map (·.name)) : replaceIn record records = records := by
  -- No record is the one to be exchanged, so each is kept as it is.
  refine (List.map_congr_left fun old member => ?_).trans (List.map_id records)
  have differs : old.name ≠ record.name := fun same =>
    absent (List.mem_map.mpr ⟨old, member, same⟩)
  simp [differs]

/-- Exchanging a record among the first ones leaves those behind them as they are. -/
theorem records_replace {ledger : Ledger} {kept new : List Migration} {record : Migration}
    (records : ledger.records = kept ++ new) (absent : record.name ∉ new.map (·.name)) :
    (ledger.replace record).records = replaceIn record kept ++ new := by
  -- The name is not among the new records, so that they stay as they are.
  have apart : replaceIn record (kept ++ new) = replaceIn record kept ++ replaceIn record new :=
    List.map_append
  show replaceIn record ledger.records = _
  rw [records, apart, replaceIn_of_absent absent]

/-- Exchanging a record leaves the other names as they are. -/
theorem get?_replace {ledger : Ledger} {record : Migration} {name : String}
    (other : name ≠ record.name) : (ledger.replace record).get? name = ledger.get? name := by
  -- Names need not be distinct for this, so it holds of any list of records.
  have general : ∀ records : List Migration,
      (replaceIn record records).find? (·.name == name) = records.find? (·.name == name) := by
    intro records
    induction records with
    | nil => rfl
    | cons head rest ih =>
      simp only [replaceIn, List.map_cons, List.find?_cons] at ih ⊢
      by_cases same : head.name = record.name
      · -- Neither the old record nor the new one has the name asked for.
        have differs : (record.name == name) = false := by simpa using Ne.symm other
        simp [same, differs, ih]
      · -- Another record is kept, and is found or passed over as before.
        simp [same, ih]
  exact general ledger.records

/-- A record that was added is found under its name. -/
theorem get?_push_self {ledger next : Ledger} {record : Migration}
    (pushed : ledger.push record = .ok next) : next.get? record.name = some record := by
  -- The record is the last, and the only one of its name.
  refine get?_of_mem ?_
  rw [(push_ok pushed).2]
  exact List.mem_append_right _ List.mem_cons_self

/-- A name is in a ledger with one more record if it was there before or is that of the record. -/
theorem contains_push {ledger next : Ledger} {record : Migration}
    (pushed : ledger.push record = .ok next) (name : String) :
    next.contains name = (ledger.contains name || name == record.name) := by
  -- The name is that of the new record, or it was contained before.
  by_cases same : name = record.name
  · simp [contains, same, get?_push_self pushed]
  · simp [contains, get?_push pushed same, same]

/-- A record that has taken the place of another one is found under its name. -/
theorem get?_replace_self {ledger : Ledger} {record : Migration}
    (contained : ledger.contains record.name = true) :
    (ledger.replace record).get? record.name = some record := by
  -- The record stands where the one that had its name was found.
  obtain ⟨old, member, same⟩ := List.mem_map.mp (contains_eq_true_iff.mp contained)
  exact get?_of_mem (List.mem_map.mpr ⟨old, member, if_pos same⟩)

/-- Exchanging a record leaves the names as they are. -/
theorem names_replace (ledger : Ledger) (record : Migration) :
    (ledger.replace record).names = ledger.names := replaceIn_names record ledger.records

/-- Whether a name is in a ledger is known from its names. -/
theorem contains_congr {ledger other : Ledger} (same : other.names = ledger.names) (name : String) :
    other.contains name = ledger.contains name := by
  -- Whether a name is contained is a question about names.
  rw [Bool.eq_iff_iff, contains_eq_true_iff, contains_eq_true_iff, same]

end SchemaLedger.Ledger
