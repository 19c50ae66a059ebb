import Mathlib.Data.List.Nodup
import SchemaLedger.Proofs.Ledger.Lookup

/-! Records make up a ledger as they are, unless one of them has the name of an earlier one. -/

namespace SchemaLedger.Ledger

variable {ledger next : Ledger} {record old : Migration} {before after records : List Migration}
  {error : MigrationError}

/-- Ledgers with the same records are the same. -/
theorem eq_of_records (same : next.records = ledger.records) : next = ledger := by
  -- A ledger has its records and a proof about them.
  cases next
  cases ledger
  exact (Ledger.mk.injEq ..).mpr same

/-- The name of a record is not among those of the others. -/
theorem name_of_placed_notMem (placed : ledger.records = before ++ old :: after) :
    old.name ∉ before.map (·.name) ∧ old.name ∉ after.map (·.name) := by
  -- The names are distinct, so that the one at this place is at no other.
  have distinct := ledger.distinct
  rw [placed, List.map_append, List.map_cons, List.nodup_middle, List.nodup_cons] at distinct
  exact not_or.mp (List.mem_append.not.mp distinct.1)

/-- A record is exchanged in its place, and the others are kept. -/
theorem records_replace_of_placed (placed : ledger.records = before ++ old :: after)
    (same : record.name = old.name) :
    (ledger.replace record).records = before ++ record :: after := by
  obtain ⟨earlier, later⟩ := name_of_placed_notMem placed
  -- The name is in no other place, so that the exchange leaves both sides as they are.
  have parts : replaceIn record (before ++ old :: after) =
      replaceIn record before ++ record :: replaceIn record after := by
    simp [replaceIn, same]
  show replaceIn record ledger.records = before ++ record :: after
  rw [placed, parts, replaceIn_of_absent (same ▸ earlier), replaceIn_of_absent (same ▸ later)]

/-- A record is not taken up where its name is in the ledger. -/
theorem push_of_taken (taken : ledger.contains record.name = true) :
    ledger.push record = .error (.duplicate record.name) := by
  -- The name is looked up before anything is added.
  simp [push, taken]

/-- A list of records is added to a ledger as it is, provided that all names are distinct then. -/
theorem pushAll_eq_ok :
    ledger.pushAll records = .ok next ↔ next.records = ledger.records ++ records := by
  -- The induction is on the records, each of which is added to the ledger with those before it.
  induction records generalizing ledger with
  | nil =>
    rw [pushAll, List.append_nil, Except.ok.injEq]
    exact ⟨fun same => same ▸ rfl, fun same => (eq_of_records same).symm⟩
  | cons record rest ih =>
    rw [pushAll]
    cases taken : ledger.contains record.name with
    | true =>
      rw [push_of_taken taken]
      refine ⟨nofun, fun same => ?_⟩
      -- The name of the record would be there twice.
      exact absurd (contains_eq_true_iff.mp taken) (name_of_placed_notMem same).1
    | false =>
      obtain ⟨between, pushed, records⟩ := push_of_free taken
      rw [pushed]
      show between.pushAll rest = .ok next ↔ _
      rw [ih, records, List.append_assoc, List.singleton_append]

/-- Records that come in two parts are added one part after the other. -/
theorem pushAll_append (ledger : Ledger) (first second : List Migration) :
    ledger.pushAll (first ++ second) = (ledger.pushAll first).bind (·.pushAll second) := by
  -- By induction on the first records; an error among them ends both sides.
  induction first generalizing ledger with
  | nil => rfl
  | cons record rest ih =>
    rw [List.cons_append, pushAll, pushAll]
    cases ledger.push record with
    | error error => rfl
    | ok next => exact ih next

/-- Records are added up to the first one whose name is taken by then. -/
theorem pushAll_eq_error : ledger.pushAll records = .error error ↔
    ∃ before record after reached, records = before ++ record :: after ∧
      ledger.pushAll before = .ok reached ∧ reached.contains record.name = true ∧
      error = .duplicate record.name := by
  constructor
  · intro failed
    -- The induction is on the records, up to the one that is refused.
    induction records generalizing ledger with
    | nil => cases failed
    | cons record rest ih =>
      rw [pushAll] at failed
      -- The first record is taken already, or it is added and the refusal comes later.
      cases taken : ledger.contains record.name with
      | true =>
        rw [push_of_taken taken] at failed
        cases failed
        exact ⟨[], record, rest, ledger, rfl, rfl, taken, rfl⟩
      | false =>
        obtain ⟨next, pushed, -⟩ := push_of_free taken
        rw [pushed] at failed
        obtain ⟨before, repeated, after, reached, rfl, added, known, rfl⟩ := ih failed
        refine ⟨record :: before, repeated, after, reached, rfl, ?_, known, rfl⟩
        rw [pushAll, pushed]
        exact added
  · -- What comes before the repeated name is added, and what is behind it does not matter.
    rintro ⟨before, record, after, reached, rfl, added, taken, rfl⟩
    rw [pushAll_append, added]
    show reached.pushAll (record :: after) = _
    rw [pushAll, push_of_taken taken]
    rfl

/-- Records make up a ledger as they are. -/
theorem ofRecords_eq_ok : ofRecords records = .ok ledger ↔ ledger.records = records :=
  pushAll_eq_ok

/-- Records make up a ledger if their names are distinct. -/
theorem ofRecords_of_distinct (distinct : (records.map (·.name)).Nodup) :
    ofRecords records = .ok ⟨records, distinct⟩ :=
  ofRecords_eq_ok.mpr rfl

/-- Records are refused because of the first one that has the name of an earlier one. -/
theorem ofRecords_eq_error : ofRecords records = .error error ↔
    ∃ before record after, records = before ++ record :: after ∧
      (before.map (·.name)).Nodup ∧ record.name ∈ before.map (·.name) ∧
      error = .duplicate record.name := by
  -- The first record that is refused repeats a name of those before it.
  rw [ofRecords, pushAll_eq_error]
  constructor
  · rintro ⟨before, record, after, reached, rfl, added, taken, rfl⟩
    have same : reached.records = before := ofRecords_eq_ok.mp added
    rw [contains_eq_true_iff, names, same] at taken
    exact ⟨before, record, after, rfl, same ▸ reached.distinct, taken, rfl⟩
  · rintro ⟨before, record, after, rfl, distinct, taken, rfl⟩
    exact ⟨before, record, after, _, rfl, ofRecords_of_distinct distinct,
      contains_eq_true_iff.mpr taken, rfl⟩

/-- What becomes of records that are to make up a ledger: the first repeated name refuses them. -/
structure Assembles (records : List Migration) (result : Except MigrationError Ledger) : Prop where
  accepted : (∃ ledger, result = .ok ledger) ↔ (records.map (·.name)).Nodup
  kept : ∀ ledger, result = .ok ledger → ledger.records = records
  refused : ∀ error, result = .error error ↔
    ∃ before record after, records = before ++ record :: after ∧
      (before.map (·.name)).Nodup ∧ record.name ∈ before.map (·.name) ∧
      error = .duplicate record.name

/-- Records make up a ledger as they are, unless a name is repeated. -/
theorem assembles (records : List Migration) : Assembles records (ofRecords records) where
  accepted := by
    constructor
    · rintro ⟨made, accepted⟩
      exact ofRecords_eq_ok.mp accepted ▸ made.distinct
    · exact fun distinct => ⟨_, ofRecords_of_distinct distinct⟩
  kept _ := ofRecords_eq_ok.mp
  refused _ := ofRecords_eq_error

end SchemaLedger.Ledger
