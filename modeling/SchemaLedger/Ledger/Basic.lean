import SchemaLedger.Migration.Basic
import SchemaLedger.Migration.Error

/-! The ledger lists the applied migrations in the order of their application, each name once. -/

namespace SchemaLedger

/-- The applied migrations, whose names are distinct. -/
structure Ledger where
  records : List Migration
  distinct : (records.map (·.name)).Nodup
  deriving DecidableEq

namespace Ledger

/-- The ledger before any migration is applied. -/
def empty : Ledger := ⟨[], List.nodup_nil⟩

/-- The names in the ledger. -/
def names (ledger : Ledger) : List String := ledger.records.map (·.name)

/-- The number of applied migrations. -/
def size (ledger : Ledger) : Nat := ledger.records.length

/-- No migration has been applied. -/
def isEmpty (ledger : Ledger) : Bool := ledger.records.isEmpty

/-- The record under a name. -/
def get? (ledger : Ledger) (name : String) : Option Migration :=
  ledger.records.find? (·.name == name)

/-- The ledger has a record under a name. -/
def contains (ledger : Ledger) (name : String) : Bool := (ledger.get? name).isSome

/-- A name without a record is not among the names. -/
theorem not_mem_names {ledger : Ledger} {name : String} (absent : ledger.contains name = false) :
    name ∉ ledger.records.map (·.name) := by
  -- A name is looked up among the records.
  simpa [contains, get?] using absent

/-- A ledger with one more record at its end, unless the name is taken. -/
def push (ledger : Ledger) (record : Migration) : Except MigrationError Ledger :=
  if taken : ledger.contains record.name then .error (.duplicate record.name)
  else .ok ⟨ledger.records ++ [record], by
    -- The names stay distinct, because the new one is free.
    have absent := not_mem_names (by simpa using taken)
    simp only [List.map_append, List.map_cons, List.map_nil]
    refine List.nodup_append.mpr ⟨ledger.distinct, by simp, fun name member other single => ?_⟩
    rw [List.mem_singleton.mp single]
    exact fun same => absent (same ▸ member)⟩

/-- Records in which the one with the same name has been exchanged for a new one. -/
def replaceIn (record : Migration) (records : List Migration) : List Migration :=
  records.map fun old => if old.name = record.name then record else old

/-- Exchanging a record for one of the same name leaves the names as they are. -/
theorem replaceIn_names (record : Migration) (records : List Migration) :
    (replaceIn record records).map (·.name) = records.map (·.name) := by
  -- Each record keeps its name, as one that is replaced has that of the replacement.
  simp only [replaceIn, List.map_map, List.map_inj_left, Function.comp_apply]
  intro old _
  split
  · rename_i same
    exact same.symm
  · rfl

/-- A ledger in which the record with the same name has been exchanged, in its place. -/
def replace (ledger : Ledger) (record : Migration) : Ledger :=
  ⟨replaceIn record ledger.records, by rw [replaceIn_names]; exact ledger.distinct⟩

/-- A ledger without the record under a name. -/
def remove (ledger : Ledger) (name : String) : Ledger :=
  ⟨ledger.records.filter (·.name != name),
    ledger.distinct.sublist (List.Sublist.map _ List.filter_sublist)⟩

/-- A ledger in which a record has been exchanged, if there was one of the same name. -/
def replace? (ledger : Ledger) (record : Migration) : Option Ledger :=
  if ledger.contains record.name then some (ledger.replace record) else none

/-- The record under a name, if there is one, and the ledger without it. -/
def remove? (ledger : Ledger) (name : String) : Option (Migration × Ledger) :=
  (ledger.get? name).map fun record => (record, ledger.remove name)

/-- A ledger with further records at its end, up to the first whose name is taken. -/
def pushAll (ledger : Ledger) : List Migration → Except MigrationError Ledger
  | [] => .ok ledger
  | record :: rest => do (← ledger.push record).pushAll rest

/-- The ledger with the given records, whose names must be distinct. -/
def ofRecords (records : List Migration) : Except MigrationError Ledger := empty.pushAll records

end Ledger

end SchemaLedger
