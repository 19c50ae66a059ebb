import SchemaLedger.Json.Record
import SchemaLedger.Time.Stamp
import SchemaLedger.Ledger.Basic

/-! The ledger is stored as a JSON document with the list of its records. -/

namespace SchemaLedger

open Json (Slot RecordShape readText readOptional readList readTextAs misfitAt)

/-- What a time stamp should have been. -/
def stampExpected : String := "an RFC 3339 formatted date and time string"

/-- A time stamp within JSON text. -/
def readStamp (text : List Char) : Except Json.ReadError (Instant × List Char) := do
  let (stamp, rest) ← readTextAs stampExpected text
  match Instant.ofText? stamp with
  | some moment => return (moment, rest)
  | none => misfitAt .badInstant rest

namespace Migration

/-- The object of a record, without a time where there is none. -/
def toJson (record : Migration) : Json :=
  .object ([("name", .string record.name), ("up", .string record.up),
    ("down", .string record.down), ("description", .string record.description)] ++
    record.appliedAt.toList.map fun moment => ("applied_at", .string moment.text))

/-- The fields of a record that have been read so far. -/
structure Draft where
  name : Option String := none
  up : Option String := none
  down : Option String := none
  description : Option String := none
  appliedAt : Option (Option Instant) := none

/-- The fields of a record. -/
def shape : RecordShape Draft where
  title := "struct MigrationRecord"
  blank := {}
  slots := [
    ⟨"name", true, fun draft => draft.name.isSome, fun draft text => do
      let (value, rest) ← readText text
      return ({ draft with name := some value }, rest)⟩,
    ⟨"up", true, fun draft => draft.up.isSome, fun draft text => do
      let (value, rest) ← readText text
      return ({ draft with up := some value }, rest)⟩,
    ⟨"down", true, fun draft => draft.down.isSome, fun draft text => do
      let (value, rest) ← readText text
      return ({ draft with down := some value }, rest)⟩,
    ⟨"description", true, fun draft => draft.description.isSome, fun draft text => do
      let (value, rest) ← readText text
      return ({ draft with description := some value }, rest)⟩,
    ⟨"applied_at", false, fun draft => draft.appliedAt.isSome, fun draft text => do
      let (value, rest) ← readOptional readStamp text
      return ({ draft with appliedAt := some value }, rest)⟩]

/-- The record of a draft whose required fields have been read. -/
def Draft.finish (draft : Draft) : Migration where
  name := draft.name.getD ""
  up := draft.up.getD ""
  down := draft.down.getD ""
  description := draft.description.getD ""
  appliedAt := draft.appliedAt.getD none

/-- A record within JSON text. -/
def read (text : List Char) : Except Json.ReadError (Migration × List Char) := do
  let (draft, rest) ← shape.read text
  return (draft.finish, rest)

end Migration

namespace Ledger

/-- The document of a ledger. -/
def document (ledger : Ledger) : Json :=
  .object [("list", .array (ledger.records.map Migration.toJson))]

/-- The fields of the document. -/
def shape : RecordShape (Option (List Migration)) where
  title := "struct LedgerDocument"
  blank := none
  slots := [⟨"list", true, Option.isSome, fun _ text => do
    let (records, rest) ← readList Migration.read text
    return (some records, rest)⟩]

/-- The records of a document within JSON text. -/
def readDocument (text : List Char) : Except Json.ReadError (List Migration × List Char) := do
  let (records, rest) ← shape.read text
  return (records.getD [], rest)

/-- The ledger of a stored document. -/
def ofDocument (text : String) : Except MigrationError Ledger :=
  match Json.decode readDocument text with
  | .error fault => .error (.document fault)
  | .ok records => ofRecords records

end Ledger

end SchemaLedger
