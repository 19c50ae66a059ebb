import SchemaLedger.Json.Record
import SchemaLedger.Migration.Basic

/-! An artifact is a compiled migration in a JSON file, which is named after the migration. -/

namespace SchemaLedger

/-- The scripts of a compiled migration, as an artifact keeps them. -/
structure Artifact where
  description : String
  up : String
  down : String
  deriving DecidableEq, Repr

namespace Artifact

/-- The artifact of a migration. -/
def ofMigration (migration : Migration) : Artifact :=
  ⟨migration.description, migration.up, migration.down⟩

/-- The migration of an artifact under a name. -/
def toMigration (artifact : Artifact) (name : String) : Migration where
  name
  up := artifact.up
  down := artifact.down
  description := artifact.description

/-- The object of an artifact. -/
def toJson (artifact : Artifact) : Json :=
  .object [("description", .string artifact.description), ("up", .string artifact.up),
    ("down", .string artifact.down)]

/-- The text of an artifact. -/
def text (artifact : Artifact) : String := artifact.toJson.pretty

/-- The fields of an artifact that have been read so far. -/
structure Draft where
  description : Option String := none
  up : Option String := none
  down : Option String := none

/-- The fields of an artifact. -/
def shape : Json.RecordShape Draft where
  title := "struct BuildArtifact"
  blank := {}
  slots := [
    ⟨"description", true, fun draft => draft.description.isSome, fun draft text => do
      let (value, rest) ← Json.readText text
      return ({ draft with description := some value }, rest)⟩,
    ⟨"up", true, fun draft => draft.up.isSome, fun draft text => do
      let (value, rest) ← Json.readText text
      return ({ draft with up := some value }, rest)⟩,
    ⟨"down", true, fun draft => draft.down.isSome, fun draft text => do
      let (value, rest) ← Json.readText text
      return ({ draft with down := some value }, rest)⟩]

/-- The artifact of a draft whose fields have been read. -/
def Draft.finish (draft : Draft) : Artifact :=
  ⟨draft.description.getD "", draft.up.getD "", draft.down.getD ""⟩

/-- The artifact that a text stands for. -/
def ofText (text : String) : Except Json.LocatedFault Artifact :=
  Json.decode (fun text => do
    let (draft, rest) ← shape.read text
    return (draft.finish, rest)) text

end Artifact

end SchemaLedger
