import SchemaLedger.Files.Path
import SchemaLedger.Files.View
import SchemaLedger.Load.Artifact
import SchemaLedger.Migration.Script

/-! Migration files are scripts or artifacts, told apart by their extensions. -/

namespace SchemaLedger.MigrationFile

/-- The extensions of script files. -/
def scriptExtensions : List String := ["pgsql", "sql"]

/-- The extension of files that stand for a registered definition. -/
def sourceExtension : String := "rs"

/-- The extension of artifacts. -/
def artifactExtension : String := "json"

/-- The name of the migration in the file at a path. -/
def migrationName (path : String) : Except MigrationError String :=
  match Path.stem? path with
  | some name => .ok name
  | none => .error (.unreadable path .nameNotText)

/-- The migration in a script file. -/
def readScript (view : FileView) (path : String) : Except MigrationError Migration := do
  let text ← view.readText path
  let name ← migrationName path
  match Script.read name text with
  | .ok migration => return migration
  | .error flaw => throw (.unreadable path flaw)

/-- The migration in an artifact. -/
def readArtifact (view : FileView) (path : String) : Except MigrationError Migration := do
  let text ← view.readText path
  let name ← migrationName path
  match Artifact.ofText text with
  | .ok artifact => return artifact.toMigration name
  | .error fault => throw (.unreadable path (.artifact fault))

/-- The migration in a script file or an artifact, whichever the extension says. -/
def read (view : FileView) (path : String) : Except MigrationError Migration :=
  match Path.extension? path with
  | some extension =>
    if extension = artifactExtension then readArtifact view path
    else if scriptExtensions.contains extension then readScript view path
    else .error (.unknownFileType path)
  | none => .error (.unknownFileType path)

end SchemaLedger.MigrationFile
