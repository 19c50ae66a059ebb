import SchemaLedger.Files.Tree
import SchemaLedger.Load.Directory

/-! Building writes an artifact for every registered migration into one directory. -/

namespace SchemaLedger

/-- An activity that changes a file tree, reports events, and may end with an error. -/
abbrev Building (α : Type) := ExceptT MigrationError (StateM (FileTree × List Event)) α

namespace Building

/-- Changes the tree, unless the file system refuses. -/
def change (action : FileTree → Except FileRefusal FileTree) : Building Unit
  | (tree, events) => match action tree with
    | .ok tree => (.ok (), tree, events)
    | .error refusal => (.error (.file refusal), tree, events)

/-- Reports an event while building. -/
def report (event : Event) : Building Unit := fun (tree, events) =>
  (.ok (), tree, events ++ [event])

/-- Writes artifacts one after the other, and returns their paths. -/
def writeAll (directory : String) : List Migration → Building (List String)
  | [] => return []
  | migration :: rest => do
    let path := Path.join directory (migration.name ++ "." ++ MigrationFile.artifactExtension)
    change (·.writeText path (Artifact.ofMigration migration).text)
    report (.artifactWritten path)
    return path :: (← writeAll directory rest)

end Building

/-- Writes the artifacts of a registry, all of whose definitions must compile. -/
def buildArtifacts (registry : Registry) (directory : String) : Building (List String) := do
  Building.change (·.createDirectories directory)
  -- No artifact is written unless all definitions compile.
  let migrations ← registry.records
  Building.writeAll directory migrations

end SchemaLedger
