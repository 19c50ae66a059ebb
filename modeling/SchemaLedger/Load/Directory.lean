import SchemaLedger.Event
import SchemaLedger.Load.File
import SchemaLedger.Registry

/-! Migrations are loaded from source directories, and compiled ones from build directories. -/

namespace SchemaLedger

/-- What a directory of migrations holds. -/
inductive DirectoryKind where
  /-- Scripts, and sources that stand for registered definitions. -/
  | source
  /-- Artifacts, which count only together with a source. -/
  | build
  deriving DecidableEq, Repr

/-- A directory to load migrations from. -/
structure MigrationDirectory where
  kind : DirectoryKind
  path : String
  deriving DecidableEq, Repr

/-- An activity that reports events, and may end with an error. -/
abbrev Loading (α : Type) := ExceptT MigrationError (StateM (List Event)) α

/-- Reports an event while loading. -/
def Loading.report (event : Event) : Loading Unit := fun events => (.ok (), events ++ [event])

/-- A file of a directory, with its name split at the last dot. -/
structure FileEntry where
  stem : String
  extension : String
  path : String
  deriving DecidableEq, Repr

namespace FileEntry

/-- The entry of a name in a directory. -/
def ofName (directory name : String) : FileEntry :=
  match Path.splitAtLastDot? name with
  | some (stem, extension) => ⟨stem, extension, Path.join directory name⟩
  | none => ⟨name, "", Path.join directory name⟩

/-- The entries of the files in a directory that are not hidden, up to a name that is no text. -/
def ofListing (directory : String) :
    List DirectoryEntry → Except MigrationError (List FileEntry)
  | [] => .ok []
  | entry :: rest =>
    match entry.name with
    -- Hidden or not, a name that is no text cannot name a migration.
    | .binary _ => .error (.unreadable (Path.join directory entry.name.display) .nameNotText)
    | .text name => do
      let others ← ofListing directory rest
      if name.toList.head? = some '.' ∨ !entry.isFile then return others
      else return ofName directory name :: others

/-- The files of a directory in order of their paths. -/
def list (view : FileView) (directory : String) : Except MigrationError (List FileEntry) :=
  match view.list directory with
  | .error refusal => .error (.file refusal)
  | .ok listing =>
    (ofListing directory listing).map (·.mergeSort fun left right => left.path ≤ right.path)

end FileEntry

/-- The files found in all directories: sources in order, and the last artifact for each stem. -/
structure Found where
  sources : List FileEntry := []
  artifacts : Keyed String := .empty

namespace Found

/-- Adds the files of a build directory, of which only artifacts are of interest. -/
def addBuild (found : Found) : List FileEntry → Loading Found
  | [] => return found
  | entry :: rest => do
    if entry.extension = MigrationFile.artifactExtension then
      -- A later artifact with this stem takes the place of the earlier one.
      addBuild { found with artifacts := found.artifacts.insert entry.stem entry.path } rest
    else
      Loading.report (.buildFileIgnored entry.path)
      addBuild found rest

/-- Adds the files of all directories in turn. -/
def addAll (view : FileView) (found : Found) : List MigrationDirectory → Loading Found
  | [] => return found
  | directory :: rest => do
    let entries ← FileEntry.list view directory.path
    match directory.kind with
    | .source => addAll view { found with sources := found.sources ++ entries } rest
    | .build => do addAll view (← found.addBuild entries) rest

end Found

/-- The migration of a source, and whether an artifact was needed for it. -/
def resolveSource (view : FileView) (registry : Registry) (artifacts : Keyed String)
    (entry : FileEntry) : Loading (Migration × Bool) := do
  if MigrationFile.scriptExtensions.contains entry.extension then
    return (← MigrationFile.readScript view entry.path, false)
  else if entry.extension = MigrationFile.sourceExtension then
    match ← registry.compile? entry.stem with
    | some migration => do
      Loading.report (.resolvedFromRegistry entry.stem)
      return (migration, false)
    | none =>
      -- A source without a registered definition must have been compiled before.
      match artifacts.get? entry.stem with
      | some path => do
        Loading.report (.resolvedFromArtifact entry.stem path)
        return (← MigrationFile.readArtifact view path, true)
      | none => throw (.unregistered entry.stem)
  else throw (.unknownFileType entry.path)

/-- The migrations of sources in turn, with the stems whose artifacts were needed. -/
def resolveSources (view : FileView) (registry : Registry) (artifacts : Keyed String) :
    List FileEntry → Loading (List Migration × List String)
  | [] => return ([], [])
  | entry :: rest => do
    let (migration, fromArtifact) ← resolveSource view registry artifacts entry
    let (migrations, needed) ← resolveSources view registry artifacts rest
    return (migration :: migrations, if fromArtifact then entry.stem :: needed else needed)

/-- The artifacts that no source asked for, in order of their paths. -/
def leftOver (artifacts : Keyed String) (needed : List String) : List (String × String) :=
  (artifacts.entries.filter fun entry => !needed.contains entry.1).mergeSort fun left right =>
    left.2 ≤ right.2

/-- The migrations of all directories, in the order of their sources. -/
def loadMigrations (view : FileView) (directories : List MigrationDirectory)
    (registry : Registry) : Loading (List Migration) := do
  let found ← Found.addAll view {} directories
  let (migrations, needed) ← resolveSources view registry found.artifacts found.sources
  -- Artifacts are only reported where nothing has failed.
  (leftOver found.artifacts needed).forM fun (name, path) =>
    Loading.report (.artifactSkipped name path)
  return migrations

end SchemaLedger
