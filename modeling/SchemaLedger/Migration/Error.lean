import SchemaLedger.Schema.Error
import SchemaLedger.Json.Fault

/-! Errors of migrations keep the cause, and put it into words in one place. -/

namespace SchemaLedger

/-- Why the file system refuses to read or write. -/
inductive FileRefusal where
  | notFound
  | notADirectory
  | isADirectory
  | alreadyExists
  | linkLoop
  | nameTooLong
  | denied
  /-- A path with the character that ends paths for the file system. -/
  | nulInPath
  /-- The bytes of a file are no text. -/
  | notText
  deriving DecidableEq, Repr

/-- The words for why the file system refuses. -/
def FileRefusal.message : FileRefusal → String
  | .notFound => "No such file or directory (os error 2)"
  | .notADirectory => "Not a directory (os error 20)"
  | .isADirectory => "Is a directory (os error 21)"
  | .alreadyExists => "File exists (os error 17)"
  | .linkLoop => "Too many levels of symbolic links (os error 40)"
  | .nameTooLong => "File name too long (os error 36)"
  | .denied => "Permission denied (os error 13)"
  | .nulInPath => "file name contained an unexpected NUL byte"
  | .notText => "stream did not contain valid UTF-8"

/-- Why a file holds no migration. -/
inductive FileFlaw where
  | nameNotText
  | noUpSection
  | noDownSection
  | sectionsOutOfOrder
  | artifact (fault : Json.LocatedFault)
  deriving DecidableEq, Repr

/-- The words for why a file holds no migration. -/
def FileFlaw.message : FileFlaw → String
  | .nameNotText => "file name is not valid UTF-8"
  | .noUpSection => "Up section not found"
  | .noDownSection => "Down section not found"
  | .sectionsOutOfOrder => "Up section must be before down section"
  | .artifact fault => fault.message

/-- Errors of loading and running migrations. -/
inductive MigrationError where
  | nameFormat (name : String)
  | duplicate (name : String)
  | bootstrap (reason : String)
  | ledgerConflict
  | upChanged (name : String)
  | scriptFailed (name script : String) (source : MigrationError)
  | schema (source : SchemaError)
  | file (refusal : FileRefusal)
  | unreadable (path : String) (flaw : FileFlaw)
  | unknownFileType (path : String)
  | unregistered (name : String)
  | document (fault : Json.LocatedFault)
  | store (reason : String)
  deriving DecidableEq, Repr

/-- The words for an error. -/
def MigrationError.message : MigrationError → String
  | .nameFormat name =>
    "Migration name '" ++ name ++ "' does not start with a numeric ordering prefix"
  | .duplicate name => "Migration '" ++ name ++ "' is defined more than once"
  | .bootstrap reason => "Failed to bootstrap the migration ledger: " ++ reason
  | .ledgerConflict => "Migration ledger was modified concurrently; refusing to overwrite it"
  | .upChanged name =>
    "Up migration '" ++ name ++ "' changed! This is not allowed outside development"
  | .scriptFailed name _ source => "Migration '" ++ name ++ "' failed: " ++ source.message
  | .schema source => "Schema error: " ++ source.message
  | .file refusal => "IO error: " ++ refusal.message
  | .unreadable path flaw => "Failed to parse migration file '" ++ path ++ "': " ++ flaw.message
  | .unknownFileType path => "Unknown migration file type: " ++ path
  | .unregistered name =>
    "Migration '" ++ name ++ "' has a source file but no registered definition or build artifact"
  | .document fault => "Serialization error: " ++ fault.message
  | .store reason => "Backend error: " ++ reason

/-- The words for the errors behind an error, nearest first. -/
def MigrationError.causes : MigrationError → List String
  | .scriptFailed _ _ source => source.message :: source.causes
  | .schema source => [source.message]
  | .file refusal => [refusal.message]
  | .document fault => [fault.message]
  | _ => []

end SchemaLedger
