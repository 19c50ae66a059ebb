import SchemaLedger.Text.Utf8
import SchemaLedger.Migration.Error

/-! A view of files is all that reading migrations needs to know about a file system. -/

namespace SchemaLedger

/-- A name in a directory. -/
structure DirectoryEntry where
  name : RawText
  /-- A file, and not a directory or a link, even to a file. -/
  isFile : Bool
  deriving DecidableEq, Repr

/-- What listing directories and reading files gives. -/
structure FileView where
  list : String → Except FileRefusal (List DirectoryEntry)
  read : String → Except FileRefusal RawText

/-- The text of a file. -/
def FileView.readText (view : FileView) (path : String) : Except MigrationError String :=
  match view.read path with
  | .error refusal => .error (.file refusal)
  | .ok (.text text) => .ok text
  | .ok (.binary _) => .error (.file .notText)

end SchemaLedger
