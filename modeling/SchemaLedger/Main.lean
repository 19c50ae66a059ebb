import SchemaLedger.Cli.Command

/-! The program takes a picture of the files that its command reads, and prints the outcome. -/

namespace SchemaLedger.Program

/-- The refusal that an error of the file system stands for. -/
def refusal : IO.Error → FileRefusal
  | .noFileOrDirectory .. => .notFound
  | .inappropriateType _ code _ => if code = 21 then .isADirectory else .notADirectory
  | .alreadyExists .. => .alreadyExists
  | .permissionDenied .. => .denied
  | .invalidArgument _ code _ => if code = 40 then .linkLoop else .nameTooLong
  | _ => .notFound

/-- What an activity gives, with the refusal where the file system refuses it. -/
def observe {α : Type} (action : IO α) : IO (Except FileRefusal α) := do
  try
    return .ok (← action)
  catch error => return .error (refusal error)

/-- The content of a file. -/
def readFile (path : String) : IO (Except FileRefusal RawText) :=
  observe do return RawText.ofBytes (← IO.FS.readBinFile path).toList

/-- The entries of a directory. -/
def listDirectory (path : String) : IO (Except FileRefusal (List DirectoryEntry)) :=
  observe do
    let here ← IO.currentDir
    let entries ← (here / path).readDir
    entries.toList.mapM fun entry => do
      -- A link is not followed, so that it does not count as a file.
      let metadata ← entry.path.symlinkMetadata
      return ⟨.text entry.fileName, metadata.type == .file⟩

/-- The names of the files in a listing. -/
def fileNames (listing : Except FileRefusal (List DirectoryEntry)) : List String :=
  match listing with
  | .ok entries => entries.filterMap fun entry => if entry.isFile then entry.name.text? else none
  | .error _ => []

/-- A view of some directories with their files, and of some single files. -/
def picture (directories files : List String) : IO FileView := do
  let listings ← directories.mapM fun path => do return (path, ← listDirectory path)
  let inside := listings.flatMap fun (path, listing) => (fileNames listing).map (Path.join path)
  let contents ← (files ++ inside).mapM fun path => do return (path, ← readFile path)
  return ⟨fun path => (entryFor? path listings).getD (.error .notFound),
    fun path => (entryFor? path contents).getD (.error .notFound)⟩

/-- The environment variables that the program looks at. -/
def environment : IO (List (String × String)) :=
  [Cli.databaseVariable, Cli.developmentVariable].filterMapM fun name => do
    return (← IO.getEnv name).map fun value => (name, value)

end SchemaLedger.Program

open SchemaLedger in
/-- Runs the program, and returns its exit code. -/
def main (arguments : List String) : IO UInt32 := do
  let environment ← Program.environment
  let (directories, files) := match Cli.invocation environment arguments with
    | .ok invocation => (invocation.command.directories, invocation.command.files)
    | .error _ => ([], [])
  let view ← Program.picture directories files
  let outcome := Cli.outcome view environment arguments
  (← IO.getStdout).putStr outcome.output
  (← IO.getStderr).putStr outcome.errors
  return UInt32.ofNat outcome.exit
