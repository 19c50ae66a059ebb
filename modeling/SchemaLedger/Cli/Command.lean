import SchemaLedger.Cli.Option
import SchemaLedger.Load.Directory
import SchemaLedger.Text.Scan

/-! Commands load migrations, show them, or bring a database in line with them. -/

namespace SchemaLedger.Cli

/-- What the command line is asked to do. -/
inductive Command where
  | migrate (directories : List MigrationDirectory) (development : Bool)
  | status (directories : List MigrationDirectory)
  | ledger
  | init
  | render (file : String)
  deriving DecidableEq, Repr

/-- A command with what holds for all commands. -/
structure Invocation where
  database : Option String
  verbose : Bool
  command : Command
  deriving DecidableEq, Repr

/-- The option with the address of the database. -/
def databaseForm : OptionForm := { name := "database", short := some 'd', takesValue := true }

/-- The option for more output. -/
def verboseForm : OptionForm := { name := "verbose", short := some 'v' }

/-- The option for a directory of sources. -/
def sourceForm : OptionForm :=
  { name := "source", short := some 's', takesValue := true, repeatable := true, isPath := true }

/-- The option for a directory of artifacts. -/
def buildForm : OptionForm :=
  { name := "build", short := some 'b', takesValue := true, repeatable := true, isPath := true }

/-- The option for development. -/
def developmentForm : OptionForm := { name := "development" }

/-- The options of every level. -/
def sharedForms : List OptionForm := [databaseForm, verboseForm, helpForm]

/-- The variable with the address of the database. -/
def databaseVariable : String := "DATABASE_URL"

/-- The variable for development. -/
def developmentVariable : String := "KEEL_DEVELOPMENT"

/-- The directory of sources where none is given. -/
def defaultSource : String := "migrations"

/-- The directories to load from, sources before artifacts. -/
def directories (given : Given) : List MigrationDirectory :=
  let sources := given.values sourceForm.name
  -- The default only stands in for sources, even if there are artifacts.
  let sources := if sources.isEmpty then [defaultSource] else sources
  sources.map (⟨.source, ·⟩) ++ (given.values buildForm.name).map (⟨.build, ·⟩)

/-- Whether development is on, by an option or by a variable. -/
def development (environment : List (String × String)) (given : Given) : Except Stop Bool :=
  if given.has developmentForm.name then .ok true
  else match entryFor? developmentVariable environment with
    | none => .ok false
    | some "true" => .ok true
    | some "false" => .ok false
    -- Any other value is a mistake, and not taken for a no.
    | some _ => .error .misuse

/-- What is given behind a command with options of its own. -/
def readCommand (forms : List OptionForm) (maxWords : Nat) (arguments : List String) :
    Except Stop Given := do
  let level : Level := { forms := forms ++ sharedForms, maxWords }
  return (← readLevel level {} none arguments).1

/-- The names of all commands. -/
def commandNames : List String := ["migrate", "status", "ledger", "init", "render", "help"]

/-- The command under a name, with what is given behind the name. -/
def command (environment : List (String × String)) (name : String) (arguments : List String) :
    Except Stop (Command × Given) := do
  let folders := [sourceForm, buildForm]
  match name with
  | "migrate" =>
    let given ← readCommand (folders ++ [developmentForm]) 0 arguments
    return (.migrate (directories given) (← development environment given), given)
  | "status" =>
    let given ← readCommand folders 0 arguments
    return (.status (directories given), given)
  | "ledger" => return (.ledger, ← readCommand [] 0 arguments)
  | "init" => return (.init, ← readCommand [] 0 arguments)
  | "render" =>
    let given ← readCommand [] 1 arguments
    match given.words with
    | [file] => return (.render file, given)
    | _ => throw .misuse
  | "help" =>
    match arguments with
    | [] => throw .help
    | topic :: rest =>
      if commandNames.contains topic && rest.isEmpty then throw .help else throw .misuse
  | _ => throw .misuse

/-- The invocation that arguments and environment variables ask for. -/
def invocation (environment : List (String × String)) (arguments : List String) :
    Except Stop Invocation := do
  let top : Level := { forms := versionForm :: sharedForms, maxWords := 0, endsAtWord := true }
  let (shared, rest) ← readLevel top {} none arguments
  match rest with
  | [] => throw .misuse
  | name :: arguments =>
    let (command, given) ← command environment name arguments
    -- An option behind the command counts more than one before it.
    let database := (given.values databaseForm.name ++ shared.values databaseForm.name).head?
    return {
      database := database.or (entryFor? databaseVariable environment)
      verbose := shared.has verboseForm.name || given.has verboseForm.name
      command }

/-- The directories whose files a command reads. -/
def Command.directories : Command → List String
  | .migrate directories _ | .status directories => directories.map (·.path)
  | .ledger | .init | .render _ => []

/-- The single files that a command reads. -/
def Command.files : Command → List String
  | .render file => [file]
  | _ => []

/-- What a run of the program leaves: an exit code and two texts. -/
structure Outcome where
  exit : Nat
  output : String := ""
  errors : String := ""
  deriving DecidableEq, Repr

/-- The line for an event. -/
def eventLine (event : Event) : String :=
  let fields := event.fields.map fun (name, value) => " " ++ name ++ "=" ++ value
  let label := event.severity.label
  String.ofList (List.replicate (5 - label.length) ' ') ++ label ++ " " ++ event.message ++
    String.join fields ++ "\n"

/-- The lines for events, without details unless they are asked for. -/
def eventLines (verbose : Bool) (events : List Event) : String :=
  let shown := events.filter fun event => verbose || event.severity != .debug
  String.join (shown.map eventLine)

/-- The lines for the causes of an error, numbered if there are several. -/
def causeLines (causes : List String) : List String :=
  match causes with
  | [] => []
  | [cause] => ["", "Caused by:", "    " ++ cause]
  | _ => "" :: "Caused by:" :: causes.zipIdx.map fun (cause, index) =>
    "    " ++ decimalText index ++ ": " ++ cause

/-- The text for an error. -/
def errorText (message : String) (causes : List String) : String :=
  String.join ((("Error: " ++ message) :: causeLines causes).map (· ++ "\n"))

/-- The outcome of an error, behind what was written before it. -/
def failed (output : String) (error : MigrationError) : Outcome :=
  { exit := 1, output, errors := errorText error.message error.causes }

/-- What is missing where no database is named. -/
def noDatabase : String := "a database URL is required (--database or DATABASE_URL)"

/-- Why a named database cannot be reached. -/
def noDriver : String := "this build has no database driver"

/-- The outcome where a database is needed to go on. -/
def withoutDatabase (database : Option String) (output : String) : Outcome :=
  { exit := 1, output, errors := errorText (if database.isSome then noDriver else noDatabase) [] }

/-- The sections of a migration, for reading. -/
def rendered (migration : Migration) : String :=
  "name:        " ++ migration.name ++ "\ndescription: " ++ migration.description ++ "\n\n" ++
    trimEnd migration.up ++ "\n\n" ++ trimEnd migration.down ++ "\n"

/-- Loads migrations for a command, with the events that follow once they are loaded. -/
def loadFor (view : FileView) (invocation : Invocation) (directories : List MigrationDirectory)
    (loaded : List Migration → List Event) : Outcome :=
  let (result, events) := loadMigrations view directories .empty []
  match result with
  | .error error => failed (eventLines invocation.verbose events) error
  | .ok migrations =>
    withoutDatabase invocation.database
      (eventLines invocation.verbose (events ++ loaded migrations))

/-- The outcome of an invocation, as far as it gets without a database. -/
def run (view : FileView) (invocation : Invocation) : Outcome :=
  match invocation.command with
  | .render file =>
    match MigrationFile.read view file with
    | .ok migration => { exit := 0, output := rendered migration }
    | .error error => failed "" error
  | .init | .ledger => withoutDatabase invocation.database ""
  | .status directories => loadFor view invocation directories fun _ => []
  | .migrate directories development =>
    loadFor view invocation directories fun migrations =>
      .migrationsLoaded migrations.length :: if development then [.developmentAnnounced] else []

/-- The name of the program with its version. -/
def versionText : String := "keel-migrate 0.1.0\n"

/-- How the program is used. -/
def usageText : String :=
  "Usage: keel-migrate [OPTIONS] <COMMAND>\n\nCommands: migrate, status, ledger, init, render\n"

/-- The outcome of the program for its environment variables and arguments. -/
def outcome (view : FileView) (environment : List (String × String)) (arguments : List String) :
    Outcome :=
  match invocation environment arguments with
  | .error .help => { exit := 0, output := usageText }
  | .error .version => { exit := 0, output := versionText }
  | .error .misuse => { exit := 2, errors := usageText }
  | .ok invocation => run view invocation

end SchemaLedger.Cli
