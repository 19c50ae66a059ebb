/-! Command line arguments are options, their values and plain words, and each level has its own. -/

namespace SchemaLedger.Cli

/-- An option that a level of the command line knows. -/
structure OptionForm where
  name : String
  short : Option Char := none
  takesValue : Bool := false
  /-- The option may be given several times. -/
  repeatable : Bool := false
  /-- The value is a path, and so not empty. -/
  isPath : Bool := false
  deriving DecidableEq, Repr

/-- What has been given on one level, each option with its value if it takes one. -/
structure Given where
  options : List (String × String) := []
  words : List String := []
  deriving DecidableEq, Repr

namespace Given

/-- An option has been given. -/
def has (given : Given) (name : String) : Bool := given.options.any (·.1 == name)

/-- The values of an option, in the order given. -/
def values (given : Given) (name : String) : List String :=
  given.options.filterMap fun (option, value) => if option = name then some value else none

end Given

/-- Why the reading of arguments ends before the command is known. -/
inductive Stop where
  | help
  | version
  /-- The arguments make no sense. -/
  | misuse
  deriving DecidableEq, Repr

/-- What a level of the command line accepts. -/
structure Level where
  forms : List OptionForm
  /-- The number of plain words behind which no more are accepted. -/
  maxWords : Nat
  /-- The first plain word is a command, and what follows belongs to it. -/
  endsAtWord : Bool := false

/-- The option for help, which every level has. -/
def helpForm : OptionForm := { name := "help", short := some 'h' }

/-- The option for the version. -/
def versionForm : OptionForm := { name := "version", short := some 'V' }

/-- Records an option, or does what it asks for at once. -/
def Given.add (given : Given) (form : OptionForm) (value : String) : Except Stop Given :=
  if form.name = helpForm.name then .error .help
  else if form.name = versionForm.name then .error .version
  else if form.isPath ∧ value = "" then .error .misuse
  else if given.has form.name ∧ !form.repeatable then .error .misuse
  else .ok { given with options := given.options ++ [(form.name, value)] }

/-- An argument that looks like an option, and so cannot be a value. -/
def looksLikeOption (argument : String) : Bool :=
  match argument.toList with
  | '-' :: _ :: _ => true
  | _ => false

/-- The name and the value of a long option, which an equals sign separates. -/
def splitLong (text : List Char) : String × Option String :=
  let name := text.takeWhile (· != '=')
  (String.ofList name, match text.dropWhile (· != '=') with
    | _ :: value => some (String.ofList value)
    | [] => none)

/-- Short options in one argument, and the form that still waits for its value, if one does. -/
def readShorts (forms : List OptionForm) (given : Given) :
    List Char → Except Stop (Given × Option OptionForm)
  | [] => .ok (given, none)
  | letter :: rest =>
    match forms.find? (·.short == some letter) with
    | none => .error .misuse
    | some form =>
      if !form.takesValue then do readShorts forms (← given.add form "") rest
      -- An option with a value takes the rest of the argument, or else the next argument.
      else match rest with
        | [] => .ok (given, some form)
        | '=' :: value => (given.add form (String.ofList value)).map (·, none)
        | value => (given.add form (String.ofList value)).map (·, none)

/-- One argument that looks like an option, and the form that still waits for its value. -/
def readOption (forms : List OptionForm) (given : Given) (argument : String) :
    Except Stop (Given × Option OptionForm) :=
  match argument.toList with
  | '-' :: '-' :: text =>
    let (name, value) := splitLong text
    match forms.find? (·.name == name), value with
    | none, _ => .error .misuse
    | some form, some value =>
      if form.takesValue then (given.add form value).map (·, none) else .error .misuse
    | some form, none =>
      if form.takesValue then .ok (given, some form) else (given.add form "").map (·, none)
  | _ => readShorts forms given (argument.toList.drop 1)

/-- Adds a plain word, of which there may not be too many. -/
def addWord (level : Level) (given : Given) (word : String) : Except Stop Given :=
  -- All plain words of this command line are paths.
  if given.words.length < level.maxWords ∧ word ≠ "" then
    .ok { given with words := given.words ++ [word] }
  else .error .misuse

/-- What is given on a level, and the arguments from the command on. -/
def readLevel (level : Level) (given : Given) (awaiting : Option OptionForm) :
    List String → Except Stop (Given × List String)
  | [] => if awaiting.isSome then .error .misuse else .ok (given, [])
  | argument :: rest =>
    match awaiting with
    | some form =>
      if looksLikeOption argument then .error .misuse
      else do readLevel level (← given.add form argument) none rest
    | none =>
      -- Behind two hyphens even what looks like an option is a word.
      if argument = "--" then do
        let given ← rest.foldlM (addWord level) given
        return (given, [])
      else if looksLikeOption argument then do
        let (given, awaiting) ← readOption level.forms given argument
        readLevel level given awaiting rest
      else if level.endsAtWord then .ok (given, argument :: rest)
      else do readLevel level (← addWord level given argument) none rest

end SchemaLedger.Cli
