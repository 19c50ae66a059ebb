/-! Paths are texts in which slashes separate the names of directories and files. -/

namespace SchemaLedger.Path

/-- The parts of a list between separators. -/
def pieces {α : Type} [DecidableEq α] (separator : α) : List α → List (List α)
  | [] => [[]]
  | item :: rest =>
    if item = separator then [] :: pieces separator rest
    else match pieces separator rest with
      | [] => [[item]]
      | piece :: others => (item :: piece) :: others

/-- The names along a path, without those that lead nowhere else. -/
def components (path : String) : List String :=
  ((pieces '/' path.toList).map String.ofList).filter fun name => name != "" && name != "."

/-- A path that starts at the root of all files. -/
def isAbsolute (path : String) : Bool := path.toList.head? == some '/'

/-- The path of a name below a directory. -/
def join (directory name : String) : String :=
  if directory = "" ∨ isAbsolute name then name
  else if directory.toList.getLast? = some '/' then directory ++ name
  else directory ++ "/" ++ name

/-- The name of the file at a path. -/
def fileName? (path : String) : Option String :=
  match (components path).getLast? with
  | some name => if name = ".." then none else some name
  | none => none

/-- A name around its last dot, if it has a dot. -/
def splitAtLastDot? (name : String) : Option (String × String) :=
  let reversed := name.toList.reverse
  match reversed.dropWhile (· != '.') with
  | [] => none
  | _ :: before =>
    some (String.ofList before.reverse, String.ofList (reversed.takeWhile (· != '.')).reverse)

/-- The stem and the extension of a file name, where a dot in front belongs to the stem. -/
def splitName (name : String) : String × Option String :=
  match splitAtLastDot? name with
  | some (stem, extension) => if stem = "" then (name, none) else (stem, some extension)
  | none => (name, none)

/-- The name of the file at a path without its extension. -/
def stem? (path : String) : Option String := (fileName? path).map fun name => (splitName name).1

/-- The extension of the file at a path. -/
def extension? (path : String) : Option String :=
  (fileName? path).bind fun name => (splitName name).2

end SchemaLedger.Path
