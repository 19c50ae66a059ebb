import SchemaLedger.Files.Route
import SchemaLedger.Files.View

/-! A file tree holds files, directories and links, and says where routes lead. -/

namespace SchemaLedger

/-- What a name stands for. -/
inductive FileNode where
  | file (content : RawText)
  | directory
  | link (target : String)
  deriving DecidableEq, Repr

/-- The names on the way from the root of all files. -/
abbrev Location := List RawText

/-- Files by their location; the root and the working directory are always there. -/
structure FileTree where
  nodes : List (Location × FileNode) := []
  deriving DecidableEq, Repr

namespace FileTree

/-- The working directory, which has a name that no path can spell. -/
def workingDirectory : Location := [.binary []]

/-- What is at a location. -/
def node? (tree : FileTree) (location : Location) : Option FileNode :=
  if location = [] ∨ location = workingDirectory then some .directory
  else (tree.nodes.find? (·.1 == location)).map (·.2)

/-- A tree without what was at a location. -/
def remove (tree : FileTree) (location : Location) : FileTree :=
  ⟨tree.nodes.filter (·.1 != location)⟩

/-- A tree with a node at a location, in place of what was there. -/
def set (tree : FileTree) (location : Location) (node : FileNode) : FileTree :=
  ⟨(location, node) :: (tree.remove location).nodes⟩

/-- The names directly below a location, in no particular order. -/
def children (tree : FileTree) (location : Location) : List (RawText × FileNode) :=
  tree.nodes.filterMap fun (below, node) =>
    match below.getLast? with
    | some name => if below.dropLast = location then some (name, node) else none
    | none => none

/-- Where a route starts. -/
def start (route : Route) : Location := if route.fromRoot then [] else workingDirectory

/-- How many links may be followed on the way to a file. -/
def maxLinks : Nat := 40

/-- Where names lead from a directory, with all links followed; the last name may be new only in
order to create a file. -/
def walk (tree : FileTree) (toCreate : Bool) (links : Nat) (location : Location)
    (names : List RawText) (toDirectory : Bool) : Except FileRefusal Location :=
  match names with
  | [] => .ok location
  | name :: rest =>
    if name = Route.here then tree.walk toCreate links location rest toDirectory
    -- Nothing is above the root but the root itself.
    else if name = Route.above then tree.walk toCreate links location.dropLast rest toDirectory
    -- No file can be created where only a directory can be meant.
    else if toCreate ∧ toDirectory ∧ rest = [] then .error .isADirectory
    else if Route.maxNameBytes < name.byteSize then .error .nameTooLong
    else
      let below := location ++ [name]
      match tree.node? below with
      | none => if toCreate ∧ rest = [] then .ok below else .error .notFound
      | some .directory => tree.walk toCreate links below rest toDirectory
      | some (.file _) =>
        if rest = [] ∧ !toDirectory then .ok below else .error .notADirectory
      | some (.link target) =>
        match links with
        | 0 => .error .linkLoop
        | fewer + 1 =>
          let route := Route.ofText target
          -- How the target ends matters only where the link itself is at the end.
          tree.walk toCreate fewer (if route.fromRoot then [] else location) (route.names ++ rest)
            (toDirectory || (rest.isEmpty && route.toDirectory))
termination_by (links, names.length)

/-- What a route leads to, and where that is. -/
def lookUp (tree : FileTree) (route : Route) : Except FileRefusal (Location × FileNode) := do
  let location ← tree.walk false maxLinks (start route) route.names route.toDirectory
  match tree.node? location with
  | some node => return (location, node)
  | none => throw .notFound

/-- Where the directory is that a route leads to. -/
def directory (tree : FileTree) (route : Route) : Except FileRefusal Location := do
  return (← tree.lookUp { route with toDirectory := true }).1

/-- The names in the directory that a route leads to. -/
def list (tree : FileTree) (route : Route) : Except FileRefusal (List DirectoryEntry) := do
  let location ← tree.directory route
  return (tree.children location).map fun (name, node) =>
    ⟨name, match node with | .file _ => true | _ => false⟩

/-- The content of the file that a route leads to. -/
def read (tree : FileTree) (route : Route) : Except FileRefusal RawText := do
  match (← tree.lookUp route).2 with
  | .file content => return content
  | _ => throw .isADirectory

/-- The view of a tree. -/
def view (tree : FileTree) : FileView where
  list path := do tree.list (← Route.ofPath path)
  read path := do tree.read (← Route.ofPath path)

/-- A tree with some content in the file that a route leads to. -/
def write (tree : FileTree) (route : Route) (content : RawText) : Except FileRefusal FileTree := do
  let location ← tree.walk true maxLinks (start route) route.names route.toDirectory
  if tree.node? location = some .directory then throw .isADirectory
  return tree.set location (.file content)

/-- The location that a route names, whose last name is not followed if it is a link. -/
def namedLocation (tree : FileTree) (route : Route) : Except FileRefusal Location :=
  match route.names.getLast? with
  | none => .ok (start route)
  | some name => do
    let parent ← tree.directory { route with names := route.names.dropLast }
    -- A route that ends in a dot or two names a directory that is there already.
    if name = Route.here then return parent
    if name = Route.above then return parent.dropLast
    if Route.maxNameBytes < name.byteSize then throw .nameTooLong
    return parent ++ [name]

/-- A tree with a node at the end of a route, where nothing has been before. -/
def add (tree : FileTree) (route : Route) (node : FileNode) : Except FileRefusal FileTree := do
  let location ← tree.namedLocation route
  if (tree.node? location).isSome then throw .alreadyExists
  return tree.set location node

/-- A tree without the file or the link at the end of a route. -/
def removeFile (tree : FileTree) (route : Route) : Except FileRefusal FileTree := do
  let location ← tree.namedLocation route
  match tree.node? location with
  | none => throw .notFound
  | some .directory => throw .isADirectory
  | some _ => return tree.remove location

/-- A tree with a directory at the end of a route, which may have been there before. -/
def addDirectory (tree : FileTree) (route : Route) : Except FileRefusal FileTree :=
  match tree.add route .directory, tree.directory route with
  | .error _, .ok _ => .ok tree
  | added, _ => added

/-- A tree with a directory at the end of a route, and directories on the way there. -/
def addDirectories (tree : FileTree) (route : Route) : Except FileRefusal FileTree :=
  if named : route.names = [] then .ok tree
  else match tree.addDirectory route with
    | .error .notFound => do
      have _shorter := route.parent_names_length_lt named
      let tree ← tree.addDirectories route.parent
      tree.addDirectory route
    | added => added
termination_by route.names.length

/-- A tree with a directory at a path, and directories on the way there. -/
def createDirectories (tree : FileTree) (path : String) : Except FileRefusal FileTree :=
  -- The empty path stands for the working directory, which is there.
  if path = "" then .ok tree
  else do tree.addDirectories (← Route.ofPath path)

/-- A tree with a text in the file at a path, whose directory must be there. -/
def writeText (tree : FileTree) (path text : String) : Except FileRefusal FileTree := do
  tree.write (← Route.ofPath path) (.text text)

/-- The plain texts in the directory at a path, by name. -/
def textFiles (tree : FileTree) (path : String) : List (String × String) :=
  match Route.ofPath path >>= tree.directory with
  | .ok location =>
    let files := (tree.children location).filterMap fun (name, node) =>
      match node with
      | .file content => some (name.display, content.display)
      | _ => none
    files.mergeSort fun left right => left.1 ≤ right.1
  | .error _ => []

end FileTree

end SchemaLedger
