import SchemaLedger.Files.Path
import SchemaLedger.Migration.Error
import SchemaLedger.Text.Utf8

/-! A route is the way that a path describes: names to follow one after the other. -/

namespace SchemaLedger

/-- The way that a path describes. -/
structure Route where
  /-- From the root of all files, and not from the working directory. -/
  fromRoot : Bool
  names : List RawText
  /-- A slash follows the last name, so that only a directory can be meant. -/
  toDirectory : Bool
  deriving DecidableEq, Repr

namespace Route

/-- The name that stays in a directory. -/
def here : RawText := .text "."

/-- The name that leaves a directory. -/
def above : RawText := .text ".."

/-- The most bytes that a name may have. -/
def maxNameBytes : Nat := 255

/-- The most bytes that a path may have. -/
def maxPathBytes : Nat := 4095

/-- The route along the pieces of a path between slashes. -/
def ofPieces (pieces : List RawText) : Route where
  fromRoot := match pieces with
    | .text "" :: _ :: _ => true
    | _ => false
  names := pieces.filter (· ≠ .text "")
  toDirectory := pieces.getLast? = some (.text "")

/-- The route that a text describes, however long it is. -/
def ofText (path : String) : Route :=
  ofPieces ((Path.pieces '/' path.toList).map fun piece => .text (String.ofList piece))

/-- The route that a path describes, unless no file can have such a path. -/
def ofPath (path : String) : Except FileRefusal Route :=
  if path.toList.contains '\x00' then .error .nulInPath
  else if path = "" then .error .notFound
  else if maxPathBytes < path.utf8ByteSize then .error .nameTooLong
  else .ok (ofText path)

/-- The route to where a route without its last name leads. -/
def parent (route : Route) : Route :=
  { route with names := (route.names.filter (· ≠ here)).dropLast, toDirectory := false }

/-- Every route with names is longer than the route to its parent. -/
theorem parent_names_length_lt (route : Route) (named : route.names ≠ []) :
    route.parent.names.length < route.names.length := by
  -- Leaving out names that stay adds none, and then one more is dropped.
  have fewer := List.length_filter_le (· ≠ here) route.names
  have positive := List.length_pos_iff.mpr named
  simp only [parent, List.length_dropLast]
  omega

end Route

end SchemaLedger
