import SchemaLedger.Text.Scan
import SchemaLedger.Migration.Basic
import SchemaLedger.Migration.Error

/-! A script file holds an up section and behind it a down section, each opened by its marker. -/

namespace SchemaLedger.Script

/-- The marker that opens the up section. -/
def upMarker : List Char := "-- up".toList

/-- The marker that opens the down section. -/
def downMarker : List Char := "-- down".toList

/-- The marker before the description. -/
def descriptionMarker : List Char := "-- description: ".toList

/-- The description of a script that gives none. -/
def noDescription : String := "<not specified>"

/-- The description of a script is what follows its marker, provided that the line ends. -/
def description (text : List Char) : String :=
  match splitAtFirst? descriptionMarker text with
  | none => noDescription
  | some (_, occurrence) =>
    match splitAtFirst? ['\n'] (occurrence.drop descriptionMarker.length) with
    | none => noDescription
    | some (line, _) => String.ofList line

/-- The migration that a script holds, where both sections keep their markers. -/
def read (name text : String) : Except FileFlaw Migration :=
  let chars := text.toList
  match splitAtFirst? upMarker chars with
  | none => .error .noUpSection
  | some (beforeUp, up) =>
    match splitAtFirst? downMarker chars with
    | none => .error .noDownSection
    | some (beforeDown, down) =>
      -- What stands before a marker tells where it was found.
      if beforeDown.length < beforeUp.length then .error .sectionsOutOfOrder
      else .ok {
        name
        up := String.ofList (up.take (beforeDown.length - beforeUp.length))
        down := String.ofList down
        description := description chars }

end SchemaLedger.Script
