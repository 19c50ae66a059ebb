import SchemaLedger.Json.Record

/-! Converters say how the values of a column are to be read, in a comment that is a JSON object. -/

namespace SchemaLedger

/-- How the values of a column are converted. -/
inductive Converter where
  /-- Integers that stand for named variants. -/
  | variants (values : Keyed Int64)
  /-- A converter known by its kind, with options of its own. -/
  | custom (kind : String) (options : Keyed Json)
  deriving DecidableEq

namespace Converter

/-- The key that marks a comment as a converter. -/
def markerKey : String := "autoConvert"

/-- The key of the kind of converter. -/
def kindKey : String := "type"

/-- The key of the variants of a converter. -/
def variantsKey : String := "values"

/-- The kind of converters between integers and variants. -/
def variantsKind : String := "enum"

/-- The fields of the object that describes a converter. -/
def fields : Converter → Keyed Json
  | .variants values =>
    let numbers := values.entries.map fun (name, value) =>
      (name, Json.number (.integer value.toInt))
    ((Keyed.empty.insert markerKey (.bool true)).insert kindKey (.string variantsKind)).insert
      variantsKey (.object numbers)
  | .custom kind options =>
    -- Options are filed before the kind, which therefore cannot be lost among them.
    (options.entries.foldl (fun fields option => fields.insert option.1 option.2)
      (Keyed.empty.insert markerKey (.bool true))).insert kindKey (.string kind)

/-- The comment that describes a converter. -/
def comment (converter : Converter) : String := (Json.object converter.fields.entries).pretty

/-- The variants that JSON fields with integers of 64 bits describe. -/
def variants? : List (String × Json) → Option (List (String × Int64))
  | [] => some []
  -- One variant that is no such integer spoils them all.
  | (name, .number (.integer value)) :: rest =>
    if Int64.minValue.toInt ≤ value ∧ value ≤ Int64.maxValue.toInt then
      (variants? rest).map ((name, Int64.ofInt value) :: ·)
    else none
  | _ :: _ => none

/-- The converter that an object describes, if it is marked as one. -/
def ofFields? (fields : List (String × Json)) : Option Converter :=
  if entryFor? markerKey fields = some (.bool true) then
    match entryFor? kindKey fields with
    | some (.string kind) =>
      if kind = variantsKind then
        match entryFor? variantsKey fields with
        | some (.object numbers) => (variants? numbers).map (.variants <| Keyed.ofList ·)
        | _ => none
      -- All other fields are the options, in the order in which they stand.
      else some (.custom kind (Keyed.ofList (eraseEntry kindKey (eraseEntry markerKey fields))))
    | _ => none
  else none

/-- The converter that a comment describes, and none for any other comment. -/
def ofComment? (comment : String) : Option Converter :=
  match Json.parse comment with
  | .ok (.object fields) => ofFields? fields
  | _ => none

end Converter

end SchemaLedger
