import SchemaLedger.Proofs.Json.Values
import SchemaLedger.Schema.Converter

/-! Comments describe converters that can be recovered from them, and only those that can be are
ever recovered. -/

namespace SchemaLedger.Converter

/-- The options of a converter, of which variants have none. -/
def options : Converter → Keyed Json
  | .variants _ => .empty
  | .custom _ options => options

/-- Options may not use the keys that a comment needs itself, or the kind that variants have. -/
def WellFormed : Converter → Prop
  | .variants _ => True
  | .custom kind options =>
    kind ≠ variantsKind ∧ options.get? kindKey = none ∧ options.get? markerKey = none

/-- Options are kept as JSON keeps them, and are not nested too deep to be read. -/
def Storable (converter : Converter) : Prop :=
  (Json.object converter.options.entries).Storable Json.maxDepth

/-- There is no floating point number among the options. -/
def FloatFree (converter : Converter) : Prop := (Json.object converter.options.entries).FloatFree

/-- Options without those under a key that a comment needs itself. -/
def unreserved (options : Keyed Json) : Keyed Json :=
  ⟨eraseEntry kindKey (eraseEntry markerKey options.entries),
    eraseEntry_ordered _ (eraseEntry_ordered _ options.ordered)⟩

section Variants

variable {values : List (String × Int64)} {numbers : List (String × Json)}

/-- Variants are recovered from their numbers. -/
theorem variants?_numbers (values : List (String × Int64)) :
    variants? (values.map fun (name, value) => (name, Json.number (.integer value.toInt))) =
      some values := by
  -- By induction on the values, each of which is an integer within bounds.
  induction values with
  | nil => rfl
  | cons entry rest ih =>
    obtain ⟨name, value⟩ := entry
    rw [List.map_cons, variants?, if_pos ⟨value.minValue_le_toInt, value.toInt_le⟩, ih,
      Int64.ofInt_toInt]
    rfl

end Variants

section Fields

variable {kind name : String} {options : Keyed Json} {converter : Converter}
  {entries : List (String × Json)}

/-- Variants are described by three fields. -/
theorem get?_variants {values : Keyed Int64} : (variants values).fields.get? name =
    if name = variantsKey then some (.object <| values.entries.map fun (name, value) =>
      (name, .number (.integer value.toInt)))
    else if name = kindKey then some (.string variantsKind)
    else if name = markerKey then some (.bool true) else none := by
  -- The fields are written one by one, and the last one written is found first.
  rw [fields, Keyed.get?_insert, Keyed.get?_insert, Keyed.get?_insert]
  rfl

/-- The kind comes before all options, and they come before the marker. -/
theorem get?_custom : (custom kind options).fields.get? name =
    if name = kindKey then some (.string kind)
    else (options.get? name).or (if name = markerKey then some (.bool true) else none) := by
  -- The kind is written last, behind the options, which come behind the marker.
  rw [fields, Keyed.get?_insert, Keyed.get?_filled options.ordered, Keyed.get?_insert]
  rfl

/-- Unreserved options are found as before, and nothing is found under the reserved keys. -/
theorem get?_unreserved : (unreserved options).get? name =
    if name = kindKey then none else if name = markerKey then none else options.get? name := by
  -- Each of the two keys is taken out, and the others are left.
  rw [Keyed.get?, unreserved, entryFor?_eraseEntry, entryFor?_eraseEntry]
  rfl

/-- Options under no key that a comment needs itself are all unreserved. -/
theorem unreserved_of_free (noKind : options.get? kindKey = none)
    (noMarker : options.get? markerKey = none) : unreserved options = options := by
  -- Keyed values are the same if each key has the same value in both.
  refine Keyed.ext_get? fun name => ?_
  rw [get?_unreserved]
  split_ifs with isKind isMarker
  · rw [isKind, noKind]
  · rw [isMarker, noMarker]
  · rfl

/-- What is left of the fields of a converter, without those that a comment needs itself, are its
unreserved options. -/
theorem options_left :
    Keyed.ofList (eraseEntry kindKey (eraseEntry markerKey (custom kind options).fields.entries)) =
      unreserved options := by
  -- Compared key by key: what the options have put at other keys is untouched.
  have ordered := (custom kind options).fields.ordered
  rw [Keyed.ofList_entries (eraseEntry_ordered _ (eraseEntry_ordered _ ordered))]
  refine Keyed.ext_get? fun name => ?_
  have found : entryFor? name (custom kind options).fields.entries = _ := get?_custom
  rw [get?_unreserved, Keyed.get?, entryFor?_eraseEntry, entryFor?_eraseEntry, found]
  split_ifs
  · rfl
  · rfl
  · exact Option.or_none

/-- The fields of a converter describe it without its reserved options, unless one of these is filed
in place of the marker. -/
theorem ofFields?_custom (other : kind ≠ variantsKind) :
    ofFields? (custom kind options).fields.entries =
      if (options.get? markerKey).getD (.bool true) = .bool true then
        some (custom kind (unreserved options))
      else none := by
  -- The marker is looked up first, and an option of that name stands in its place.
  have marker : entryFor? markerKey (custom kind options).fields.entries =
      some ((options.get? markerKey).getD (.bool true)) := by
    refine get?_custom.trans ?_
    rw [if_neg (by decide), if_pos rfl]
    cases options.get? markerKey <;> rfl
  -- The kind is the one of the converter, as it was written last.
  have own : entryFor? kindKey (custom kind options).fields.entries = some (.string kind) :=
    get?_custom.trans (if_pos rfl)
  simp only [ofFields?, marker, Option.some.injEq, own, if_neg other, options_left]

/-- A converter that is well-formed is recovered from its fields. -/
theorem ofFields?_fields (formed : converter.WellFormed) :
    ofFields? converter.fields.entries = some converter := by
  -- The cases are the two kinds of converters, each found by the kind in its fields.
  cases converter with
  | variants values =>
    -- Variants have three fields, each found under its own name.
    have marker : entryFor? markerKey (variants values).fields.entries = some (.bool true) :=
      get?_variants
    have own : entryFor? kindKey (variants values).fields.entries = some (.string variantsKind) :=
      get?_variants
    have numbers : entryFor? variantsKey (variants values).fields.entries = some (.object _) :=
      get?_variants
    simp only [ofFields?, marker, own, numbers, variants?_numbers, if_true, Option.map_some,
      Keyed.ofList_entries values.ordered]
  | custom kind options =>
    obtain ⟨other, noKind, noMarker⟩ := formed
    rw [ofFields?_custom other, noMarker, unreserved_of_free noKind noMarker]
    rfl

/-- Fields describe variants, or a converter of another kind with the fields that are left. -/
theorem recovered_cases (recovered : ofFields? entries = some converter) :
    (∃ values, converter = .variants values) ∨ ∃ kind, kind ≠ variantsKind ∧
      converter = .custom kind
        (Keyed.ofList (eraseEntry kindKey (eraseEntry markerKey entries))) := by
  -- The branches are those of the reader; the ones that read nothing are impossible.
  unfold ofFields? at recovered
  split_ifs at recovered
  split at recovered
  · rename_i kind _
    -- The kind of variants is read as variants, or not at all.
    split_ifs at recovered with variantsToo
    · split at recovered
      · obtain ⟨values, -, same⟩ := Option.map_eq_some_iff.mp recovered
        exact .inl ⟨_, same.symm⟩
      · cases recovered
    · cases recovered
      exact .inr ⟨kind, variantsToo, rfl⟩
  · cases recovered

/-- Whatever is recovered from fields is well-formed. -/
theorem wellFormed_of_ofFields? (ordered : EntriesOrdered entries)
    (recovered : ofFields? entries = some converter) : converter.WellFormed := by
  -- A custom converter is read off entries without the two keys.
  rcases recovered_cases recovered with ⟨values, rfl⟩ | ⟨kind, other, rfl⟩
  · trivial
  · rw [Keyed.ofList_entries (eraseEntry_ordered _ (eraseEntry_ordered _ ordered))]
    refine ⟨other, ?_, ?_⟩
    · rw [Keyed.get?, entryFor?_eraseEntry, if_pos rfl]
    · rw [Keyed.get?, entryFor?_eraseEntry, entryFor?_eraseEntry, if_pos rfl, ite_self]

end Fields

/-- A field of a comment is kept as JSON keeps it, one level below the comment, with no floating
point number. -/
def Kept (entry : String × Json) : Prop :=
  entry.2.Storable (Json.maxDepth - 1) ∧ entry.2.FloatFree

/-- The numbers of variants are kept as JSON keeps them. -/
theorem kept_numbers (name : String) (values : Keyed Int64) :
    Kept (name, .object <| values.entries.map fun (name, value) =>
      (name, .number (.integer value.toInt))) := by
  -- Numbers of 64 bits with a sign are within the bounds of those that are stored.
  have fits : ∀ value : Int64, Json.IsInteger64 value.toInt := fun value =>
    ⟨value.minValue_le_toInt, Int.lt_of_le_of_lt value.toInt_le (by decide)⟩
  have ordered := values.ordered
  refine ⟨.object (List.pairwise_map.mpr ordered) ?_, .object ?_⟩
  · rintro _ member
    obtain ⟨⟨name, value⟩, -, rfl⟩ := List.mem_map.mp member
    exact .integer _ (fits value)
  · rintro _ member
    obtain ⟨⟨name, value⟩, -, rfl⟩ := List.mem_map.mp member
    exact .integer _

/-- The fields of a converter are kept as JSON keeps them if its options are. -/
theorem kept_fields {converter : Converter} (storable : converter.Storable)
    (free : converter.FloatFree) : ∀ entry ∈ converter.fields.entries, Kept entry := by
  have marked : ∀ entry ∈ (Keyed.empty.insert markerKey (Json.bool true)).entries, Kept entry :=
    Keyed.forall_insert nofun ⟨.bool _ true, .bool true⟩
  have named : ∀ kind, Kept (kindKey, .string kind) := fun kind => ⟨.string _ kind, .string kind⟩
  -- Fields are built up by insertion, which keeps what holds of each entry.
  cases converter with
  | variants values =>
    exact Keyed.forall_insert (Keyed.forall_insert marked (named _)) (kept_numbers _ values)
  | custom kind options =>
    obtain ⟨-, each⟩ := Json.storable_object.mp storable
    have frees := Json.floatFree_object.mp free
    exact Keyed.forall_insert (Keyed.forall_filled marked fun entry member =>
      ⟨each entry member, frees entry member⟩) (named _)

/-- The comment of a converter is parsed to its fields. -/
theorem parse_comment {converter : Converter} (storable : converter.Storable)
    (free : converter.FloatFree) :
    Json.parse converter.comment = .ok (.object converter.fields.entries) := by
  -- The comment is the text of an object, which the parser reads back.
  have kept := kept_fields storable free
  have stored : (Json.object converter.fields.entries).Storable Json.maxDepth :=
    .object converter.fields.ordered fun entry member => (kept entry member).1
  exact Json.parse_textChars stored (.object fun entry member => (kept entry member).2) _

/-- A converter is recovered from a comment that is parsed to fields which describe it. -/
theorem ofComment?_eq_some {comment : String} {converter : Converter} :
    ofComment? comment = some converter ↔
      ∃ entries, Json.parse comment = .ok (.object entries) ∧
        ofFields? entries = some converter := by
  -- A comment has to parse, and to an object at that.
  unfold ofComment?
  split
  · rename_i fields parsed
    simp [parsed]
  · rename_i other
    refine ⟨nofun, ?_⟩
    rintro ⟨entries, parsed, -⟩
    exact absurd parsed (other entries)

/-- The options that are recovered from a comment are kept as JSON keeps them. -/
theorem storable_of_recovered {entries : List (String × Json)} {converter : Converter}
    (stored : (Json.object entries).Storable Json.maxDepth)
    (recovered : ofFields? entries = some converter) : converter.Storable := by
  -- Options that are read are among the entries, which are stored as they stand.
  obtain ⟨ordered, each⟩ := Json.storable_object.mp stored
  rcases recovered_cases recovered with ⟨values, rfl⟩ | ⟨kind, -, rfl⟩
  · exact Json.storable_object.mpr ⟨.nil, nofun⟩
  · rw [Keyed.ofList_entries (eraseEntry_ordered _ (eraseEntry_ordered _ ordered))]
    refine Json.storable_object.mpr ⟨eraseEntry_ordered _ (eraseEntry_ordered _ ordered), ?_⟩
    exact fun entry member =>
      each entry (List.mem_filter.mp (List.mem_filter.mp member).1).1

/-- Converters are recovered from their comments exactly if they are well-formed; and whatever is
recovered from a comment is well-formed, so that it is recovered from its own comment again. -/
theorem comments_recovered :
    (∀ converter : Converter, converter.Storable → converter.FloatFree →
      (ofComment? converter.comment = some converter ↔ converter.WellFormed)) ∧
    ∀ comment converter, ofComment? comment = some converter → converter.WellFormed ∧
      (converter.FloatFree → ofComment? converter.comment = some converter) := by
  -- What is read is well-formed by construction, as the two keys are taken out of it.
  have wellFormed : ∀ comment converter, ofComment? comment = some converter →
      converter.WellFormed ∧ converter.Storable := by
    intro comment converter recovered
    obtain ⟨entries, parsed, described⟩ := ofComment?_eq_some.mp recovered
    have stored := Json.storable_of_parse parsed
    exact ⟨wellFormed_of_ofFields? (Json.storable_object.mp stored).1 described,
      storable_of_recovered stored described⟩
  -- What is written is parsed back into the same fields, if it has no floats.
  have again : ∀ converter : Converter, converter.Storable → converter.FloatFree →
      converter.WellFormed → ofComment? converter.comment = some converter :=
    fun converter storable free formed =>
      ofComment?_eq_some.mpr ⟨_, parse_comment storable free, ofFields?_fields formed⟩
  constructor
  · intro converter storable free
    exact ⟨fun recovered => (wellFormed _ _ recovered).1, again converter storable free⟩
  · intro comment converter recovered
    obtain ⟨formed, storable⟩ := wellFormed comment converter recovered
    exact ⟨formed, fun free => again converter storable free formed⟩

/-- A nested option is recovered with its converter, an option that takes the place of the kind is
not, and a comment with its keys in another order is as good as any. -/
theorem comments_recovered_sample :
    let scale : Json := .array [.number (.integer 2), .object [("unit", .string "cents")]]
    let money : Converter := .custom "money" (Keyed.empty.insert "scale" scale)
    let clash : Converter := .custom "money" (Keyed.empty.insert kindKey scale)
    let text := "\x7b\"type\":\"enum\",\"values\":\x7b\"low\":-1\x7d,\"autoConvert\":true\x7d"
    let low : Converter := .variants (Keyed.empty.insert "low" (-1))
    ofComment? money.comment = some money ∧ ofComment? clash.comment ≠ some clash ∧
      ofComment? text = some low ∧ ofComment? low.comment = some low := by
  intro scale money clash text low
  obtain ⟨exactly, again⟩ := comments_recovered
  -- What is stored is an array with an object in it, under whatever name.
  have stored : ∀ name, (Json.object (Keyed.empty.insert name scale).entries).Storable
      Json.maxDepth := by
    intro name
    refine .object (Keyed.ordered _) (Keyed.forall_insert nofun (.array ?_))
    simp only [List.forall_mem_cons]
    exact ⟨.integer _ ⟨by decide, by decide⟩, .object (List.pairwise_singleton _ _)
      (List.forall_mem_singleton.mpr (.string _ _)), nofun⟩
  have free : ∀ name, (Json.object (Keyed.empty.insert name scale).entries).FloatFree := by
    intro name
    refine .object (Keyed.forall_insert nofun (.array ?_))
    simp only [List.forall_mem_cons]
    exact ⟨.integer _, .object (List.forall_mem_singleton.mpr (.string _)), nofun⟩
  have recovered : ofComment? text = some low := by decide +kernel
  -- An option named as the kind is lost, whereas one beside it is kept.
  refine ⟨(exactly money (stored "scale") (free "scale")).mpr ⟨by decide, by decide, by decide⟩,
    fun same => ?_, recovered, (again text low recovered).2 (.object nofun)⟩
  have formed := (exactly clash (stored kindKey) (free kindKey)).mp same
  cases formed.2.1

section Marker

variable {kind : String} {options : Keyed Json}

/-- A converter of its own kind is recovered without its reserved options exactly if none of them
takes the place of the marker, and no other converter is recovered instead. -/
theorem recovered_iff_marked (other : kind ≠ variantsKind)
    (storable : (custom kind options).Storable) (free : (custom kind options).FloatFree) :
    (ofComment? (custom kind options).comment = some (custom kind (unreserved options)) ↔
      ∀ value, options.get? markerKey = some value → value = .bool true) ∧
    ∀ converter, ofComment? (custom kind options).comment = some converter →
      converter = custom kind (unreserved options) := by
  -- The comment is parsed back into the fields, so that only these are in question.
  have described : ofComment? (custom kind options).comment =
      ofFields? (custom kind options).fields.entries := by
    rw [ofComment?, parse_comment storable free]
  rw [described, ofFields?_custom other]
  constructor
  · cases options.get? markerKey with
    | none => simp
    | some value => simp
  · intro converter recovered
    split_ifs at recovered
    exact (Option.some.inj recovered).symm

/-- An option for the kind is left out, and the converter is recovered with the others. -/
theorem recovered_iff_marked_sample :
    let options := (Keyed.empty.insert kindKey (Json.string "overridden")).insert "unit"
      (.string "cents")
    ofComment? (custom "money" options).comment =
      some (custom "money" (Keyed.empty.insert "unit" (.string "cents"))) := by
  intro options
  have storable : (custom "money" options).Storable :=
    .object options.ordered (Keyed.forall_insert (Keyed.forall_insert nofun (.string _ _))
      (.string _ _))
  have free : (custom "money" options).FloatFree :=
    .object (Keyed.forall_insert (Keyed.forall_insert nofun (.string _)) (.string _))
  -- The option named as the kind is the one that is left out.
  have rest : unreserved options = Keyed.empty.insert "unit" (.string "cents") := by decide
  rw [← rest]
  exact (recovered_iff_marked (by decide) storable free).1.mpr (by decide)

/-- An option takes the place of the marker, and the comment is none of a converter any more. -/
theorem marker_overwritten :
    let options := (Keyed.empty.insert markerKey (Json.bool false)).insert "unit" (.string "cents")
    "money" ≠ variantsKind ∧ (custom "money" options).Storable ∧
      (custom "money" options).FloatFree ∧
      ofComment? (custom "money" options).comment = none ∧
      ofComment? (custom "money" options).comment ≠ some (custom "money" (unreserved options)) := by
  intro options
  -- The option says false where the reader looks for true.
  have lost : ofComment? (custom "money" options).comment = none := by decide +kernel
  refine ⟨by decide, ?_, ?_, lost, by simp [lost]⟩
  · exact .object options.ordered (Keyed.forall_insert (Keyed.forall_insert nofun (.bool _ _))
      (.string _ _))
  · exact .object (Keyed.forall_insert (Keyed.forall_insert nofun (.bool _)) (.string _))

end Marker

end SchemaLedger.Converter
