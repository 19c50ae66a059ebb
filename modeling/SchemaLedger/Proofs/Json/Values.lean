import SchemaLedger.Proofs.Json.Records
import SchemaLedger.Proofs.Keyed

/-! Values without floating point numbers are read back from their own text, and whatever is read is
as JSON keeps it. -/

namespace SchemaLedger.Json

/-- Values as they are kept: nested at most this deep, with integers of 64 bits, and with the fields
of objects in key order. -/
inductive Storable : Nat → Json → Prop
  | null (depth : Nat) : Storable depth .null
  | bool (depth : Nat) (value : Bool) : Storable depth (.bool value)
  | float (depth : Nat) (value : Binary64) : Storable depth (.number (.float value))
  | integer (depth : Nat) {value : Int} (fits : IsInteger64 value) :
    Storable depth (.number (.integer value))
  | string (depth : Nat) (value : String) : Storable depth (.string value)
  | array {depth : Nat} {items : List Json} (each : ∀ item ∈ items, Storable depth item) :
    Storable (depth + 1) (.array items)
  | object {depth : Nat} {fields : List (String × Json)} (ordered : EntriesOrdered fields)
    (each : ∀ field ∈ fields, Storable depth field.2) : Storable (depth + 1) (.object fields)

/-- No number in a value is a floating point number. -/
inductive FloatFree : Json → Prop
  | null : FloatFree .null
  | bool (value : Bool) : FloatFree (.bool value)
  | integer (value : Int) : FloatFree (.number (.integer value))
  | string (value : String) : FloatFree (.string value)
  | array {items : List Json} (each : ∀ item ∈ items, FloatFree item) : FloatFree (.array items)
  | object {fields : List (String × Json)} (each : ∀ field ∈ fields, FloatFree field.2) :
    FloatFree (.object fields)

/-- The fields of an object that is kept are in order, and each of them is kept as well. -/
theorem storable_object {depth : Nat} {fields : List (String × Json)} :
    Storable (depth + 1) (.object fields) ↔
      EntriesOrdered fields ∧ ∀ field ∈ fields, Storable depth field.2 := by
  -- There is one rule for objects, and what it asks for is what is stated.
  constructor
  · rintro (_ | _ | _ | _ | _ | _ | ⟨ordered, each⟩)
    exact ⟨ordered, each⟩
  · exact fun both => .object both.1 both.2

/-- An object has no floating point number if none of its fields has one. -/
theorem floatFree_object {fields : List (String × Json)} :
    FloatFree (.object fields) ↔ ∀ field ∈ fields, FloatFree field.2 := by
  -- Only the fields of an object can hold a float.
  constructor
  · rintro (_ | _ | _ | _ | _ | each)
    exact each
  · exact .object

section Items

variable {α : Type} {item : Reader α} {texts : List (List Char)} {values : List α}
  {spread : Spread} {c : Char} {rest : List Char}

/-- A character may start an item of a list if it is no blank and has no other meaning there. -/
def StartsItem (c : Char) : Prop := isSpace c = false ∧ c ≠ ']' ∧ c ≠ ','

/-- The first item of a list follows its opening bracket. -/
theorem nextItem_first (starts : StartsItem c) :
    nextItem true (spread.lineBreak ++ c :: rest) = .ok (true, c :: rest) := by
  -- What starts an item is no blank, so that only the line break is skipped.
  obtain ⟨solid, noBracket, noComma⟩ := starts
  rw [nextItem, skipSpaces_lineBreak, skipSpaces_solid solid]
  split <;> simp_all

/-- Any other item of a list follows a comma. -/
theorem nextItem_further (starts : StartsItem c) :
    nextItem false (',' :: (spread.lineBreak ++ c :: rest)) = .ok (true, c :: rest) := by
  -- Behind the comma only the line break is skipped.
  obtain ⟨solid, noBracket, -⟩ := starts
  rw [nextItem, skipSpaces_solid (by decide)]
  simp only [Bool.false_eq_true, if_false]
  rw [skipSpaces_lineBreak, skipSpaces_solid solid]
  split <;> simp_all

/-- No item follows in front of the closing bracket. -/
theorem nextItem_last {first : Bool} :
    nextItem first (spread.lineBreak ++ ']' :: rest) = .ok (false, ']' :: rest) := by
  -- A bracket ends the list even at its beginning.
  rw [nextItem, skipSpaces_lineBreak, skipSpaces_solid (by decide)]
  rfl

/-- A printed item is read where it stands, in front of what cannot be mistaken for more of a
number. -/
structure ReadsItem (item : Reader α) (text : List Char) (value : α) : Prop where
  starts : ∃ c rest, text = c :: rest ∧ StartsItem c
  reads : ∀ rest, EndsNumber rest → item (text ++ rest) = .ok (value, rest)

/-- Items behind the first one are read up to the closing bracket. -/
theorem readItems_further (spread outer : Spread) (rest : List Char)
    (reads : List.Forall₂ (ReadsItem item) texts values) (fuel : Nat)
    (enough : texts.length < fuel) :
    readItems nextItem item fuel false
      ((texts.flatMap fun text => ',' :: spread.lineBreak ++ text) ++
        (outer.lineBreak ++ ']' :: rest)) = .ok (values, ']' :: rest) := by
  -- Each item uses up one unit of fuel, and one is left for the bracket.
  obtain ⟨fuel, rfl⟩ : ∃ fewer, fuel = fewer + 1 := Nat.exists_eq_add_one.mpr (by omega)
  induction reads generalizing fuel with
  | nil => simp [readItems, nextItem_last, bind, Except.bind, pure, Except.pure]
  | @cons text value texts values first later ih =>
    obtain ⟨fuel, rfl⟩ : ∃ fewer, fuel = fewer + 1 :=
      Nat.exists_eq_add_one.mpr (by simp at enough; omega)
    have further := ih fuel (by simpa using enough)
    -- The item is read up to what follows it, which no number could go on with.
    have bracket : EndsNumber (']' :: rest) := endsNumber_cons (by decide)
    have own := first.reads _ (endsNumber_further spread outer texts bracket)
    obtain ⟨c, body, rfl, starts⟩ := first.starts
    simp only [List.cons_append] at own further ⊢
    rw [readItems]
    simp only [List.flatMap_cons, List.cons_append, List.append_assoc, nextItem_further starts,
      bind, Except.bind, if_true, own, further]
    rfl

/-- All items of a printed list are read up to the closing bracket. -/
theorem readItems_bracketed (spread : Spread) (rest : List Char)
    (reads : List.Forall₂ (ReadsItem item) texts values) :
    ∃ text, bracketed spread '[' ']' texts ++ rest = '[' :: text ∧
      readItems nextItem item (text.length + 1) true text = .ok (values, ']' :: rest) := by
  -- The first item stands behind no comma, and all others do.
  cases reads with
  | nil => exact ⟨']' :: rest, rfl, rfl⟩
  | @cons text value texts values first later =>
    let further := texts.flatMap fun text => ',' :: spread.inner.lineBreak ++ text
    let behind := further ++ (spread.lineBreak ++ ']' :: rest)
    -- The item is read up to what follows it, which no number could go on with.
    have bracket : EndsNumber (']' :: rest) := endsNumber_cons (by decide)
    have own : item (text ++ behind) = .ok (value, behind) :=
      first.reads _ (endsNumber_further spread.inner spread texts bracket)
    have onward : ∀ fuel, texts.length < fuel →
        readItems nextItem item fuel false behind = .ok (values, ']' :: rest) :=
      readItems_further spread.inner spread rest later
    obtain ⟨c, body, rfl, starts⟩ := first.starts
    have printed : bracketed spread '[' ']' ((c :: body) :: texts) ++ rest =
        '[' :: (spread.inner.lineBreak ++ c :: (body ++ behind)) := by
      simp [bracketed, behind, further]
    -- The fuel is one unit for each character, and no item is shorter than one.
    have enough : texts.length ≤ further.length := length_le_flatMap spread.inner texts
    refine ⟨_, printed, ?_⟩
    rw [readItems, nextItem_first starts]
    simp only [bind, Except.bind, if_true]
    rw [← List.cons_append, own]
    dsimp only
    rw [onward]
    · rfl
    · simp only [behind, List.length_append, List.length_cons]
      omega

end Items

section Reading

variable {depth : Nat} {value : Json} {text rest : List Char} {spread : Spread}

/-- Blanks in front of a value are passed over. -/
theorem readValue_spaces {other : List Char} (same : skipSpaces text = skipSpaces other) :
    readValue depth text = readValue depth other := by
  -- Reading begins by skipping spaces, and looks at nothing else of the text.
  rw [readValue.eq_def, readValue.eq_def, same]

/-- A value is read behind the blank that a colon may have. -/
theorem readValue_behind_colon (text : List Char) :
    readValue depth (spread.colon.tail ++ text) = readValue depth text :=
  -- The blank behind a colon is skipped, where there is one.
  readValue_spaces (by cases spread <;> rfl)

/-- The field of an object that goes on behind the opening quote of its key. -/
def readField (inner : Nat) (fields : List (String × Json)) : Reader (List (String × Json)) :=
  fun text => do
    let (key, text) ← stringBody text
    let (value, text) ← readValue inner (← afterColon text)
    return (insertEntry (String.ofList key) value fields, text)

/-- A list is read item by item, one level deeper. -/
theorem readValue_array : readValue (depth + 1) ('[' :: text) = (do
    let (items, rest) ← readItems nextItem (readValue depth) (text.length + 1) true text
    return (.array items, ← endOfList rest)) := by
  -- The bracket is no space, and none of the other values starts with it.
  rw [readValue.eq_def, skipSpaces_solid (by decide)]
  rfl

/-- An object is read field by field, one level deeper. -/
theorem readValue_object : readValue (depth + 1) ('\x7b' :: text) = (do
    let (fields, rest) ← readMembers nextKey (readField depth) (text.length + 1) true [] text
    return (.object fields, ← endOfObject rest)) := by
  -- The brace is no space, and none of the other values starts with it.
  rw [readValue.eq_def, skipSpaces_solid (by decide)]
  rfl

/-- A number behind a sign is read as a value. -/
theorem readValue_sign : readValue depth ('-' :: text) = (do
    let (value, rest) ← readNumber true text
    return (.number value, rest)) := by
  -- A minus starts nothing but a number.
  rw [readValue.eq_def, skipSpaces_solid (by decide)]
  rfl

/-- A digit starts an item, as it is none of the other characters there. -/
theorem digit_startsItem {c : Char} (digit : c.isDigit = true) :
    StartsItem c ∧ ∀ other : Char, other.isDigit = false → c ≠ other := by
  -- Each of the characters that mean something else is no digit.
  have apart : ∀ other : Char, other.isDigit = false → c ≠ other := by
    rintro other none rfl
    rw [digit] at none
    cases none
  have solid : isSpace c = false := by
    simp [isSpace, apart ' ', apart '\n', apart '\t', apart '\r']
  exact ⟨⟨solid, apart ']' (by decide), apart ',' (by decide)⟩, apart⟩

/-- A number that starts with a digit is read as a value. -/
theorem readValue_digit {c : Char} (digit : c.isDigit = true) : readValue depth (c :: text) = (do
    let (value, rest) ← readNumber false (c :: text)
    return (.number value, rest)) := by
  -- A digit is none of the characters that start another value.
  obtain ⟨⟨solid, -⟩, apart⟩ := digit_startsItem digit
  rw [readValue.eq_def, skipSpaces_solid solid]
  simp only [apart 'n' (by decide), apart 't' (by decide), apart 'f' (by decide),
    apart '-' (by decide), digit, if_true, if_false]

/-- An integer is read back from its text. -/
theorem readValue_integer {value : Int} (fits : IsInteger64 value) (ends : EndsNumber rest) :
    readValue depth (signedDigits value ++ rest) = .ok (.number (.integer value), rest) := by
  have read := readNumber_digits fits ends
  -- A negative integer starts with its sign, and any other one with a digit.
  by_cases negative : value < 0
  · rw [decide_eq_true negative] at read
    rw [signedDigits, if_pos negative, List.append_assoc, List.singleton_append, readValue_sign,
      read]
    rfl
  · obtain ⟨c, others, digits, digit⟩ := decimalDigits_eq_cons value.natAbs
    rw [decide_eq_false negative, digits, List.cons_append] at read
    rw [signedDigits, if_neg negative, List.nil_append, digits, List.cons_append,
      readValue_digit digit, read]
    rfl

/-- A string is read back from its text. -/
theorem readValue_string (value : String) :
    readValue depth (stringText value ++ rest) = .ok (.string value, rest) := by
  -- The quotes are taken off, and the text between them is read as it was escaped.
  rw [readValue.eq_def]
  simp [stringText, skipSpaces_solid, isSpace, stringBody_escaped, bind, Except.bind, pure,
    Except.pure]

/-- The text of brackets starts with the opening one. -/
theorem starts_bracketed {opening : Char} (closing : Char) (items : List (List Char))
    (starts : StartsItem opening) :
    ∃ c rest, bracketed spread opening closing items = c :: rest ∧ StartsItem c := by
  -- With items or without, the opening bracket comes first.
  cases items with
  | nil => exact ⟨opening, _, rfl, starts⟩
  | cons first items => exact ⟨opening, _, rfl, starts⟩

/-- The text of a value starts an item of a list. -/
theorem starts_textChars (free : FloatFree value) :
    ∃ c rest, textChars spread value = c :: rest ∧ StartsItem c := by
  have plain : ∀ c : Char, isSpace c = false ∧ c ≠ ']' ∧ c ≠ ',' → StartsItem c := fun _ => id
  -- Each kind of value is known by its first character, which is no space, comma or bracket.
  cases free with
  | null => exact ⟨'n', _, rfl, plain _ (by decide)⟩
  | bool value =>
    cases value with
    | true => exact ⟨'t', _, rfl, plain _ (by decide)⟩
    | false => exact ⟨'f', _, rfl, plain _ (by decide)⟩
  | integer value =>
    rw [textChars, Number.text, signedDigits]
    -- A number begins with its sign or with a digit.
    by_cases negative : value < 0
    · rw [if_pos negative]
      exact ⟨'-', _, rfl, plain _ (by decide)⟩
    · obtain ⟨c, rest, digits, digit⟩ := decimalDigits_eq_cons value.natAbs
      rw [if_neg negative, List.nil_append, digits]
      exact ⟨c, rest, rfl, (digit_startsItem digit).1⟩
  | string value => exact ⟨'"', _, rfl, plain _ (by decide)⟩
  | array _ =>
    rw [textChars]
    exact starts_bracketed _ _ (plain _ (by decide))
  | object _ =>
    rw [textChars]
    exact starts_bracketed _ _ (plain _ (by decide))

/-- A value is read back if it is, behind a character that ends a number. -/
def ReadsBack (depth : Nat) (value : Json) : Prop :=
  ∀ spread rest, EndsNumber rest →
    readValue depth (textChars spread value ++ rest) = .ok (value, rest)

/-- Items are read back from their texts if each of them is. -/
theorem readsItems_itemTexts (spread : Spread) {items : List Json}
    (each : ∀ item ∈ items, FloatFree item ∧ ReadsBack depth item) :
    List.Forall₂ (ReadsItem (readValue depth)) (itemTexts spread items) items := by
  -- Every text of an item starts it and is read back, whatever is behind it.
  induction items with
  | nil => exact .nil
  | cons item rest ih =>
    obtain ⟨free, back⟩ := each item List.mem_cons_self
    exact .cons ⟨starts_textChars free, back spread⟩
      (ih fun later member => each later (.tail _ member))

/-- Fields in key order are added to those before them if the value of each is read back. -/
theorem fills_fieldTexts (spread : Spread) {done fields : List (String × Json)}
    (ordered : EntriesOrdered (done ++ fields))
    (each : ∀ field ∈ fields, ReadsBack depth field.2) :
    Fills (readField depth) done (fieldTexts spread fields) (done ++ fields) := by
  induction fields generalizing done with
  | nil =>
    rw [List.append_nil]
    exact .nil done
  | cons field rest ih =>
    obtain ⟨key, value⟩ := field
    -- Keys come in order, so that each field is added behind those read so far.
    have below : ∀ entry ∈ done, entry.1 < key := fun entry member =>
      (List.pairwise_append.mp ordered).2.2 entry member _ List.mem_cons_self
    have further : done ++ (key, value) :: rest = (done ++ [(key, value)]) ++ rest := by simp
    rw [further] at ordered ⊢
    refine .cons (fun after ends => ?_) (ih ordered fun later member => each later (.tail _ member))
    -- The value is read back up to what follows it.
    have back := each _ List.mem_cons_self spread after ends
    simp [readField, stringBody_escaped, afterColon_colon, readValue_behind_colon, back,
      insertEntry_last below, bind, Except.bind, pure, Except.pure]

/-- A value is read back from its text. -/
theorem readsBack_of_storable (storable : Storable depth value) (free : FloatFree value) :
    ReadsBack depth value := by
  -- The induction follows how deep values are nested: each level reads with one less left.
  induction storable with
  | null depth =>
    intro spread rest _
    rw [readValue.eq_def]
    rfl
  | bool depth value =>
    intro spread rest _
    cases value <;> (rw [readValue.eq_def]; rfl)
  | float depth value => cases free
  | integer depth fits => exact fun _ _ ends => readValue_integer fits ends
  | string depth value => exact fun _ _ _ => readValue_string value
  | @array depth items each ih =>
    intro spread rest _
    cases free with
    | array frees =>
    -- A list is left where its bracket was expected, whether it is empty or not.
    have reads := readsItems_itemTexts spread.inner fun item member =>
      ⟨frees item member, ih item member (frees item member)⟩
    obtain ⟨text, printed, read⟩ := readItems_bracketed spread rest reads
    rw [textChars, printed, readValue_array, read]
    rfl
  | @object depth fields ordered each ih =>
    intro spread rest _
    cases free with
    | object frees =>
    -- The fields fill an object that starts without any.
    have fills : Fills (readField depth) [] (fieldTexts spread.inner fields) fields :=
      fills_fieldTexts spread.inner ordered fun field member => ih field member (frees field member)
    obtain ⟨text, printed, read⟩ := readMembers_bracketed spread rest fills
    rw [textChars, printed, readValue_object, read]
    rfl

end Reading

/-- A value without floating point numbers is parsed from its own text, in whatever spread. -/
theorem parse_textChars {value : Json} (storable : Storable maxDepth value) (free : FloatFree value)
    (spread : Spread) : parse (String.ofList (textChars spread value)) = .ok value := by
  -- A whole text is a value with nothing behind it.
  have read := readsBack_of_storable storable free spread [] nofun
  rw [List.append_nil] at read
  exact decode_of_read read

section Kept

variable {α : Type} {kept : α → Prop}

/-- What follows a reading succeeds only where the reading has succeeded before. -/
theorem bind_ok {β : Type} {first : Except ReadError α} {next : α → Except ReadError β} {last : β}
    (done : (first >>= next) = .ok last) : ∃ found, first = .ok found ∧ next found = .ok last := by
  -- An error ends the computation, so that there was none.
  cases first with
  | error error => cases done
  | ok found => exact ⟨found, rfl, done⟩

/-- Where each item is read with a property, all items of a list have it. -/
theorem forall_readItems {next : Bool → Reader Bool} {item : Reader α} {fuel : Nat} {first : Bool}
    {text rest : List Char} {values : List α}
    (each : ∀ text value rest, item text = .ok (value, rest) → kept value)
    (read : readItems next item fuel first text = .ok (values, rest)) :
    ∀ value ∈ values, kept value := by
  -- Nothing more is read when the list has ended.
  -- Each item read uses up some of the fuel, and is read by the reader of items.
  induction fuel generalizing first text values with
  | zero => cases read
  | succ fuel ih =>
    obtain ⟨⟨more, behind⟩, -, onward⟩ := bind_ok read
    cases more with
    | false =>
      cases onward
      exact nofun
    | true =>
      obtain ⟨⟨value, after⟩, own, others⟩ := bind_ok onward
      obtain ⟨⟨more, last⟩, later, done⟩ := bind_ok others
      cases done
      exact List.forall_mem_cons.mpr ⟨each _ _ _ own, ih later⟩

/-- Where each member preserves a property, reading all of them preserves it. -/
theorem kept_readMembers (kept : α → Prop) {next : Bool → Reader Bool} {member : α → Reader α}
    {fuel : Nat} {first : Bool} {text rest : List Char} {state last : α}
    (each : ∀ state text changed rest, kept state → member state text = .ok (changed, rest) →
      kept changed)
    (before : kept state)
    (read : readMembers next member fuel first state text = .ok (last, rest)) : kept last := by
  -- The state goes through the reader of members once for each of them.
  induction fuel generalizing first text state with
  | zero => cases read
  | succ fuel ih =>
    obtain ⟨⟨more, behind⟩, -, onward⟩ := bind_ok read
    cases more with
    | false =>
      cases onward
      exact before
    | true =>
      obtain ⟨⟨changed, after⟩, own, later⟩ := bind_ok onward
      exact ih (each _ _ _ _ before own) later

end Kept

/-- What is read as a number is kept as one. -/
theorem storable_of_readNumber {depth : Nat} {negative : Bool} {text rest : List Char}
    {number : Number} (read : readNumber negative text = .ok (number, rest)) :
    Storable depth (.number number) := by
  -- A float may always be stored, and an integer has been read within its bounds.
  cases number with
  | float value => exact .float depth value
  | integer value => exact .integer depth (isInteger64_of_readNumber read)

/-- A field is filed in key order, with a value as it was read. -/
theorem storable_of_readField {depth : Nat} {text rest : List Char}
    {fields filed : List (String × Json)}
    (values : ∀ text value rest, readValue depth text = .ok (value, rest) → Storable depth value)
    (before : EntriesOrdered fields ∧ ∀ field ∈ fields, Storable depth field.2)
    (read : readField depth fields text = .ok (filed, rest)) :
    EntriesOrdered filed ∧ ∀ field ∈ filed, Storable depth field.2 := by
  -- The key, the colon and the value are read in turn, and the value is filed under the key.
  obtain ⟨⟨key, behind⟩, -, onward⟩ := bind_ok read
  obtain ⟨after, -, further⟩ := bind_ok onward
  obtain ⟨⟨value, last⟩, own, done⟩ := bind_ok further
  cases done
  refine ⟨insertEntry_ordered _ _ before.1, fun field member => ?_⟩
  rcases mem_insertEntry member with rfl | earlier
  · exact values _ _ _ own
  · exact before.2 field earlier

/-- Whatever is read is as JSON keeps it, and no deeper than allowed. -/
theorem storable_of_readValue {depth : Nat} {text rest : List Char} {value : Json}
    (read : readValue depth text = .ok (value, rest)) : Storable depth value := by
  induction depth using Nat.strongRecOn generalizing text rest value with
  | ind depth ih =>
    rw [readValue.eq_def] at read
    split at read
    · cases read
    rename_i c behind _
    -- The cases are those of the reader, told apart by the first character.
    split_ifs at read with null yes no sign digit quote list object
    · obtain ⟨_, _, done⟩ := bind_ok read
      cases done
      exact .null depth
    · obtain ⟨_, _, done⟩ := bind_ok read
      cases done
      exact .bool depth true
    · obtain ⟨_, _, done⟩ := bind_ok read
      cases done
      exact .bool depth false
    · obtain ⟨_, number, done⟩ := bind_ok read
      cases done
      exact storable_of_readNumber number
    · obtain ⟨_, number, done⟩ := bind_ok read
      cases done
      exact storable_of_readNumber number
    · obtain ⟨_, _, done⟩ := bind_ok read
      cases done
      exact .string depth _
    · cases depth with
      | zero => cases read
      | succ inner =>
        obtain ⟨_, items, closed⟩ := bind_ok read
        obtain ⟨_, _, done⟩ := bind_ok closed
        cases done
        -- Arrays are read with less depth, for which the items are storable by induction.
        exact .array (forall_readItems (fun _ _ _ own => ih inner inner.lt_succ_self own) items)
    · cases depth with
      | zero => cases read
      | succ inner =>
        obtain ⟨⟨fields, after⟩, members, closed⟩ := bind_ok read
        obtain ⟨_, _, done⟩ := bind_ok closed
        cases done
        have values : ∀ text value rest, readValue inner text = .ok (value, rest) →
            Storable inner value := fun _ _ _ own => ih inner inner.lt_succ_self own
        -- Fields are put in one by one, and their order is kept.
        have kept := kept_readMembers
          (fun fields => EntriesOrdered fields ∧ ∀ field ∈ fields, Storable inner field.2)
          (fun _ _ _ _ before own => storable_of_readField values before own)
          ⟨.nil, nofun⟩ members
        exact .object kept.1 kept.2
    · cases read

/-- Whatever is parsed is as JSON keeps it, and no deeper than allowed. -/
theorem storable_of_parse {text : String} {value : Json} (parsed : parse text = .ok value) :
    Storable maxDepth value := by
  -- A parsed text is a value that was read from its beginning to its end.
  cases outcome : readValue maxDepth text.toList with
  | error error => simp [parse, decode, outcome, bind, Except.bind, Except.mapError] at parsed
  | ok found =>
    obtain ⟨own, rest⟩ := found
    cases last : ended rest with
    | error error =>
      simp [parse, decode, outcome, last, bind, Except.bind, Except.mapError] at parsed
    | ok _ =>
      simp only [parse, decode, outcome, last, bind, Except.bind, pure, Except.pure,
        Except.mapError, Except.ok.injEq] at parsed
      exact parsed ▸ storable_of_readValue outcome

end SchemaLedger.Json
