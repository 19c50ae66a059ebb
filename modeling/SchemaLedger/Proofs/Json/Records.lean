import SchemaLedger.Proofs.Json.Numbers
import SchemaLedger.Proofs.Json.Strings

/-! Records are read back from printed objects, field by field and in whatever spread. -/

namespace SchemaLedger.Json

section Spacing

variable {spread : Spread} {rest : List Char}

/-- Nothing is skipped before a character other than a blank. -/
theorem skipSpaces_solid {c : Char} (solid : isSpace c = false) :
    skipSpaces (c :: rest) = c :: rest :=
  -- The first character that is no space ends the skipping.
  List.dropWhile_cons_of_neg (by simp [solid])

/-- The blanks of a line break are skipped. -/
theorem skipSpaces_lineBreak (spread : Spread) (text : List Char) :
    skipSpaces (spread.lineBreak ++ text) = skipSpaces text := by
  cases spread with
  | compact => rfl
  | indented depth =>
    -- A line break and its indentation are nothing but spaces.
    have blanks : ∀ c ∈ Spread.lineBreak (.indented depth), isSpace c = true := by
      simp [Spread.lineBreak, isSpace]
    exact List.dropWhile_append_of_pos blanks

/-- The first key of an object follows its opening brace. -/
theorem nextKey_first : nextKey true (spread.lineBreak ++ '"' :: rest) = .ok (true, rest) := by
  -- The quote behind the line break opens the first key.
  rw [nextKey, skipSpaces_lineBreak, skipSpaces_solid (by decide)]
  rfl

/-- Any other key of an object follows a comma. -/
theorem nextKey_further :
    nextKey false (',' :: (spread.lineBreak ++ '"' :: rest)) = .ok (true, rest) := by
  -- The comma is followed by a line break, and the quote behind it opens a key.
  rw [nextKey, skipSpaces_solid (by decide)]
  simp only [Bool.false_eq_true, if_false]
  rw [skipSpaces_lineBreak, skipSpaces_solid (by decide)]
  rfl

/-- No key follows in front of the closing brace. -/
theorem nextKey_last {first : Bool} :
    nextKey first (spread.lineBreak ++ '\x7d' :: rest) = .ok (false, '\x7d' :: rest) := by
  -- A brace ends the object even at its beginning.
  rw [nextKey, skipSpaces_lineBreak, skipSpaces_solid (by decide)]
  rfl

/-- What follows a printed colon may start with a blank. -/
theorem afterColon_colon : afterColon (spread.colon ++ rest) = .ok (spread.colon.tail ++ rest) := by
  -- No style puts anything in front of the colon.
  cases spread <;> rfl

/-- A string is read where a string is asked for, behind the blank that a colon may have. -/
theorem readText_behind_colon (value : String) :
    readText (spread.colon.tail ++ (stringText value ++ rest)) = .ok (value, rest) := by
  -- Only the indented style has a blank behind the colon, which the reader skips.
  cases spread with
  | compact => exact readText_stringText value rest
  | indented depth =>
    rw [← readText_stringText value rest]
    rfl

/-- A string behind a colon is put where it belongs. -/
theorem putText_behind_colon {δ : Type} (put : String → δ) (value : String) :
    ((readText (spread.colon.tail ++ (stringText value ++ rest))).bind fun found =>
      .ok (put found.1, found.2)) = .ok (put value, rest) := by
  -- The text is read first, and then put where it belongs.
  rw [readText_behind_colon]
  rfl

end Spacing

/-- What is read from a text to its end is decoded from it. -/
theorem decode_of_read {α : Type} {value : Reader α} {chars : List Char} {found : α}
    (read : value chars = .ok (found, [])) :
    decode value (String.ofList chars) = .ok found := by
  -- Nothing is left behind the value, as a whole text requires.
  rw [decode, String.toList_ofList, read]
  rfl

section Members

variable {α : Type} {member : α → Reader α} {state last : α} {fields : List (List Char)}

/-- Printed fields lead from one state to another if each member is read where it stands, in front
of what cannot be mistaken for more of a number. -/
inductive Fills (member : α → Reader α) : α → List (List Char) → α → Prop
  | nil (state : α) : Fills member state [] state
  | cons {state next last : α} {body : List Char} {fields : List (List Char)}
    (reads : ∀ rest, EndsNumber rest → member state (body ++ rest) = .ok (next, rest))
    (later : Fills member next fields last) : Fills member state (('"' :: body) :: fields) last

/-- Each printed item takes some text. -/
theorem length_le_flatMap (spread : Spread) (items : List (List Char)) :
    items.length ≤ (items.flatMap fun item => ',' :: spread.lineBreak ++ item).length := by
  -- Each item brings a comma at least.
  induction items with
  | nil => simp
  | cons item items ih =>
    simp only [List.flatMap_cons, List.length_cons, List.length_append]
    omega

/-- A number ends before the comma, the line break or the bracket behind it. -/
theorem endsNumber_further (spread outer : Spread) (items : List (List Char)) {rest : List Char}
    (ends : EndsNumber rest) :
    EndsNumber ((items.flatMap fun item => ',' :: spread.lineBreak ++ item) ++
      (outer.lineBreak ++ rest)) := by
  -- Behind a number comes a comma, a line break, or what ends the list.
  cases items with
  | cons item items => exact endsNumber_cons (by decide)
  | nil =>
    cases outer with
    | compact => exact ends
    | indented depth => exact endsNumber_cons (by decide)

/-- Members behind the first one are read up to the closing brace. -/
theorem readMembers_further (spread outer : Spread) (rest : List Char)
    (fills : Fills member state fields last) (fuel : Nat) (enough : fields.length < fuel) :
    readMembers nextKey member fuel false state
      ((fields.flatMap fun field => ',' :: spread.lineBreak ++ field) ++
        (outer.lineBreak ++ '\x7d' :: rest)) = .ok (last, '\x7d' :: rest) := by
  -- Each member uses up one unit of fuel, and one is left for the brace.
  obtain ⟨fuel, rfl⟩ : ∃ fewer, fuel = fewer + 1 := Nat.exists_eq_add_one.mpr (by omega)
  induction fills generalizing fuel with
  | nil state => simp [readMembers, nextKey_last, bind, Except.bind, pure, Except.pure]
  | @cons state next last body fields reads later ih =>
    obtain ⟨fuel, rfl⟩ : ∃ fewer, fuel = fewer + 1 :=
      Nat.exists_eq_add_one.mpr (by simp at enough; omega)
    have further := ih fuel (by simpa using enough)
    -- The member is read up to what follows it, which no number could go on with.
    have brace : EndsNumber ('\x7d' :: rest) := endsNumber_cons (by decide)
    have own := reads _ (endsNumber_further spread outer fields brace)
    simp only [List.cons_append] at own further ⊢
    rw [readMembers]
    simp only [List.flatMap_cons, List.cons_append, List.append_assoc, nextKey_further, bind,
      Except.bind, if_true, own]
    exact further

/-- All members of a printed object are read up to the closing brace. -/
theorem readMembers_bracketed (spread : Spread) (rest : List Char)
    (fills : Fills member state fields last) :
    ∃ text, bracketed spread '\x7b' '\x7d' fields ++ rest = '\x7b' :: text ∧
      readMembers nextKey member (text.length + 1) true state text =
        .ok (last, '\x7d' :: rest) := by
  -- The first member stands behind no comma, and all others do.
  cases fills with
  | nil state => exact ⟨'\x7d' :: rest, rfl, rfl⟩
  | @cons state next last body fields reads later =>
    let further := fields.flatMap fun field => ',' :: spread.inner.lineBreak ++ field
    have printed : bracketed spread '\x7b' '\x7d' (('"' :: body) :: fields) ++ rest =
        '\x7b' :: (spread.inner.lineBreak ++
          '"' :: (body ++ (further ++ (spread.lineBreak ++ '\x7d' :: rest)))) := by
      simp [bracketed, further]
    -- The fuel is one unit for each character, and no member is shorter than one.
    have enough : fields.length ≤ further.length := length_le_flatMap spread.inner fields
    refine ⟨_, printed, ?_⟩
    rw [readMembers]
    simp only [nextKey_first, bind, Except.bind, if_true]
    rw [reads _ (endsNumber_further spread.inner spread _ (endsNumber_cons (by decide)))]
    refine readMembers_further spread.inner spread rest later _ ?_
    simp only [List.length_append, List.length_cons]
    omega

end Members

namespace RecordShape

variable {δ : Type} {shape : RecordShape δ} {draft last : δ} {fields : List (List Char)}

/-- A printed field fills its slot, if that is still empty. -/
theorem fills_field (next : δ) {spread : Spread} {key : String} {slot : Slot δ}
    {value : List Char} (known : shape.slots.find? (·.key == key) = some slot)
    (vacant : slot.isFilled draft = false)
    (filled : ∀ rest, slot.fill draft (spread.colon.tail ++ (value ++ rest)) = .ok (next, rest))
    (later : Fills shape.member next fields last) :
    Fills shape.member draft ((stringText key ++ spread.colon ++ value) :: fields) last := by
  refine .cons (fun rest _ => ?_) later
  -- The key is read up to its quote, and the colon up to the blank before the value.
  simp [member, stringBody_escaped, known, vacant, afterColon_colon, filled, bind, Except.bind]

/-- A printed object is read back as the draft that its fields fill, if nothing is missing. -/
theorem read_bracketed (spread : Spread) (rest : List Char)
    (fills : Fills shape.member shape.blank fields draft)
    (complete : ∀ slot ∈ shape.slots, slot.required = true → slot.isFilled draft = true) :
    shape.read (bracketed spread '\x7b' '\x7d' fields ++ rest) = .ok (draft, rest) := by
  obtain ⟨text, printed, members⟩ := readMembers_bracketed spread rest fills
  -- The search for a slot that is required but not filled finds none.
  have filled : shape.slots.find? (fun slot => slot.required && !slot.isFilled draft) = none := by
    simpa using complete
  rw [printed, read, skipSpaces_solid (by decide)]
  simp only [members, filled, bind, Except.bind]
  rfl

end RecordShape

end SchemaLedger.Json
