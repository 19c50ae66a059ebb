import SchemaLedger.Ledger.Document
import SchemaLedger.Proofs.Json.Values
import SchemaLedger.Proofs.Ledger.Records
import SchemaLedger.Proofs.Time.Stamp

/-! A ledger is read back from its document, in whatever spread that is printed. -/

namespace SchemaLedger

open Json

namespace Json

variable {α : Type} {item : Reader α} {texts : List (List Char)} {values : List α}

/-- The blank that a colon may have is passed over in front of a value. -/
theorem skipSpaces_behind_colon (spread : Spread) (text : List Char) :
    skipSpaces (spread.colon.tail ++ text) = skipSpaces text := by
  -- What follows the colon is a space or nothing.
  cases spread <;> rfl

/-- A printed list is read back, behind the blank that a colon may have. -/
theorem readList_bracketed (outer spread : Spread) (rest : List Char)
    (reads : List.Forall₂ (ReadsItem item) texts values) :
    readList item (outer.colon.tail ++ (bracketed spread '[' ']' texts ++ rest)) =
      .ok (values, rest) := by
  -- The bracket is read first, and then the items.
  obtain ⟨text, printed, read⟩ := readItems_bracketed spread rest reads
  rw [readList, skipSpaces_behind_colon, printed, skipSpaces_solid (by decide)]
  simp only [read, bind, Except.bind]
  rfl

end Json

/-- A time stamp is read back, behind the blank that a colon may have. -/
theorem readOptional_stamp (spread : Spread) (moment : Instant) (rest : List Char) :
    readOptional readStamp (spread.colon.tail ++ (stringText moment.text ++ rest)) =
      .ok (some moment, rest) := by
  have solid : skipSpaces (stringText moment.text ++ rest) = stringText moment.text ++ rest :=
    skipSpaces_solid (by decide)
  have stamp : readStamp (stringText moment.text ++ rest) = .ok (moment, rest) := by
    simp [readStamp, readTextAs_stringText, Instant.ofText?_text, bind, Except.bind, pure,
      Except.pure]
  rw [readOptional, skipSpaces_behind_colon, solid]
  -- The quote is not mistaken for the start of a null.
  show (readStamp (stringText moment.text ++ rest) >>= fun found =>
    .ok (some found.1, found.2)) = .ok (some moment, rest)
  rw [stamp]
  rfl

namespace Migration

/-- The draft with all fields of a record, where the time is left out if there is none. -/
def filled (record : Migration) : Draft :=
  ⟨some record.name, some record.up, some record.down, some record.description,
    record.appliedAt.map some⟩

/-- The printed fields of a record. -/
def printed (record : Migration) (spread : Spread) : List (List Char) :=
  [stringText "name" ++ spread.colon ++ stringText record.name,
    stringText "up" ++ spread.colon ++ stringText record.up,
    stringText "down" ++ spread.colon ++ stringText record.down,
    stringText "description" ++ spread.colon ++ stringText record.description] ++
    record.appliedAt.toList.map fun moment =>
      stringText "applied_at" ++ spread.colon ++ stringText moment.text

/-- The text of a record shows its printed fields. -/
theorem textChars_toJson (record : Migration) (spread : Spread) :
    textChars spread record.toJson =
      bracketed spread '\x7b' '\x7d' (record.printed spread.inner) := by
  -- A time that is absent leaves its field out.
  rcases record with ⟨name, up, down, description, _ | moment⟩ <;>
    simp [toJson, printed, textChars, fieldTexts]

/-- The printed fields of a record fill its draft, each its own slot. -/
theorem fills_printed (record : Migration) (spread : Spread) :
    Fills shape.member shape.blank (record.printed spread) record.filled := by
  obtain ⟨name, up, down, description, appliedAt⟩ := record
  -- Each slot takes its value while it is still empty.
  refine RecordShape.fills_field ⟨some name, none, none, none, none⟩ rfl rfl (fun rest => ?_) ?_
  · exact putText_behind_colon (fun value => Draft.mk (some value) none none none none) name
  refine RecordShape.fills_field ⟨some name, some up, none, none, none⟩ rfl rfl
    (fun rest => ?_) ?_
  · exact putText_behind_colon (fun value => Draft.mk (some name) (some value) none none none) up
  refine RecordShape.fills_field ⟨some name, some up, some down, none, none⟩ rfl rfl
    (fun rest => ?_) ?_
  · exact putText_behind_colon
      (fun value => Draft.mk (some name) (some up) (some value) none none) down
  refine RecordShape.fills_field ⟨some name, some up, some down, some description, none⟩ rfl rfl
    (fun rest => ?_) ?_
  · exact putText_behind_colon
      (fun value => Draft.mk (some name) (some up) (some down) (some value) none) description
  -- The slot for the time stays empty where there is no time.
  cases appliedAt with
  | none => exact .nil _
  | some moment =>
    refine RecordShape.fills_field
      ⟨some name, some up, some down, some description, some (some moment)⟩ rfl rfl
      (fun rest => ?_) (.nil _)
    show (readOptional readStamp (spread.colon.tail ++ (stringText moment.text ++ rest)) >>=
      fun found => .ok (_, found.2)) = _
    rw [readOptional_stamp]
    rfl

/-- A record is read back from its text. -/
theorem read_textChars (record : Migration) (spread : Spread) (rest : List Char) :
    Migration.read (textChars spread record.toJson ++ rest) = .ok (record, rest) := by
  -- All fields but the time have to be there, and are.
  have complete : ∀ slot ∈ shape.slots, slot.required = true → slot.isFilled record.filled := by
    simp [shape, filled]
  rw [textChars_toJson, Migration.read,
    RecordShape.read_bracketed spread rest (record.fills_printed spread.inner) complete]
  rcases record with ⟨name, up, down, description, _ | moment⟩ <;> rfl

end Migration

namespace Ledger

/-- The records of a ledger are read back from their texts. -/
theorem readsItems_records (spread : Spread) (records : List Migration) :
    List.Forall₂ (ReadsItem Migration.read) (itemTexts spread (records.map Migration.toJson))
      records := by
  induction records with
  | nil => exact .nil
  | cons record rest ih =>
    -- A record starts with its brace, which has no other meaning in a list.
    refine .cons ⟨?_, fun after _ => record.read_textChars spread after⟩ ih
    rw [record.textChars_toJson]
    exact starts_bracketed _ _ ⟨by decide, by decide, by decide⟩

/-- The records of a ledger are read back from its document. -/
theorem readDocument_textChars (ledger : Ledger) (spread : Spread) (rest : List Char) :
    readDocument (textChars spread ledger.document ++ rest) = .ok (ledger.records, rest) := by
  -- The list is the only field of the document.
  have fills : Fills shape.member shape.blank
      [stringText "list" ++ spread.inner.colon ++
        bracketed spread.inner '[' ']'
          (itemTexts spread.inner.inner (ledger.records.map Migration.toJson))]
      (some ledger.records) := by
    refine RecordShape.fills_field (some ledger.records) rfl rfl (fun after => ?_) (.nil _)
    -- The value of the field is a list, whose records are read one by one.
    have reads := readsItems_records spread.inner.inner ledger.records
    show (readList Migration.read _ >>= fun found => .ok (some found.1, found.2)) = _
    rw [readList_bracketed spread.inner spread.inner after reads]
    rfl
  have complete : ∀ slot ∈ shape.slots, slot.required = true →
      slot.isFilled (some ledger.records) := by
    simp [shape]
  have shown : textChars spread ledger.document = bracketed spread '\x7b' '\x7d'
      [stringText "list" ++ spread.inner.colon ++
        bracketed spread.inner '[' ']'
          (itemTexts spread.inner.inner (ledger.records.map Migration.toJson))] := by
    simp [document, textChars, fieldTexts]
  rw [shown, readDocument, RecordShape.read_bracketed spread rest fills complete]
  rfl

/-- A ledger is read back from its document, whether that is printed on one line or on several. -/
theorem ofDocument_document (ledger : Ledger) :
    ofDocument ledger.document.compact = .ok ledger ∧
      ofDocument ledger.document.pretty = .ok ledger := by
  have read : ∀ spread, ofDocument (String.ofList (textChars spread ledger.document)) =
      .ok ledger := fun spread => by
    have records := ledger.readDocument_textChars spread []
    rw [List.append_nil] at records
    rw [ofDocument, decode_of_read records]
    -- The names were distinct before, and so they are found to be again.
    exact ofRecords_eq_ok.mpr rfl
  exact ⟨read .compact, read (.indented 0)⟩

end Ledger

end SchemaLedger
