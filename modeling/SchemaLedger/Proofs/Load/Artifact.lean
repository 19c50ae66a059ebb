import SchemaLedger.Load.Artifact
import SchemaLedger.Proofs.Json.Records

/-! Artifacts are read back from their text, whatever their scripts and descriptions hold. -/

namespace SchemaLedger.Artifact

open Json

/-- The draft with all fields of an artifact. -/
def filled (artifact : Artifact) : Draft :=
  ⟨some artifact.description, some artifact.up, some artifact.down⟩

/-- The printed fields of an artifact. -/
def printed (artifact : Artifact) (spread : Spread) : List (List Char) :=
  [stringText "description" ++ spread.colon ++ stringText artifact.description,
    stringText "up" ++ spread.colon ++ stringText artifact.up,
    stringText "down" ++ spread.colon ++ stringText artifact.down]

/-- The printed fields of an artifact fill its draft, each its own slot. -/
theorem fills_printed (artifact : Artifact) (spread : Spread) :
    Fills shape.member shape.blank (artifact.printed spread) artifact.filled := by
  obtain ⟨description, up, down⟩ := artifact
  -- Each slot takes a text in the same way, and is still empty when its turn comes.
  refine RecordShape.fills_field ⟨some description, none, none⟩ rfl rfl (fun rest => ?_) ?_
  · exact putText_behind_colon (fun value => Draft.mk (some value) none none) description
  refine RecordShape.fills_field ⟨some description, some up, none⟩ rfl rfl (fun rest => ?_) ?_
  · exact putText_behind_colon (fun value => Draft.mk (some description) (some value) none) up
  refine RecordShape.fills_field ⟨some description, some up, some down⟩ rfl rfl (fun rest => ?_) ?_
  · exact putText_behind_colon (fun value => Draft.mk (some description) (some up) (some value)) down
  exact .nil _

/-- An artifact is read back from its text. -/
theorem ofText_text (artifact : Artifact) : ofText artifact.text = .ok artifact := by
  -- All slots are filled, so that the reader misses none.
  have complete : ∀ slot ∈ shape.slots, slot.required = true → slot.isFilled artifact.filled := by
    simp [shape, filled]
  have read := RecordShape.read_bracketed (.indented 0) [] (artifact.fills_printed (.indented 1))
    complete
  -- The text is laid out as a record of three texts.
  have chars : artifact.text.toList =
      bracketed (.indented 0) '\x7b' '\x7d' (artifact.printed (.indented 1)) ++ [] := by
    simp [text, toJson, pretty, textChars, fieldTexts, printed, Spread.inner]
  rw [ofText, decode, chars]
  simp only [read, bind, Except.bind]
  rfl

end SchemaLedger.Artifact
