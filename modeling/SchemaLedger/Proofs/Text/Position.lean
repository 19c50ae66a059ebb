import SchemaLedger.Proofs.Text.Scan

/-! A scan by characters finds the place that a scan by bytes would find, and no pattern occurs
where it would tear a character apart. -/

namespace SchemaLedger

open String

/-- The bytes of a pattern stand in those of a text from a position on. -/
def OccursAt (pattern text : String) (position : Pos.Raw) : Prop :=
  text.toByteArray.extract position.byteIdx (position + pattern).byteIdx = pattern.toByteArray

/-- A position is the first one at which a pattern occurs. -/
def FirstAt (pattern text : String) (position : Pos.Raw) : Prop :=
  OccursAt pattern text position ∧ ∀ other, OccursAt pattern text other → position ≤ other

/-- Of two cuts of a text, the one with fewer characters before it has fewer bytes before it. -/
theorem rawEndPos_le_iff {front back other behind : List Char}
    (same : front ++ back = other ++ behind) :
    (ofList front).rawEndPos ≤ (ofList other).rawEndPos ↔ front.length ≤ other.length := by
  rcases List.append_eq_append_iff.mp same with ⟨between, rfl, -⟩ | ⟨between, rfl, -⟩
  · -- The first cut is the one further ahead, and both counts say so.
    simp only [Pos.Raw.le_iff, byteIdx_rawEndPos, ofList_append, utf8ByteSize_append,
      List.length_append, Nat.le_add_right]
  · -- Between the cuts there is a character exactly if there is a byte.
    have empty : (ofList between).utf8ByteSize = 0 ↔ between.length = 0 := by
      rw [utf8ByteSize_eq_zero_iff, ← toList_inj, toList_ofList, toList_empty,
        List.length_eq_zero_iff]
    simp only [Pos.Raw.le_iff, byteIdx_rawEndPos, ofList_append, utf8ByteSize_append,
      List.length_append]
    omega

/-- Two cuts of a text at the same position are the same cut. -/
theorem eq_of_rawEndPos_eq {front back other behind : String}
    (same : front ++ back = other ++ behind) (ends : front.rawEndPos = other.rawEndPos) :
    front = other ∧ back = behind := by
  -- Positions count bytes, so that the texts are cut as bytes.
  have size : front.toByteArray.size = other.toByteArray.size := by
    simpa [Pos.Raw.ext_iff] using ends
  have bytes : front.toByteArray ++ back.toByteArray = other.toByteArray ++ behind.toByteArray := by
    rw [← toByteArray_append, same, toByteArray_append]
  obtain ⟨fronts, backs⟩ := (ByteArray.append_eq_append_iff_of_size_eq_left size).mp bytes
  exact ⟨toByteArray_inj.mp fronts, toByteArray_inj.mp backs⟩

variable {pattern text : String} {position : Pos.Raw}

/-- There is only one first position. -/
theorem FirstAt.unique {other : Pos.Raw} (first : FirstAt pattern text position)
    (otherFirst : FirstAt pattern text other) : position = other :=
  Std.le_antisymm (first.2 other otherFirst.1) (otherFirst.2 position first.1)

/-- A pattern that occurs begins and ends between two characters. -/
theorem OccursAt.isValid (filled : pattern ≠ "") (occurs : OccursAt pattern text position) :
    position.IsValid text ∧ (position + pattern).IsValid text := by
  -- An occurrence that is cut short would have fewer bytes than the pattern.
  have size := congrArg ByteArray.size occurs
  simp only [ByteArray.size_extract, size_toByteArray, Pos.Raw.byteIdx_add_string] at size
  have some : pattern.utf8ByteSize ≠ 0 := by simpa using filled
  have ahead : position ≤ position + pattern := by simp [Pos.Raw.le_iff]
  have within : position + pattern ≤ text.rawEndPos := by
    simp only [Pos.Raw.le_iff, Pos.Raw.byteIdx_add_string, byteIdx_rawEndPos]
    omega
  have torn : position ≠ position + pattern := by
    simp only [ne_eq, Pos.Raw.ext_iff, Pos.Raw.byteIdx_add_string]
    omega
  -- The bytes between the two positions are those of a text.
  apply ((Pos.Raw.isValidUTF8_extract_iff _ _ ahead within).mp _).resolve_left torn
  rw [occurs]
  exact pattern.isValidUTF8

/-- The bytes of a pattern occur exactly where its characters do. -/
theorem occursAt_iff (filled : pattern ≠ "") :
    OccursAt pattern text position ↔
      ∃ front back, text = front ++ pattern ++ back ∧ position = front.rawEndPos := by
  constructor
  · intro occurs
    obtain ⟨begins, ends⟩ := occurs.isValid filled
    have ahead : position.byteIdx ≤ (position + pattern).byteIdx := by simp
    -- The bytes before the pattern are those of a text, and so are the bytes behind it.
    let front : String := ⟨_, begins.isValidUTF8_extract_zero⟩
    let back : String := ⟨_, ends.isValidUTF8_extract_utf8ByteSize⟩
    refine ⟨front, back, ?_, ?_⟩
    · apply toByteArray_inj.mp
      rw [toByteArray_append, toByteArray_append, ← occurs,
        ← ByteArray.extract_eq_extract_append_extract _ (Nat.zero_le _) ahead,
        ← ByteArray.extract_eq_extract_append_extract _ (Nat.zero_le _) ends.le_utf8ByteSize]
      exact ByteArray.extract_zero_size.symm
    · apply Pos.Raw.ext
      simpa [front] using (Nat.min_eq_left begins.le_utf8ByteSize).symm
  · rintro ⟨front, back, rfl, rfl⟩
    -- The bytes of the three parts stand one behind the other.
    have size : front.utf8ByteSize = front.toByteArray.size + 0 := by simp
    rw [OccursAt, Pos.Raw.byteIdx_add_string, byteIdx_rawEndPos, toByteArray_append,
      toByteArray_append, ByteArray.append_assoc, size, Nat.add_assoc,
      ByteArray.extract_append_size_add, Nat.zero_add, ByteArray.extract_append_eq_left]
    simp

/-- A pattern that occurs among the characters of a text occurs in it. -/
theorem occursAt_of_toList (filled : pattern ≠ "") {front back : List Char}
    (cut : text.toList = front ++ pattern.toList ++ back) :
    OccursAt pattern text (ofList front).rawEndPos := by
  -- The two cuts are the same text, once as characters and once as a string.
  refine (occursAt_iff filled).mpr ⟨ofList front, ofList back, ?_, rfl⟩
  rw [← toList_inj, cut]
  simp

/-- Nothing is found exactly if the pattern occurs nowhere. -/
theorem scan_eq_none (filled : pattern ≠ "") :
    splitAtFirst? pattern.toList text.toList = none ↔
      ∀ position, ¬ OccursAt pattern text position := by
  -- The scan looks for an infix, which is an occurrence at some position.
  rw [splitAtFirst?_eq_none]
  constructor
  · intro absent position occurs
    obtain ⟨front, back, rfl, -⟩ := (occursAt_iff filled).mp occurs
    exact absent ⟨front.toList, back.toList, by simp⟩
  · rintro nowhere ⟨front, back, cut⟩
    exact nowhere _ (occursAt_of_toList filled cut.symm)

/-- A text is split at the first position at which the pattern occurs. -/
theorem scan_eq_some (filled : pattern ≠ "") {before occurrence : List Char} :
    splitAtFirst? pattern.toList text.toList = some (before, occurrence) ↔
      text = ofList before ++ ofList occurrence ∧
        FirstAt pattern text (ofList before).rawEndPos := by
  rw [splitAtFirst?_eq_some]
  constructor
  · rintro ⟨whole, ⟨after, opens⟩, first⟩
    have cut : text.toList = before ++ pattern.toList ++ after := by
      rw [whole, ← opens, List.append_assoc]
    refine ⟨?_, occursAt_of_toList filled cut, fun other occurs => ?_⟩
    · rw [← toList_inj, whole]
      simp
    · -- Any other occurrence is one among the characters too, and so not further ahead.
      obtain ⟨front, back, same, rfl⟩ := (occursAt_iff filled).mp occurs
      have chars : text.toList = front.toList ++ pattern.toList ++ back.toList := by simp [same]
      have ahead := first _ _ chars
      rw [whole, List.append_assoc] at chars
      simpa using (rawEndPos_le_iff chars).mpr ahead
  · rintro ⟨whole, occurs, first⟩
    obtain ⟨front, back, cut, same⟩ := (occursAt_iff filled).mp occurs
    rw [append_assoc] at cut
    -- The text before the first occurrence is known by its length.
    obtain ⟨-, occurrence_eq⟩ := eq_of_rawEndPos_eq (whole.symm.trans cut) same
    have chars : text.toList = before ++ occurrence := by simp [whole]
    refine ⟨chars, ⟨back.toList, ?_⟩, fun ahead behind other => ?_⟩
    · rw [← toList_append, ← occurrence_eq, toList_ofList]
    · have least := first _ (occursAt_of_toList filled other)
      rw [chars, List.append_assoc] at other
      exact (rawEndPos_le_iff other).mp least

end SchemaLedger
