import SchemaLedger.Migration.Script
import SchemaLedger.Proofs.Text.Position

/-! A script is read exactly if it has both of its sections in order, and no text is lost. -/

namespace SchemaLedger.Script

open String

/-- The sections of a script, which begin where each of the two markers first occurs. -/
structure Sections (text head up down : String) : Prop where
  whole : text = head ++ up ++ down
  up_opens : ∃ rest, up = "-- up" ++ rest
  down_opens : ∃ rest, down = "-- down" ++ rest
  /-- No up marker begins within the head. -/
  head_free : ∀ position, OccursAt "-- up" text position → head.rawEndPos ≤ position
  /-- No down marker begins within the head or the up section. -/
  up_free : ∀ position, OccursAt "-- down" text position → (head ++ up).rawEndPos ≤ position

/-- What a script says about itself: the rest of the line behind the first marker for it. -/
inductive Describes (text : String) : String → Prop where
  | given {before line after : String}
      (whole : text = before ++ "-- description: " ++ line ++ "\n" ++ after)
      (first : FirstAt "-- description: " text before.rawEndPos) (ends : '\n' ∉ line.toList) :
      Describes text line
  /-- The line does not end. -/
  | unended {before rest : String} (whole : text = before ++ "-- description: " ++ rest)
      (first : FirstAt "-- description: " text before.rawEndPos) (endless : '\n' ∉ rest.toList) :
      Describes text "<not specified>"
  | missing (nowhere : ∀ position, ¬ OccursAt "-- description: " text position) :
      Describes text "<not specified>"

/-- What comes of reading a script, told by where its markers are. -/
inductive Outcome (name text : String) : Except FileFlaw Migration → Prop where
  | noUp (nowhere : ∀ position, ¬ OccursAt "-- up" text position) :
      Outcome name text (.error .noUpSection)
  | noDown {upAt : Pos.Raw} (firstUp : FirstAt "-- up" text upAt)
      (nowhere : ∀ position, ¬ OccursAt "-- down" text position) :
      Outcome name text (.error .noDownSection)
  | swapped {upAt downAt : Pos.Raw} (firstUp : FirstAt "-- up" text upAt)
      (firstDown : FirstAt "-- down" text downAt) (order : downAt < upAt) :
      Outcome name text (.error .sectionsOutOfOrder)
  | cut {head up down : String} (sections : Sections text head up down) :
      Outcome name text (.ok { name, up, down, description := description text.toList })

section Markers

variable {up down : List Char}

/-- The end of an up marker is never the beginning of a down marker. -/
theorem markers_apart : ∀ part ∈ upMarker.tails, part <+: downMarker → part = [] := by
  decide

/-- A down marker behind an up section does not complete the marker of that section. -/
theorem upMarker_kept (opens : upMarker <+: up ++ down) (follows : downMarker <+: down) :
    upMarker <+: up := by
  obtain ⟨after, same⟩ := opens
  rcases List.append_eq_append_iff.mp same with ⟨rest, up_eq, -⟩ | ⟨part, marker_eq, down_eq⟩
  · exact ⟨rest, up_eq.symm⟩
  · -- Some end of the marker would reach into the down section.
    have ending : part <:+ upMarker := ⟨up, marker_eq.symm⟩
    have short : part.length ≤ downMarker.length :=
      ending.length_le.trans (by decide : upMarker.length ≤ downMarker.length)
    have shared : part <+: downMarker :=
      List.prefix_of_prefix_length_le ⟨after, down_eq.symm⟩ follows short
    have empty := markers_apart part ((List.mem_tails _ _).mpr ending) shared
    rw [empty, List.append_nil] at marker_eq
    exact ⟨[], by rw [List.append_nil, marker_eq]⟩

end Markers

namespace Sections

section Scans

variable {text : String} {head up down : List Char}

/-- What a scan for each of the markers finds are the sections of a script. -/
theorem of_scans (scanUp : splitAtFirst? upMarker text.toList = some (head, up ++ down))
    (scanDown : splitAtFirst? downMarker text.toList = some (head ++ up, down)) :
    Sections text (ofList head) (ofList up) (ofList down) := by
  obtain ⟨whole, upFirst⟩ := (scan_eq_some (by decide)).mp scanUp
  obtain ⟨-, downFirst⟩ := (scan_eq_some (by decide)).mp scanDown
  -- The scan saw the up marker in the whole rest of the text, and it has to be in the section.
  have opens := (first_of_splitAtFirst? scanUp).1
  have follows := (first_of_splitAtFirst? scanDown).1
  obtain ⟨upRest, up_eq⟩ := upMarker_kept opens follows
  obtain ⟨downRest, down_eq⟩ := follows
  rw [ofList_append, ← append_assoc] at whole
  rw [ofList_append] at downFirst
  -- The text is cut into the three parts, each as long as it was scanned.
  refine ⟨whole, ⟨ofList upRest, ?_⟩, ⟨ofList downRest, ?_⟩, upFirst.2, downFirst.2⟩
  · rw [← up_eq, ofList_append]
    rfl
  · rw [← down_eq, ofList_append]
    rfl

end Scans

variable {text head up down other otherUp otherDown : String}

/-- The first up marker stands behind the head. -/
theorem up_first (sections : Sections text head up down) : FirstAt "-- up" text head.rawEndPos := by
  -- The section opens with the marker, and before it there is none.
  obtain ⟨rest, opens⟩ := sections.up_opens
  refine ⟨(occursAt_iff (by decide)).mpr ⟨head, rest ++ down, ?_, rfl⟩, sections.head_free⟩
  rw [sections.whole, opens]
  simp [append_assoc]

/-- The first down marker stands behind the up section. -/
theorem down_first (sections : Sections text head up down) :
    FirstAt "-- down" text (head ++ up).rawEndPos := by
  -- The section opens with the marker, and the one before it has none.
  obtain ⟨rest, opens⟩ := sections.down_opens
  refine ⟨(occursAt_iff (by decide)).mpr ⟨head ++ up, rest, ?_, rfl⟩, sections.up_free⟩
  rw [sections.whole, opens]
  simp [append_assoc]

/-- The markers stand in order, because that of the up section is part of it. -/
theorem ordered (sections : Sections text head up down) :
    head.rawEndPos < (head ++ up).rawEndPos := by
  -- The upper section is not empty, as it opens with its marker.
  obtain ⟨rest, rfl⟩ := sections.up_opens
  have marked : 0 < "-- up".utf8ByteSize := by decide
  simp only [Pos.Raw.lt_iff, byteIdx_rawEndPos, utf8ByteSize_append]
  omega

/-- A script has its sections in only one way. -/
theorem unique (sections : Sections text head up down)
    (others : Sections text other otherUp otherDown) :
    other = head ∧ otherUp = up ∧ otherDown = down := by
  have heads := others.up_first.unique sections.up_first
  have ups := others.down_first.unique sections.down_first
  -- The text is cut behind the up section first, and what is before that cut behind the head.
  obtain ⟨fronts, downs⟩ := eq_of_rawEndPos_eq (others.whole.symm.trans sections.whole) ups
  obtain ⟨same, sames⟩ := eq_of_rawEndPos_eq fronts heads
  exact ⟨same, sames, downs⟩

/-- The two sections alone are a script with the same sections. -/
theorem alone (sections : Sections text head up down) : Sections (up ++ down) "" up down where
  whole := by simp
  up_opens := sections.up_opens
  down_opens := sections.down_opens
  head_free position _ := by simp [Pos.Raw.le_iff]
  up_free position occurs := by
    obtain ⟨front, back, cut, rfl⟩ := (occursAt_iff (by decide)).mp occurs
    -- The marker occurs in the whole text as far behind the head as it occurs here.
    have further : OccursAt "-- down" text (head ++ front).rawEndPos := by
      refine (occursAt_iff (by decide)).mpr ⟨head ++ front, back, ?_, rfl⟩
      rw [sections.whole, append_assoc, cut]
      simp [append_assoc]
    -- So its place is not before that of the first one in the text.
    have least := sections.up_free _ further
    simp only [Pos.Raw.le_iff, byteIdx_rawEndPos, utf8ByteSize_append] at least ⊢
    simpa using least

end Sections

section Description

variable {text told : String}

/-- The description that is taken from a script is what the script says about itself. -/
theorem describes_description (text : String) : Describes text (description text.toList) := by
  -- The marker is missing, or the line behind it has an end or has none.
  cases scan : splitAtFirst? descriptionMarker text.toList with
  | none =>
    rw [description, scan]
    exact .missing ((scan_eq_none (by decide)).mp scan)
  | some parts =>
    obtain ⟨before, occurrence⟩ := parts
    obtain ⟨whole, first⟩ := (scan_eq_some (by decide)).mp scan
    obtain ⟨rest, rfl⟩ := (first_of_splitAtFirst? scan).1
    rw [ofList_append, ← append_assoc] at whole
    cases lineEnd : splitAtFirst? ['\n'] rest with
    | none =>
      simp only [description, scan, List.drop_left, lineEnd]
      exact .unended whole first (by simpa using splitAtFirst?_singleton_eq_none.mp lineEnd)
    | some lines =>
      obtain ⟨line, others⟩ := lines
      obtain ⟨ends, after, rfl, rfl⟩ := splitAtFirst?_singleton_eq_some.mp lineEnd
      simp only [description, scan, List.drop_left, lineEnd]
      -- The description is what stands between the marker and the line break.
      have behind : ofList (line ++ '\n' :: after) = ofList line ++ "\n" ++ ofList after := by
        rw [← toList_inj]
        simp
      rw [behind, ← append_assoc, ← append_assoc] at whole
      exact .given whole first (by simpa using ends)

/-- A script says only one thing about itself, and that is what is taken from it. -/
theorem description_eq (describes : Describes text told) : description text.toList = told := by
  -- The first marker is where the text is cut, whichever way the line ends.
  have scanned {before behind : String} (whole : text = before ++ "-- description: " ++ behind)
      (first : FirstAt "-- description: " text before.rawEndPos) :
      splitAtFirst? descriptionMarker text.toList =
        some (before.toList, descriptionMarker ++ behind.toList) := by
    refine (scan_eq_some (by decide)).mpr ⟨?_, by simpa using first⟩
    rw [whole, ofList_append, ofList_toList, ofList_toList, append_assoc]
    rfl
  cases describes with
  | @given _ _ after whole first ends =>
    rw [append_assoc, append_assoc] at whole
    -- The line ends at the first line break behind the marker.
    have lineEnd : splitAtFirst? ['\n'] (told ++ ("\n" ++ after)).toList =
        some (told.toList, '\n' :: after.toList) :=
      splitAtFirst?_singleton_eq_some.mpr ⟨ends, after.toList, rfl, by simp⟩
    simp only [description, scanned whole first, List.drop_left, lineEnd, ofList_toList]
  | unended whole first endless =>
    have lineEnd := splitAtFirst?_singleton_eq_none.mpr endless
    simp only [description, scanned whole first, List.drop_left, lineEnd]
    rfl
  | missing nowhere =>
    have scan : splitAtFirst? descriptionMarker text.toList = none :=
      (scan_eq_none (by decide)).mpr nowhere
    rw [description, scan]
    rfl

end Description

section Reading

variable {name text : String}

/-- Reading a script has the outcome that belongs to its markers. -/
theorem outcome_read (name text : String) : Outcome name text (read name text) := by
  -- Each of the two scans may find nothing, and what they find may be in either order.
  cases scanUp : splitAtFirst? upMarker text.toList with
  | none =>
    have result : read name text = .error .noUpSection := by simp [read, scanUp]
    rw [result]
    exact .noUp ((scan_eq_none (by decide)).mp scanUp)
  | some upParts =>
    obtain ⟨beforeUp, fromUp⟩ := upParts
    have firstUp := ((scan_eq_some (by decide)).mp scanUp).2
    cases scanDown : splitAtFirst? downMarker text.toList with
    | none =>
      have result : read name text = .error .noDownSection := by simp [read, scanUp, scanDown]
      rw [result]
      exact .noDown firstUp ((scan_eq_none (by decide)).mp scanDown)
    | some downParts =>
      obtain ⟨beforeDown, fromDown⟩ := downParts
      have firstDown := ((scan_eq_some (by decide)).mp scanDown).2
      by_cases order : beforeDown.length < beforeUp.length
      · have result : read name text = .error .sectionsOutOfOrder := by
          simp [read, scanUp, scanDown, order]
        rw [result]
        refine .swapped firstUp firstDown ?_
        -- The marker found first ends first, as both cut the same text.
        have cuts :=
          (append_of_splitAtFirst? scanUp).trans (append_of_splitAtFirst? scanDown).symm
        rw [← Std.not_le, rawEndPos_le_iff cuts]
        omega
      · -- The up section is what stands between the two places.
        obtain ⟨up, rfl, rfl⟩ := between_of_splitAtFirst? scanUp scanDown (Nat.le_of_not_lt order)
        have result : read name text = .ok
            { name, up := ofList up, down := ofList fromDown,
              description := description text.toList } := by
          simp [read, scanUp, scanDown]
        rw [result]
        exact .cut (.of_scans scanUp scanDown)

/-- A script with sections is read, and becomes a migration with those sections. -/
theorem read_of_sections {head up down : String} (sections : Sections text head up down) :
    read name text = .ok { name, up, down, description := description text.toList } := by
  have outcome := outcome_read name text
  -- The text has sections, so that of the outcomes only the cut remains.
  generalize read name text = result at outcome
  cases outcome with
  | noUp nowhere => exact absurd sections.up_first.1 (nowhere _)
  | noDown _ nowhere => exact absurd sections.down_first.1 (nowhere _)
  | swapped firstUp firstDown order =>
    rw [firstUp.unique sections.up_first, firstDown.unique sections.down_first] at order
    exact absurd sections.ordered (Std.not_lt.mpr (Std.le_of_lt order))
  | cut others =>
    obtain ⟨-, rfl, rfl⟩ := sections.unique others
    rfl

variable {migration : Migration}

/-- A migration that is read from a script has its sections. -/
theorem sections_of_read (result : read name text = .ok migration) :
    ∃ head up down, Sections text head up down ∧
      migration = { name, up, down, description := description text.toList } := by
  -- Of the outcomes only the cut has a migration.
  have outcome := outcome_read name text
  rw [result] at outcome
  cases outcome with
  | cut sections => exact ⟨_, _, _, sections, rfl⟩

/-- The sections of a script become a migration of the name given, which has not been applied. -/
theorem read_ok (result : read name text = .ok migration) :
    migration.name = name ∧ migration.appliedAt = none := by
  -- The name is the one given, and no script tells a time.
  obtain ⟨head, up, down, -, rfl⟩ := sections_of_read result
  exact ⟨rfl, rfl⟩

/-- A script is read exactly if the first up marker stands before the first down marker. -/
theorem read_ok_iff (name text : String) : (∃ migration, read name text = .ok migration) ↔
    ∃ upAt downAt, FirstAt "-- up" text upAt ∧ FirstAt "-- down" text downAt ∧ upAt < downAt := by
  constructor
  · rintro ⟨migration, result⟩
    obtain ⟨head, up, down, sections, -⟩ := sections_of_read result
    exact ⟨_, _, sections.up_first, sections.down_first, sections.ordered⟩
  · rintro ⟨upAt, downAt, firstUp, firstDown, ordered⟩
    -- The two markers stand in the right order only if the text is cut.
    have outcome := outcome_read name text
    generalize read name text = result at outcome
    cases outcome with
    | noUp nowhere => exact absurd firstUp.1 (nowhere _)
    | noDown _ nowhere => exact absurd firstDown.1 (nowhere _)
    | swapped otherUp otherDown order =>
      -- The positions are the first ones, so that their order is the one that was found wrong.
      rw [otherUp.unique firstUp, otherDown.unique firstDown] at order
      exact absurd ordered (Std.not_lt.mpr (Std.le_of_lt order))
    | cut sections => exact ⟨_, rfl⟩

/-- The message for a script that is not read tells which markers it has. -/
theorem message_of_read {flaw : FileFlaw} (result : read name text = .error flaw) :
    (flaw.message = "Up section not found" ↔ ∀ position, ¬ OccursAt "-- up" text position) ∧
    (flaw.message = "Down section not found" ↔ (∃ position, OccursAt "-- up" text position) ∧
      ∀ position, ¬ OccursAt "-- down" text position) ∧
    (flaw.message = "Up section must be before down section" ↔
      (∃ position, OccursAt "-- up" text position) ∧
        ∃ position, OccursAt "-- down" text position) := by
  have outcome := outcome_read name text
  rw [result] at outcome
  -- Each outcome has a message of its own, so that two of the three are ruled out.
  cases outcome with
  | noUp nowhere =>
    have withoutUp : ¬ ∃ position, OccursAt "-- up" text position := not_exists.mpr nowhere
    exact ⟨iff_of_true rfl nowhere, iff_of_false (by decide) fun both => withoutUp both.1,
      iff_of_false (by decide) fun both => withoutUp both.1⟩
  | noDown firstUp nowhere =>
    have withUp : ∃ position, OccursAt "-- up" text position := ⟨_, firstUp.1⟩
    exact ⟨iff_of_false (by decide) (not_forall_not.mpr withUp), iff_of_true rfl ⟨withUp, nowhere⟩,
      iff_of_false (by decide) fun both => not_exists.mpr nowhere both.2⟩
  | swapped firstUp firstDown _ =>
    have withUp : ∃ position, OccursAt "-- up" text position := ⟨_, firstUp.1⟩
    have withDown : ∃ position, OccursAt "-- down" text position := ⟨_, firstDown.1⟩
    exact ⟨iff_of_false (by decide) (not_forall_not.mpr withUp),
      iff_of_false (by decide) fun both => not_exists.mpr both.2 withDown,
      iff_of_true rfl ⟨withUp, withDown⟩⟩

/-- A script is read exactly if it has both markers in order, and then its sections, which are its
only ones, are the text behind its head and are found in it again; otherwise the message tells what
is missing first; and no cut is made within a character. -/
theorem reads_exactly_sections (name text : String) :
    ((∃ migration, read name text = .ok migration) ↔
      ∃ upAt downAt, FirstAt "-- up" text upAt ∧ FirstAt "-- down" text downAt ∧ upAt < downAt) ∧
    (∀ migration, read name text = .ok migration →
      migration.name = name ∧ migration.appliedAt = none ∧
      (∃ head, Sections text head migration.up migration.down ∧
        ∀ other up down, Sections text other up down →
          other = head ∧ up = migration.up ∧ down = migration.down) ∧
      (∀ anyName, ∃ again, read anyName (migration.up ++ migration.down) = .ok again ∧
        again.up = migration.up ∧ again.down = migration.down) ∧
      ∀ told, Describes text told ↔ told = migration.description) ∧
    (∀ flaw, read name text = .error flaw →
      (flaw.message = "Up section not found" ↔ ∀ position, ¬ OccursAt "-- up" text position) ∧
      (flaw.message = "Down section not found" ↔ (∃ position, OccursAt "-- up" text position) ∧
        ∀ position, ¬ OccursAt "-- down" text position) ∧
      (flaw.message = "Up section must be before down section" ↔
        (∃ position, OccursAt "-- up" text position) ∧
          ∃ position, OccursAt "-- down" text position)) ∧
    ∀ marker ∈ ["-- up", "-- down", "-- description: ", "\n"], ∀ position,
      OccursAt marker text position →
        position.IsValid text ∧ (position + marker).IsValid text := by
  refine ⟨read_ok_iff name text, fun migration result => ?_,
    fun flaw result => message_of_read result, fun marker member position occurs => ?_⟩
  · obtain ⟨head, up, down, sections, rfl⟩ := sections_of_read result
    -- The sections are unique, and can be read again by themselves.
    refine ⟨rfl, rfl, ⟨head, sections, fun _ _ _ others => sections.unique others⟩,
      fun anyName => ⟨_, read_of_sections sections.alone, rfl, rfl⟩, fun told => ?_⟩
    constructor
    · intro describes
      exact (description_eq describes).symm
    · rintro rfl
      exact describes_description text
  · apply occurs.isValid
    -- No marker is empty.
    rintro rfl
    exact absurd member (by decide)

end Reading

end SchemaLedger.Script
