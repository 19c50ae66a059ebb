import SchemaLedger.Proofs.Migration.Sections

/-! Lines that consist of a marker open the sections, unless a line before them contains one. -/

namespace SchemaLedger.Script

open String

/-- Lines as they stand in a text, each with the line break behind it. -/
def ended : List (List Char) → List Char
  | [] => []
  | line :: lines => line ++ '\n' :: ended lines

/-- Lines behind others are ended as they would be on their own. -/
theorem ended_append (lines others : List (List Char)) :
    ended (lines ++ others) = ended lines ++ ended others := by
  -- By induction on the lines, each of which is ended by itself.
  induction lines with
  | nil => rfl
  | cons line lines ih => simp [ended, ih]

/-- The lines of a text up to one of them are ended by line breaks. -/
theorem intercalate_append_cons (before after : List (List Char)) (line : List Char) :
    ['\n'].intercalate (before ++ line :: after) =
      ended before ++ ['\n'].intercalate (line :: after) := by
  induction before with
  | nil => rfl
  | cons first before ih =>
    -- There is a line behind the first one, so that a line break comes between them.
    rw [List.cons_append, List.intercalate_cons_of_ne_nil (by simp), ih]
    simp [ended]

section Scan

variable {pattern line rest : List Char} {earlier : List (List Char)}

/-- A pattern without a line break occurs within the first line of a text or behind that line. -/
theorem infix_or_behind {front back : List Char} (plain : '\n' ∉ pattern) (filled : pattern ≠ [])
    (cut : line ++ '\n' :: rest = front ++ pattern ++ back) :
    pattern <:+: line ∨
      ∃ further, front = line ++ '\n' :: further ∧ rest = further ++ pattern ++ back := by
  rw [List.append_assoc] at cut
  rcases List.append_eq_append_iff.mp cut with ⟨between, rfl, same⟩ | ⟨ending, rfl, same⟩
  · right
    cases between with
    | nil =>
      -- The pattern cannot begin at the line break itself.
      obtain ⟨c, others, rfl⟩ := List.exists_cons_of_ne_nil filled
      simp only [List.nil_append, List.cons_append, List.cons.injEq] at same
      obtain ⟨rfl, -⟩ := same
      exact absurd (by simp) plain
    | cons c further =>
      simp only [List.cons_append, List.cons.injEq] at same
      obtain ⟨rfl, behind⟩ := same
      exact ⟨further, rfl, by rw [behind, List.append_assoc]⟩
  · left
    rcases List.append_eq_append_iff.mp same with ⟨more, rfl, -⟩ | ⟨more, rfl, broken⟩
    · exact ⟨front, more, by simp⟩
    · cases more with
      | nil => exact ⟨front, [], by simp⟩
      | cons c others =>
        -- Nor can it go on behind the line break.
        simp only [List.cons_append, List.cons.injEq] at broken
        obtain ⟨rfl, -⟩ := broken
        exact absurd (by simp) plain

/-- A scan for a pattern that begins a line stops there exactly if no line before contains it. -/
theorem splitAtFirst?_ended_iff (plain : '\n' ∉ pattern) (filled : pattern ≠ []) :
    splitAtFirst? pattern (ended earlier ++ (pattern ++ rest)) =
      some (ended earlier, pattern ++ rest) ↔ ∀ line ∈ earlier, ¬ pattern <:+: line := by
  rw [splitAtFirst?_eq_some]
  constructor
  · rintro ⟨-, -, first⟩ line member ⟨front, back, occurs⟩
    -- The occurrence in the line would be found before.
    obtain ⟨lines, others, rfl⟩ := List.append_of_mem member
    have ahead := first (ended lines ++ front) (back ++ '\n' :: (ended others ++ (pattern ++ rest)))
      (by simp [ended_append, ended, ← occurs])
    simp only [ended_append, ended, ← occurs, List.length_append, List.length_cons] at ahead
    omega
  · intro free
    refine ⟨rfl, ⟨rest, rfl⟩, fun front back cut => ?_⟩
    -- An occurrence that is not within the first line is one behind it, among fewer lines.
    induction earlier generalizing front with
    | nil => exact Nat.zero_le _
    | cons line lines ih =>
      rw [ended, List.append_assoc, List.cons_append] at cut
      rcases infix_or_behind plain filled cut with within | ⟨further, rfl, behind⟩
      · exact absurd within (free line (by simp))
      · have least := ih (fun other member => free other (by simp [member])) further behind
        simp only [ended, List.length_append, List.length_cons]
        omega

end Scan

section Cuts

variable {text : String} {before between after : List (List Char)}

/-- The text of lines begins with the first of them. -/
theorem prefix_intercalate (line : List Char) (lines : List (List Char)) :
    line <+: ['\n'].intercalate (line :: lines) := by
  -- The first line comes first, whether others follow it or not.
  cases lines with
  | nil => exact ⟨[], by simp⟩
  | cons next lines => exact ⟨'\n' :: ['\n'].intercalate (next :: lines), by
      simp [List.intercalate_cons_cons]⟩

/-- The text of lines is cut before any two of them. -/
theorem text_of_lines {first second : List Char}
    (lines : text.toList.splitOn '\n' = before ++ first :: (between ++ second :: after)) :
    text.toList =
      ended before ++ (ended (first :: between) ++ ['\n'].intercalate (second :: after)) := by
  -- Joining undoes splitting; the lines are then grouped by the two markers.
  rw [← intercalate_append_cons, List.cons_append, ← intercalate_append_cons, ← lines]
  exact (List.intercalate_splitOn '\n').symm

/-- The sections begin with the lines that consist of a marker exactly if no line before them
contains that marker. -/
theorem sections_of_lines_iff
    (lines : text.toList.splitOn '\n' = before ++ upMarker :: (between ++ downMarker :: after)) :
    Sections text (ofList (ended before)) (ofList (ended (upMarker :: between)))
        (ofList (['\n'].intercalate (downMarker :: after))) ↔
      (∀ line ∈ before, ¬ upMarker <:+: line) ∧
        ∀ line ∈ before ++ between, ¬ downMarker <:+: line := by
  obtain ⟨rest, down_eq⟩ := prefix_intercalate downMarker after
  have text_eq := text_of_lines lines
  rw [← down_eq] at text_eq
  -- The first line ends behind its marker, so that the section opens with it.
  have up_eq : ended (upMarker :: between) ++ (downMarker ++ rest) =
      upMarker ++ '\n' :: (ended between ++ (downMarker ++ rest)) := by
    simp [ended]
  have scanUp : splitAtFirst? upMarker text.toList =
      some (ended before, ended (upMarker :: between) ++ (downMarker ++ rest)) ↔
        ∀ line ∈ before, ¬ upMarker <:+: line := by
    rw [text_eq, up_eq]
    exact splitAtFirst?_ended_iff (by decide) (by decide)
  have scanDown : splitAtFirst? downMarker text.toList =
      some (ended before ++ ended (upMarker :: between), downMarker ++ rest) ↔
        ∀ line ∈ before ++ between, ¬ downMarker <:+: line := by
    rw [text_eq, ← List.append_assoc, ← ended_append,
      splitAtFirst?_ended_iff (by decide) (by decide)]
    -- The line of the up marker is no line with a down marker.
    have apart : ¬ downMarker <:+: upMarker := by decide
    simp only [List.forall_mem_append, List.forall_mem_cons, apart, not_false_eq_true, true_and]
  -- The sections are where the scans stop, and the other way round.
  rw [← down_eq, ← scanUp, ← scanDown]
  constructor
  · intro sections
    constructor
    · refine (scan_eq_some (by decide)).mpr ⟨?_, sections.up_first⟩
      rw [ofList_append, ← append_assoc]
      exact sections.whole
    · refine (scan_eq_some (by decide)).mpr ⟨?_, ?_⟩
      · rw [ofList_append]
        exact sections.whole
      · rw [ofList_append]
        exact sections.down_first
  · rintro ⟨foundUp, foundDown⟩
    exact .of_scans foundUp foundDown

/-- A script with a line for each marker is cut before these two lines exactly if neither marker
occurs in a line before its own. -/
theorem cut_at_marker_lines_iff (name : String)
    (lines : text.toList.splitOn '\n' = before ++ upMarker :: (between ++ downMarker :: after)) :
    (∃ migration, read name text = .ok migration ∧
      migration.up = ofList (ended (upMarker :: between)) ∧
      migration.down = ofList (['\n'].intercalate (downMarker :: after))) ↔
      (∀ line ∈ before, ¬ upMarker <:+: line) ∧
        ∀ line ∈ before ++ between, ¬ downMarker <:+: line := by
  rw [← sections_of_lines_iff lines]
  constructor
  · rintro ⟨migration, result, up_eq, down_eq⟩
    -- What is read has sections, and these are the two claimed.
    obtain ⟨head, up, down, sections, rfl⟩ := sections_of_read result
    obtain rfl : up = _ := up_eq
    obtain rfl : down = _ := down_eq
    -- The sections leave only the lines before them for the head.
    have whole : head.toList ++ (ended (upMarker :: between) ++
        ['\n'].intercalate (downMarker :: after)) =
          ended before ++ (ended (upMarker :: between) ++
            ['\n'].intercalate (downMarker :: after)) := by
      rw [← text_of_lines lines, sections.whole]
      simp
    have head_eq : head = ofList (ended before) := by
      rw [← toList_inj, toList_ofList]
      exact List.append_cancel_right whole
    rw [← head_eq]
    exact sections
  · intro sections
    exact ⟨_, read_of_sections sections, rfl, rfl⟩

/-- A script without such lines is cut before its marker lines. -/
theorem cut_at_marker_lines_iff_sample :
    let text := "-- description: users\n-- up\nselect 1;\n-- down\nselect 2;\n"
    text.toList.splitOn '\n' = ["-- description: users".toList] ++
      upMarker :: (["select 1;".toList] ++ downMarker :: ["select 2;".toList, []]) ∧
    ∃ migration, read "1_users" text = .ok migration ∧
      migration.up = "-- up\nselect 1;\n" ∧ migration.down = "-- down\nselect 2;\n" := by
  intro text
  -- Each marker has its line, and stands in no other.
  have lines : text.toList.splitOn '\n' = ["-- description: users".toList] ++
      upMarker :: (["select 1;".toList] ++ downMarker :: ["select 2;".toList, []]) := by decide
  exact ⟨lines, (cut_at_marker_lines_iff "1_users" lines).mpr ⟨by decide, by decide⟩⟩

/-- A comment that happens to contain a marker cuts the up section, although the marker has a line
of its own. -/
theorem comment_cuts_up_section :
    let text := "-- up\nselect 1;\n-- downstream views use this\nselect 2;\n-- down\nselect 3;\n"
    let between :=
      ["select 1;".toList, "-- downstream views use this".toList, "select 2;".toList]
    let after := ["select 3;".toList, []]
    text.toList.splitOn '\n' = [] ++ upMarker :: (between ++ downMarker :: after) ∧
    upMarker ∉ between ++ after ∧ downMarker ∉ between ++ after ∧
    read "1_users" text = .ok {
      name := "1_users"
      up := "-- up\nselect 1;\n"
      down := "-- downstream views use this\nselect 2;\n-- down\nselect 3;\n"
      description := noDescription } ∧
    ¬ ∃ migration, read "1_users" text = .ok migration ∧
      migration.up = ofList (ended (upMarker :: between)) ∧
      migration.down = ofList (['\n'].intercalate (downMarker :: after)) := by
  intro text between after
  -- The comment begins like the lower marker, and is taken for it.
  have result : read "1_users" text = .ok {
      name := "1_users"
      up := "-- up\nselect 1;\n"
      down := "-- downstream views use this\nselect 2;\n-- down\nselect 3;\n"
      description := noDescription } := by decide
  refine ⟨by decide, by decide, by decide, result, ?_⟩
  rintro ⟨migration, claimed, up_eq, -⟩
  -- What has been read has a shorter up section than claimed.
  cases result.symm.trans claimed
  revert up_eq
  decide

end Cuts

end SchemaLedger.Script
