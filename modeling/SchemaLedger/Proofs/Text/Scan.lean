import Mathlib.Data.List.Infix
import Mathlib.Tactic.SplitIfs
import SchemaLedger.Text.Scan

/-! A scan finds the first occurrence of a pattern, if there is one. -/

namespace SchemaLedger

variable {pattern text before occurrence : List Char}

/-- What is split at an occurrence is the text itself. -/
theorem append_of_splitAtFirst? (split : splitAtFirst? pattern text = some (before, occurrence)) :
    before ++ occurrence = text := by
  -- By induction on the text, whose first character is put back in front.
  induction text generalizing before with
  | nil =>
    simp only [splitAtFirst?] at split
    split_ifs at split
    cases split
    rfl
  | cons c text ih =>
    simp only [splitAtFirst?] at split
    split_ifs at split
    · cases split
      rfl
    · obtain ⟨⟨front, found⟩, further, same⟩ := Option.map_eq_some_iff.mp split
      cases same
      rw [List.cons_append, ih further]

/-- Nothing is found exactly if the pattern does not occur. -/
theorem splitAtFirst?_eq_none : splitAtFirst? pattern text = none ↔ ¬ pattern <:+: text := by
  -- By induction on the text: the pattern is not at its front, nor further on.
  induction text with
  | nil => simp [splitAtFirst?]
  | cons c text ih =>
    rw [splitAtFirst?, List.infix_cons_iff, not_or, ← ih, ← List.isPrefixOf_iff_prefix]
    split_ifs with here
    · simp [here]
    · simp [here]

/-- Where a text is split the pattern begins, and it has no occurrence further ahead. -/
theorem first_of_splitAtFirst? (split : splitAtFirst? pattern text = some (before, occurrence)) :
    pattern <+: occurrence ∧
      ∀ front back, text = front ++ pattern ++ back → before.length ≤ front.length := by
  induction text generalizing before with
  | nil =>
    simp only [splitAtFirst?] at split
    split_ifs at split with blank
    cases split
    -- The empty text holds no pattern but the empty one.
    rw [List.isEmpty_iff.mp blank]
    exact ⟨List.nil_prefix, fun front back _ => Nat.zero_le _⟩
  | cons c text ih =>
    simp only [splitAtFirst?] at split
    split_ifs at split with here
    · cases split
      exact ⟨List.isPrefixOf_iff_prefix.mp here, fun front back _ => Nat.zero_le _⟩
    · obtain ⟨⟨behind, found⟩, further, same⟩ := Option.map_eq_some_iff.mp split
      cases same
      obtain ⟨opens, first⟩ := ih further
      refine ⟨opens, fun front back cut => ?_⟩
      cases front with
      | nil =>
        -- An occurrence at the very front would have been found at once.
        exact absurd (List.isPrefixOf_iff_prefix.mpr ⟨back, cut.symm⟩) here
      | cons head front =>
        simp only [List.cons_append, List.cons.injEq] at cut
        -- An occurrence further on is one in the rest of the text.
        exact Nat.succ_le_succ (first front back cut.2)

/-- A text is split where the pattern begins that has no occurrence further ahead. -/
theorem splitAtFirst?_eq_some : splitAtFirst? pattern text = some (before, occurrence) ↔
    text = before ++ occurrence ∧ pattern <+: occurrence ∧
      ∀ front back, text = front ++ pattern ++ back → before.length ≤ front.length := by
  constructor
  · intro split
    exact ⟨(append_of_splitAtFirst? split).symm, first_of_splitAtFirst? split⟩
  · rintro ⟨whole, ⟨after, opens⟩, first⟩
    have cut : text = before ++ pattern ++ after := by
      rw [whole, ← opens, List.append_assoc]
    -- The pattern occurs, so that something is found.
    cases found : splitAtFirst? pattern text with
    | none => exact absurd ⟨before, after, cut.symm⟩ (splitAtFirst?_eq_none.mp found)
    | some parts =>
      obtain ⟨front, behind⟩ := parts
      obtain ⟨⟨rest, opensToo⟩, firstToo⟩ := first_of_splitAtFirst? found
      have joined := append_of_splitAtFirst? found
      -- Neither of the two occurrences comes before the other one.
      have length : before.length = front.length := by
        have least := firstToo before after cut
        have most := first front rest (by rw [← joined, ← opensToo, List.append_assoc])
        omega
      obtain ⟨rfl, rfl⟩ := List.append_inj (whole.symm.trans joined.symm) length
      rfl

/-- Of two places at which a text is split, the one further on is reached through the text between
them. -/
theorem between_of_splitAtFirst? {other ahead behind : List Char}
    (split : splitAtFirst? pattern text = some (before, occurrence))
    (splitToo : splitAtFirst? other text = some (ahead, behind))
    (order : before.length ≤ ahead.length) :
    ∃ between, ahead = before ++ between ∧ occurrence = between ++ behind := by
  -- Both are beginnings of one text, of which the shorter begins the longer.
  have whole := append_of_splitAtFirst? split
  have wholeToo := append_of_splitAtFirst? splitToo
  obtain ⟨between, rfl⟩ :=
    List.prefix_of_prefix_length_le ⟨occurrence, whole⟩ ⟨behind, wholeToo⟩ order
  rw [← wholeToo, List.append_assoc] at whole
  exact ⟨between, rfl, List.append_cancel_left whole⟩

section Character

variable {c : Char}

/-- A character is not found exactly if it is not in the text. -/
theorem splitAtFirst?_singleton_eq_none : splitAtFirst? [c] text = none ↔ c ∉ text := by
  -- A single character is an infix exactly if it occurs.
  rw [splitAtFirst?_eq_none, List.singleton_infix_iff]

/-- A text is split at a character that does not come further ahead. -/
theorem splitAtFirst?_singleton_eq_some :
    splitAtFirst? [c] text = some (before, occurrence) ↔
      c ∉ before ∧ ∃ after, occurrence = c :: after ∧ text = before ++ c :: after := by
  rw [splitAtFirst?_eq_some]
  constructor
  · rintro ⟨whole, ⟨after, rfl⟩, first⟩
    refine ⟨fun member => ?_, after, rfl, whole⟩
    -- What is before the character has no room for another one.
    obtain ⟨front, back, rfl⟩ := List.append_of_mem member
    have ahead := first front (back ++ c :: after) (by simp [whole])
    simp only [List.length_append, List.length_cons] at ahead
    omega
  · rintro ⟨absent, after, rfl, whole⟩
    refine ⟨whole, ⟨after, rfl⟩, fun front back cut => ?_⟩
    rw [whole, List.append_assoc] at cut
    -- An occurrence further ahead would be a character before the first.
    rcases List.append_eq_append_iff.mp cut with ⟨between, rfl, -⟩ | ⟨between, rfl, same⟩
    · simp
    · cases between with
      | nil => simp
      | cons head between =>
        simp only [List.cons_append, List.nil_append, List.cons.injEq] at same
        obtain ⟨rfl, -⟩ := same
        exact absurd (by simp) absent

end Character

end SchemaLedger
