import Mathlib.Data.Finset.Card
import Mathlib.Data.Finset.Range
import SchemaLedger.Proofs.Decimal.Digits
import SchemaLedger.Proofs.Text.Scan
import SchemaLedger.Sql.DollarQuote

/-! A reader of dollar quotes gets back the text between the tags, and no earlier tag would do. -/

namespace SchemaLedger

namespace DollarQuote

/-- What a reader takes off the front of a text: it scans for the first occurrence of the opening
tag behind that tag, and returns the text before it and the text behind it. -/
def read? : List Char → Option (List Char × List Char)
  | '$' :: rest =>
    match rest.dropWhile (· != '$') with
    | [] => none
    | _ :: body =>
      -- The opening tag ends with the next dollar sign.
      let tag := '$' :: rest.takeWhile (· != '$') ++ ['$']
      (splitAtFirst? tag body).map fun (text, closing) => (text, closing.drop tag.length)
  | _ => none

/-- A text between two tags of some number. -/
def enclosed (number : Nat) (text : List Char) : List Char := tag number ++ text ++ tag number

/-- What stands between the dollar signs of a tag. -/
def label : Nat → List Char
  | 0 => []
  | n + 1 => 'c' :: decimalDigits (n + 1)

/-- A tag is its label between dollar signs. -/
theorem tag_eq (number : Nat) : tag number = '$' :: label number ++ ['$'] := by
  cases number <;> rfl

/-- There is no dollar sign within a label. -/
theorem dollar_not_mem_label (number : Nat) : '$' ∉ label number := by
  -- A label is a letter and decimal digits, or nothing.
  cases number with
  | zero => simp [label]
  | succ n =>
    intro member
    rcases List.mem_cons.mp member with letter | digit
    · exact absurd letter (by decide)
    · exact absurd (isDigit_of_mem_decimalDigits digit) (by decide)

/-- Tags of different numbers have different labels. -/
theorem label_injective : Function.Injective label := by
  -- Only the first label is empty, and the others differ in their digits.
  intro first second same
  cases first with
  | zero =>
    cases second with
    | zero => rfl
    | succ m => simp [label] at same
  | succ n =>
    cases second with
    | zero => simp [label] at same
    | succ m => exact decimalDigits_injective (by simpa [label] using same)

/-- What comes before the next dollar sign is a label, if the label and a dollar sign come first. -/
theorem takeWhile_label (number : Nat) (rest : List Char) :
    (label number ++ '$' :: rest).takeWhile (· != '$') = label number := by
  -- The label has no dollar sign, so that the first one is behind it.
  have plain : ∀ c ∈ label number, (c != '$') = true := fun c member => by
    simpa using fun same : c = '$' => dollar_not_mem_label number (same ▸ member)
  rw [List.takeWhile_append_of_pos plain]
  simp

/-- A label and a dollar sign are passed over up to that dollar sign. -/
theorem dropWhile_label (number : Nat) (rest : List Char) :
    (label number ++ '$' :: rest).dropWhile (· != '$') = '$' :: rest := by
  -- The label has no dollar sign, so that the first one is behind it.
  have plain : ∀ c ∈ label number, (c != '$') = true := fun c member => by
    simpa using fun same : c = '$' => dollar_not_mem_label number (same ▸ member)
  rw [List.dropWhile_append_of_pos plain]
  simp

section Scan

variable {pattern text rest : List Char}

/-- A pattern intrudes into a text if an occurrence starts within the text, once the pattern has
been put behind the text. -/
def Intrudes (pattern : List Char) : List Char → Prop
  | [] => False
  | c :: text => pattern <+: c :: text ++ pattern ∨ Intrudes pattern text

/-- A pattern behind a text is its first occurrence unless it intrudes, whatever else follows. -/
theorem splitAtFirst?_behind (filled : pattern ≠ []) :
    splitAtFirst? pattern (text ++ pattern ++ rest) = some (text, pattern ++ rest) ↔
      ¬ Intrudes pattern text := by
  induction text with
  | nil =>
    -- Without a text in front the pattern is found at once.
    obtain ⟨c, more, rfl⟩ := List.exists_cons_of_ne_nil filled
    have front : (c :: more).isPrefixOf (c :: (more ++ rest)) = true :=
      List.isPrefixOf_iff_prefix.mpr ⟨rest, rfl⟩
    simp [splitAtFirst?, front, Intrudes]
  | cons c text ih =>
    -- An occurrence that starts here ends before what follows the pattern behind the text.
    have here : pattern <+: c :: (text ++ pattern ++ rest) ↔ pattern <+: c :: text ++ pattern := by
      constructor
      · intro occurs
        have longer : c :: text ++ pattern <+: c :: (text ++ pattern ++ rest) := ⟨rest, by simp⟩
        exact List.prefix_of_prefix_length_le occurs longer (by simp; omega)
      · rintro ⟨behind, same⟩
        exact ⟨behind ++ rest, by rw [← List.append_assoc, same]; simp⟩
    rw [List.cons_append, List.cons_append, splitAtFirst?]
    simp only [Intrudes, List.isPrefixOf_iff_prefix, here]
    by_cases occurs : pattern <+: c :: text ++ pattern
    · rw [if_pos occurs]
      -- Nothing would come before such an occurrence.
      constructor
      · intro found
        cases found
      · intro apart
        exact absurd (.inl occurs) apart
    · rw [if_neg occurs, or_iff_right occurs, ← ih]
      simp

/-- A tag closes a text unless it intrudes into the text. -/
theorem closes_iff (filled : pattern ≠ []) :
    closes text pattern = true ↔ ¬ Intrudes pattern text := by
  -- What follows the pattern does not matter, and here nothing does.
  have whole : splitAtFirst? pattern (text ++ pattern ++ []) = some (text, pattern ++ []) ↔
      ¬ Intrudes pattern text := splitAtFirst?_behind filled
  rw [List.append_nil, List.append_nil] at whole
  rw [← whole, closes, firstIndex?]
  simp only [beq_iff_eq]
  constructor
  · intro found
    obtain ⟨⟨before, occurrence⟩, split, length⟩ := Option.map_eq_some_iff.mp found
    -- As much stands before the occurrence as there is text, so that it is the text.
    obtain ⟨rfl, rfl⟩ := List.append_inj (append_of_splitAtFirst? split) length
    exact split
  · intro split
    simp [split]

end Scan

section Tags

variable {text rest : List Char} {number : Nat}

/-- A tag is not empty. -/
theorem tag_ne_nil (number : Nat) : tag number ≠ [] := by simp [tag_eq]

/-- A dollar sign behind a text does not change what comes before the first one. -/
theorem takeWhile_behind (text rest : List Char) :
    (text ++ '$' :: rest).takeWhile (· != '$') = text.takeWhile (· != '$') := by
  -- By induction on the text, in which a dollar sign may come earlier.
  induction text with
  | nil => rfl
  | cons c text ih => by_cases dollar : c = '$' <;> simp [dollar, ih]

/-- A tag that intrudes at the front of a text has the label that comes there behind a dollar
sign, whether it ends within the text or with the tag behind it. -/
theorem label_at_front {c : Char} (occurs : tag number <+: c :: text ++ tag number) :
    c = '$' ∧ text.takeWhile (· != '$') = label number := by
  -- The tag begins with a dollar sign, and its label goes up to the next.
  obtain ⟨behind, same⟩ := occurs
  rw [tag_eq] at same
  simp only [List.cons_append, List.append_assoc, List.nil_append, List.cons.injEq] at same
  obtain ⟨dollar, same⟩ := same
  have label_first := takeWhile_label number behind
  rw [same, takeWhile_behind] at label_first
  exact ⟨dollar.symm, label_first⟩

/-- Each dollar sign of a text lets one tag intrude at most. -/
theorem card_le_count {numbers : Finset Nat}
    (all : ∀ number ∈ numbers, Intrudes (tag number) text) :
    numbers.card ≤ text.count '$' := by
  -- The tags that do not intrude at the front of the text intrude behind it.
  induction text generalizing numbers with
  | nil =>
    have none : numbers = ∅ := Finset.eq_empty_of_forall_notMem all
    simp [none]
  | cons c text ih =>
    by_cases here : ∃ number ∈ numbers, tag number <+: c :: text ++ tag number
    · obtain ⟨number, member, occurs⟩ := here
      obtain ⟨rfl, own⟩ := label_at_front occurs
      have others : ∀ other ∈ numbers.erase number, Intrudes (tag other) text := by
        intro other kept
        obtain ⟨differs, inside⟩ := Finset.mem_erase.mp kept
        rcases all other inside with front | behind
        · -- No other tag has the label that comes behind the first dollar sign.
          exact absurd (label_injective ((label_at_front front).2.symm.trans own)) differs
        · exact behind
      have fewer := ih others
      rw [Finset.card_erase_of_mem member] at fewer
      rw [List.count_cons_self]
      omega
    · have behind : ∀ number ∈ numbers, Intrudes (tag number) text := fun number member =>
        (all number member).resolve_left fun front => here ⟨number, member, front⟩
      exact (ih behind).trans List.count_le_count_cons

end Tags

section Search

variable {text rest : List Char} {number tries : Nat}

/-- The search passes over tags that do not close the text, and stops at one that does unless it
has been given too few tries. -/
theorem search_spec (text : List Char) (tries start : Nat) :
    start ≤ search text tries start ∧ search text tries start ≤ start + tries ∧
      (∀ number, start ≤ number → number < search text tries start →
        closes text (tag number) = false) ∧
      (search text tries start < start + tries →
        closes text (tag (search text tries start)) = true) := by
  induction tries generalizing start with
  | zero =>
    rw [search]
    -- The fuel has run out, so that nothing was tried.
    exact ⟨Nat.le_refl _, Nat.le_refl _, fun number first last => by omega, fun few => by omega⟩
  | succ tries ih =>
    rw [search]
    split_ifs with closed
    · exact ⟨Nat.le_refl _, by omega, fun number first last => by omega, fun _ => closed⟩
    · obtain ⟨least, most, passed, found⟩ := ih (start + 1)
      refine ⟨by omega, by omega, ?_, fun few => found (by omega)⟩
      intro number first last
      -- The tag that was tried first does not close the text either.
      by_cases same : number = start
      · simpa [same] using closed
      · exact passed number (by omega) last

/-- Whatever number of tries is enough, the search stops at the first tag that closes the text. -/
theorem search_least (enough : text.count '$' < tries) :
    search text tries 0 ≤ text.count '$' ∧ closes text (tag (search text tries 0)) = true ∧
      ∀ earlier < search text tries 0, closes text (tag earlier) = false := by
  -- Each tag that is passed over has a dollar sign of its own in the text.
  obtain ⟨-, -, passed, found⟩ := search_spec text tries 0
  have earlier : ∀ number < search text tries 0, closes text (tag number) = false :=
    fun number last => passed number (Nat.zero_le _) last
  -- A tag that does not close is one that the text runs into.
  have intruding : ∀ number ∈ Finset.range (search text tries 0), Intrudes (tag number) text := by
    intro number member
    have unclosed := earlier number (Finset.mem_range.mp member)
    by_contra apart
    rw [(closes_iff (tag_ne_nil number)).mpr apart] at unclosed
    cases unclosed
  have bounded := card_le_count intruding
  rw [Finset.card_range] at bounded
  exact ⟨bounded, found (by omega), earlier⟩

/-- More tries do not change which tag is found. -/
theorem search_eq_tagNumber (enough : text.count '$' < tries) :
    search text tries 0 = tagNumber text := by
  -- Two searches that both find the least tag find the same one.
  obtain ⟨-, closed, passed⟩ := search_least enough
  obtain ⟨-, closedToo, passedToo⟩ := search_least (Nat.lt_succ_self (text.count '$'))
  rcases Nat.lt_trichotomy (search text tries 0) (tagNumber text) with before | same | behind
  · have unclosed := passedToo _ before
    rw [closed] at unclosed
    cases unclosed
  · exact same
  · have unclosed := passed _ behind
    rw [tagNumber, closedToo] at unclosed
    cases unclosed

/-- A reader gets a text back from between two tags, and what follows them, exactly if the tag
closes the text. -/
theorem read?_enclosed :
    read? (enclosed number text ++ rest) = some (text, rest) ↔ closes text (tag number) = true := by
  have taken : read? (enclosed number text ++ rest) =
      (splitAtFirst? (tag number) (text ++ tag number ++ rest)).map
        fun (text, closing) => (text, closing.drop (tag number).length) := by
    -- The reader finds the label first, and then looks for the tag behind it.
    have opened : enclosed number text ++ rest =
        '$' :: (label number ++ '$' :: (text ++ tag number ++ rest)) := by
      rw [enclosed]
      nth_rewrite 1 [tag_eq]
      simp
    rw [opened]
    simp only [read?, dropWhile_label, takeWhile_label, ← tag_eq]
  have split_iff : splitAtFirst? (tag number) (text ++ tag number ++ rest) =
      some (text, tag number ++ rest) ↔ _ := splitAtFirst?_behind (tag_ne_nil number)
  rw [taken, closes_iff (tag_ne_nil number), ← split_iff]
  constructor
  · intro found
    obtain ⟨⟨before, occurrence⟩, split, same⟩ := Option.map_eq_some_iff.mp found
    simp only [Prod.mk.injEq] at same
    obtain ⟨rfl, -⟩ := same
    -- What is behind the text is then the tag and what follows it.
    have whole := append_of_splitAtFirst? split
    rw [List.append_assoc, List.append_cancel_left_eq] at whole
    rw [split, whole]
  · intro split
    rw [split]
    simp

end Search

end DollarQuote

open DollarQuote

/-- A text is enclosed by the first of the tags between which a reader gets it back, and no more
tags have to be tried than the text has dollar signs. -/
theorem dollarQuote_recovered (text : String) : ∃ number ≤ text.toList.count '$',
    (∀ tries > text.toList.count '$', search text.toList tries 0 = number) ∧
    (dollarQuote text).toList = tag number ++ text.toList ++ tag number ∧
    (∀ rest, read? ((dollarQuote text).toList ++ rest) = some (text.toList, rest)) ∧
    ∀ earlier < number, ∀ rest,
      read? (tag earlier ++ text.toList ++ tag earlier ++ rest) ≠ some (text.toList, rest) := by
  obtain ⟨bounded, closed, passed⟩ := search_least (Nat.lt_succ_self (text.toList.count '$'))
  have written : (dollarQuote text).toList = enclosed (tagNumber text.toList) text.toList := by
    simp [dollarQuote, chars, enclosed]
  -- A text is recovered exactly if its tag closes it, which no earlier one does.
  refine ⟨tagNumber text.toList, bounded, fun tries enough => search_eq_tagNumber enough, written,
    fun rest => ?_, fun earlier before rest recovered => ?_⟩
  · rw [written]
    exact read?_enclosed.mpr closed
  · have unclosed := passed earlier before
    rw [read?_enclosed.mp recovered] at unclosed
    cases unclosed

end SchemaLedger
