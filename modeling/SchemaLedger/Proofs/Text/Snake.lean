import Mathlib.Data.List.Infix
import SchemaLedger.Text.Snake
import SchemaLedger.Proofs.Text.LetterCase

/-! Snake case changes letter case and separators and nothing else, and it is settled unless it
keeps a capital that has no small letter next to one that has. -/

namespace SchemaLedger

open LetterCase

/-- The characters that a character of a name is spelled with: capitals with their small letters. -/
def spelled (c : Char) : List Char := if isUpper c then lower c else [c]

/-- A capital for which there is no small letter, so that it stays in the snake case of a name. -/
def Caseless (c : Char) : Prop := isUpper c = true ∧ lower c = [c]

/-- A capital with a small letter of its own. -/
def Cased (c : Char) : Prop := isUpper c = true ∧ ∃ small, lower c = [small] ∧ isLower small = true

section Characters

variable {c d : Char} {after : Option Char}

/-- A capital has no small letter, or one, or it is the dotted one. -/
theorem isUpper_cases (upper : isUpper c = true) : c = dottedCapital ∨ Caseless c ∨ Cased c := by
  -- What becomes of any character in lower case leaves three cases for a capital.
  rcases lower_cases c with dotted | same | small
  · exact .inl dotted
  · exact .inr (.inl ⟨upper, same⟩)
  · exact .inr (.inr ⟨upper, small⟩)

/-- No small letter is a capital. -/
theorem isUpper_of_isLower (small : isLower c = true) : isUpper c = false :=
  -- The tables keep capitals and small letters apart.
  Bool.eq_false_iff.mpr fun upper => by simp [isLower_of_isUpper upper] at small

/-- No separator is a capital. -/
theorem isUpper_separator (separator : c = '-' ∨ c = ' ') : isUpper c = false := by
  -- Both separators come before the first capital of all.
  rcases separator with rfl | rfl <;> exact isUpper_of_lt (by decide)

/-- The underscore is no capital. -/
theorem isUpper_underscore : isUpper '_' = false := by
  -- The underscore stands between the capitals and the small letters of ASCII, in no run.
  decide +kernel

/-- A small letter is neither a separator nor an underscore. -/
theorem isLower_ne (small : isLower c = true) : c ≠ '-' ∧ c ≠ ' ' ∧ c ≠ '_' := by
  -- All three characters come before the first small letter.
  refine ⟨?_, ?_, ?_⟩ <;> rintro rfl <;> simp [isLower_of_lt] at small

/-- The lowercase form of the dotted capital has no capitals, separators or underscores. -/
theorem mem_lower_dotted (member : d ∈ lower dottedCapital) :
    isUpper d = false ∧ d ≠ '-' ∧ d ≠ ' ' ∧ d ≠ '_' := by
  -- The dotted capital is spelled with a small letter and a combining dot.
  have form : lower dottedCapital = ['i', '\u0307'] := if_pos rfl
  have either : d = 'i' ∨ d = '\u0307' := by simpa [form] using member
  rcases either with rfl | rfl
  · exact ⟨by decide +kernel, by decide, by decide, by decide⟩
  · exact ⟨by decide +kernel, by decide, by decide, by decide⟩

/-- A character that is spelled otherwise is a capital, which is spelled without capitals. -/
theorem mem_spelled (member : d ∈ spelled c) : spelled c = [c] ∧ d = c ∨
    isUpper c = true ∧ isUpper d = false ∧ d ≠ '-' ∧ d ≠ ' ' ∧ d ≠ '_' := by
  -- A capital with no small letter is spelled with itself, like a character that is no capital.
  by_cases upper : isUpper c = true
  · rw [spelled, if_pos upper] at member ⊢
    rcases isUpper_cases upper with rfl | ⟨-, same⟩ | ⟨-, small, form, lower⟩
    · exact .inr ⟨upper, mem_lower_dotted member⟩
    · exact .inl ⟨same, by simpa [same] using member⟩
    · obtain rfl : d = small := by simpa [form] using member
      exact .inr ⟨upper, isUpper_of_isLower lower, isLower_ne lower⟩
  · rw [spelled, if_neg upper] at member ⊢
    exact .inl ⟨rfl, List.mem_singleton.mp member⟩

/-- Behind a capital, another one opens a word exactly if a small letter follows. -/
theorem opensWord_capital (upper : isUpper c = true) :
    opensWord (some c) after = after.any isLower := by
  -- A capital is neither a small letter nor a digit, so that only what follows can tell.
  have number : c.isDigit = false := by
    -- All digits come before the first capital.
    refine Bool.eq_false_iff.mpr fun digit => ?_
    have last : c.toNat ≤ 57 := (Char.isDigit_iff_toNat.mp digit).2
    rw [isUpper_of_lt (by omega)] at upper
    cases upper
  simp [opensWord, upper, number, isLower_of_isUpper upper]

/-- Behind any other character, what follows does not matter. -/
theorem opensWord_other (other : isUpper c = false) :
    opensWord (some c) after = (isLower c || c.isDigit) := by
  -- What comes next matters behind a capital only.
  simp [opensWord, other]

end Characters

section Pieces

variable {before written after : Option Char} {c d : Char}

/-- A separator is written as an underscore, unless there is one already. -/
theorem snakePiece_separator (separator : c = '-' ∨ c = ' ') :
    snakePiece before written c after = if written = some '_' then [] else ['_'] :=
  if_pos separator

/-- A character that is no separator is spelled, perhaps behind an underscore. -/
theorem snakePiece_spelled (kept : ¬ (c = '-' ∨ c = ' ')) :
    snakePiece before written c after =
      (if isUpper c ∧ opensWord before after ∧ written.isSome ∧ written ≠ some '_'
        then ['_'] else []) ++ spelled c := by
  -- The two branches for capitals differ in the underscore, and the last one spells as it is.
  rw [snakePiece, if_neg kept, spelled]
  split_ifs <;> simp_all

/-- Whatever is written is an underscore or stands for the character of the name. -/
theorem mem_snakePiece (member : d ∈ snakePiece before written c after) :
    d = '_' ∨ ¬ (c = '-' ∨ c = ' ') ∧ d ∈ spelled c := by
  -- A piece is made of an underscore at most and of the spelling of its character.
  by_cases separator : c = '-' ∨ c = ' '
  · rw [snakePiece_separator separator] at member
    split_ifs at member
    · cases member
    · exact .inl (List.mem_singleton.mp member)
  · rw [snakePiece_spelled separator] at member
    rcases List.mem_append.mp member with gap | own
    · split_ifs at gap
      · exact .inl (List.mem_singleton.mp gap)
      · cases gap
    · exact .inr ⟨separator, own⟩

end Pieces

section Touched

variable {before written : Option Char} {d : Char} {cs : List Char}

/-- Nothing is written but underscores, and characters of which some character is spelled. -/
theorem mem_snakeTail (member : d ∈ snakeTail before written cs) :
    d = '_' ∨ ∃ c, ¬ (c = '-' ∨ c = ' ') ∧ d ∈ spelled c := by
  -- Each piece is written for one character of the name.
  induction cs generalizing before written with
  | nil => cases member
  | cons c rest ih =>
    rcases List.mem_append.mp member with own | later
    · exact (mem_snakePiece own).imp_right fun own => ⟨c, own⟩
    · exact ih later

/-- No separators are written. -/
theorem snakeTail_kept (member : d ∈ snakeTail before written cs) : d ≠ '-' ∧ d ≠ ' ' := by
  -- What is written is an underscore, a character that was kept, or part of a small spelling.
  rcases mem_snakeTail member with rfl | ⟨c, kept, own⟩
  · decide
  · rcases mem_spelled own with ⟨-, rfl⟩ | ⟨-, -, apart⟩
    · exact not_or.mp kept
    · exact ⟨apart.1, apart.2.1⟩

/-- Apart from underscores, a piece is what its character is spelled with. -/
theorem filter_snakePiece {c : Char} {after : Option Char} :
    (snakePiece before written c after).filter (· ≠ '_') =
      if c ≠ '-' ∧ c ≠ ' ' ∧ c ≠ '_' then spelled c else [] := by
  by_cases separator : c = '-' ∨ c = ' '
  · -- A separator leaves an underscore or nothing, and neither is kept.
    have gap : ¬ (c ≠ '-' ∧ c ≠ ' ' ∧ c ≠ '_') := fun kept => by simp [kept] at separator
    rw [snakePiece_separator separator, if_neg gap]
    split
    · rfl
    · rfl
  rw [snakePiece_spelled separator, List.filter_append]
  obtain ⟨hyphen, blank⟩ := not_or.mp separator
  by_cases underscore : c = '_'
  · -- An underscore of the name is filtered out on either side.
    subst underscore
    simp [isUpper_underscore, spelled]
  · -- In any other spelling there is no underscore to be filtered out.
    have own : (spelled c).filter (· ≠ '_') = spelled c := by
      refine List.filter_eq_self.mpr fun d member => ?_
      rcases mem_spelled member with ⟨-, rfl⟩ | ⟨-, -, apart⟩
      · simpa using underscore
      · simpa using apart.2.2
    have kept : c ≠ '-' ∧ c ≠ ' ' ∧ c ≠ '_' := ⟨hyphen, blank, underscore⟩
    rw [own, if_pos (c := _ ≠ _ ∧ _) kept]
    split
    · rfl
    · rfl

/-- Apart from underscores, the rest of a name is spelled character by character. -/
theorem filter_snakeTail :
    (snakeTail before written cs).filter (· ≠ '_') =
      (cs.filter fun c => c ≠ '-' ∧ c ≠ ' ' ∧ c ≠ '_').flatMap spelled := by
  -- What was written before decides about underscores only, which are filtered out.
  induction cs generalizing before written with
  | nil => rfl
  | cons c rest ih =>
    rw [snakeTail, List.filter_append, ih, filter_snakePiece, List.filter_cons]
    simp only [decide_eq_true_eq]
    split
    · rfl
    · rfl

/-- A name with neither capitals nor separators is written as it stands. -/
theorem snakeTail_small (small : ∀ c ∈ cs, isUpper c = false ∧ c ≠ '-' ∧ c ≠ ' ') :
    snakeTail before written cs = cs := by
  -- Nothing is a capital or a separator, so that every piece is its own character.
  induction cs generalizing before written with
  | nil => rfl
  | cons c rest ih =>
    obtain ⟨⟨lower, kept⟩, later⟩ := List.forall_mem_cons.mp small
    have piece : snakePiece before written c rest.head? = [c] := by
      simp [snakePiece, kept, lower]
    rw [snakeTail, piece, ih later, List.singleton_append]

/-- Snake case has no separators; its other characters are those of the name in order, capitals
spelled with their small letters; and a name with nothing to change is its own snake case. -/
theorem snakeCase_touches (name : String) :
    (∀ c ∈ (snakeCase name).toList, c ≠ '-' ∧ c ≠ ' ') ∧
      (snakeCase name).toList.filter (· ≠ '_') =
        (name.toList.filter fun c => c ≠ '-' ∧ c ≠ ' ' ∧ c ≠ '_').flatMap spelled ∧
      ((∀ c ∈ name.toList, isUpper c = false ∧ c ≠ '-' ∧ c ≠ ' ') → snakeCase name = name) := by
  -- Each part holds for the rest of a name behind any beginning, and so for all of it.
  simp only [snakeCase, String.toList_ofList]
  refine ⟨fun _ => snakeTail_kept, filter_snakeTail, fun small => ?_⟩
  rw [snakeTail_small small, String.ofList_toList]

/-- Capitals are spelled with their small letters, of which the dotted one takes two characters, and
small letters beyond the Latin alphabet, digits and underscores stay as they are. -/
theorem snakeCase_touches_sample :
    (snakeCase "İlkAdı-HTTPÖlçü 2").toList.filter (· ≠ '_') = "i\u0307lkadıhttpölçü2".toList ∧
      snakeCase "İlkAdı-HTTPÖlçü 2" = "i\u0307lk_adı_http_ölçü_2" ∧
      (∀ c ∈ "größe_№2".toList, isUpper c = false ∧ c ≠ '-' ∧ c ≠ ' ') ∧
      snakeCase "größe_№2" = "größe_№2" := by
  -- All capitals of the name count here, also those that open no word.
  have capitals : ("İlkAdı-HTTPÖlçü 2".toList.filter fun c => c ≠ '-' ∧ c ≠ ' ' ∧ c ≠ '_').flatMap
      spelled = "i\u0307lkadıhttpölçü2".toList := by
    decide +kernel
  have each : ("größe_№2".toList.all fun c => !isUpper c && c != '-' && c != ' ') = true := by
    decide +kernel
  have small : ∀ c ∈ "größe_№2".toList, isUpper c = false ∧ c ≠ '-' ∧ c ≠ ' ' :=
    fun c member => by simpa [and_assoc] using List.all_eq_true.mp each c member
  exact ⟨(snakeCase_touches "İlkAdı-HTTPÖlçü 2").2.1.trans capitals, by decide +kernel, small,
    (snakeCase_touches "größe_№2").2.2 small⟩

end Touched

section Settled

/-- The last character written once a character of a name is written. -/
def lastWritten (c : Char) : Char :=
  if c = '-' ∨ c = ' ' then '_' else (spelled c).getLast?.getD '_'

/-- No capital in a text opens a word, given the character before the text. -/
def Settled (before : Option Char) : List Char → Prop
  | [] => True
  | c :: rest => (isUpper c = true → opensWord before rest.head? = false) ∧ Settled (some c) rest

/-- A capital without a small letter opens no word in a name, since no small letter follows it and
the character before it is a capital; but it opens one in the snake case of the name, where the
capital on one side of it has become a small letter. -/
structure Overlooked (before c : Char) (after : List Char) : Prop where
  caseless : Caseless c
  unmarked : after.head?.any isLower = false
  beside : Cased before ∨ Caseless before ∧ ∃ next rest, after = next :: rest ∧
    (Cased next ∨ next = dottedCapital) ∧ rest.head?.any isLower = false

variable {before written after : Option Char} {c d : Char} {cs rest piece : List Char}

/-- What is written is spelled as it is. -/
theorem snakeTail_spelled (member : d ∈ snakeTail before written cs) : spelled d = [d] := by
  -- Where a capital is left in what is written, it is one without a small letter.
  have small : isUpper d = false → spelled d = [d] := fun small => by simp [spelled, small]
  rcases mem_snakeTail member with rfl | ⟨c, -, own⟩
  · exact small isUpper_underscore
  · rcases mem_spelled own with ⟨same, rfl⟩ | ⟨-, lower, -⟩
    · exact same
    · exact small lower

/-- Every character is spelled with some last character. -/
theorem getLast?_spelled (c : Char) : ∃ last, (spelled c).getLast? = some last := by
  -- The dotted capital is spelled with two characters, and any other one with one.
  rw [spelled]
  split
  · rcases lower_cases c with rfl | same | ⟨small, form, -⟩
    · exact ⟨_, rfl⟩
    · exact ⟨c, by rw [same, List.getLast?_singleton]⟩
    · exact ⟨small, by rw [form, List.getLast?_singleton]⟩
  · exact ⟨c, rfl⟩

/-- The last character written is known by the character of the name. -/
theorem getLast?_snakePiece {after : Option Char} :
    (snakePiece before written c after).getLast?.or written = some (lastWritten c) := by
  by_cases separator : c = '-' ∨ c = ' '
  · -- A separator that writes nothing does so because an underscore was written last.
    rw [snakePiece_separator separator, lastWritten, if_pos separator]
    split
    · assumption
    · rfl
  · -- An underscore in front of a spelling does not change how it ends.
    obtain ⟨last, spelt⟩ := getLast?_spelled c
    rw [snakePiece_spelled separator, lastWritten, if_neg separator, List.getLast?_append, spelt]
    rfl

/-- From the second character on, the last one written is that of the character before. -/
theorem snakeTail_cons : snakeTail before written (c :: rest) =
    snakePiece before written c rest.head? ++ snakeTail (some c) (some (lastWritten c)) rest := by
  -- The state is the last character written, which the piece before has just settled.
  rw [snakeTail, getLast?_snakePiece]

/-- A capital only opens a word behind a character that can be told from an underscore. -/
theorem opensWord_behind (opens : opensWord before after = true) :
    before.isSome = true ∧ before ≠ some '_' := by
  -- Only a small letter, a digit or a capital stands before a word.
  cases before with
  | none => simp [opensWord] at opens
  | some c =>
    refine ⟨rfl, ?_⟩
    rintro ⟨⟩
    rw [opensWord_other isUpper_underscore, isLower_of_lt (by decide)] at opens
    cases opens

/-- A text that snake case may write is left alone exactly if it is settled. -/
theorem snakeTail_eq_self_iff (kept : ∀ c ∈ cs, (c ≠ '-' ∧ c ≠ ' ') ∧ spelled c = [c]) :
    snakeTail before before cs = cs ↔ Settled before cs := by
  induction cs generalizing before with
  | nil => simp [snakeTail, Settled]
  | cons c rest ih =>
    obtain ⟨⟨separate, own⟩, later⟩ := List.forall_mem_cons.mp kept
    have last : lastWritten c = c := by simp [lastWritten, separate, own]
    rw [snakeTail_cons, last, snakePiece_spelled (by tauto), own, Settled]
    by_cases marked : isUpper c = true ∧ opensWord before rest.head? = true
    · -- An underscore is written in place of the capital.
      rw [if_pos ⟨marked.1, marked.2, opensWord_behind marked.2⟩]
      constructor
      · intro same
        obtain rfl : '_' = c := (List.cons.inj same).1
        simp [isUpper_underscore] at marked
      · intro settled
        simp [settled.1 marked.1] at marked
    · -- Every other character is written as it is.
      have unmarked : isUpper c = true → opensWord before rest.head? = false := by
        simpa using marked
      rw [if_neg fun more => marked ⟨more.1, more.2.1⟩, List.nil_append, List.singleton_append,
        List.cons.injEq, ih later, and_iff_right rfl, and_iff_right unmarked]

/-- Characters that are no capitals are settled in any case. -/
theorem settled_append (small : ∀ c ∈ piece, isUpper c = false) :
    Settled before (piece ++ rest) ↔ Settled (piece.getLast?.or before) rest := by
  -- No character of the piece is a capital, so that only its last one is looked at from behind.
  induction piece generalizing before with
  | nil => rfl
  | cons c others ih =>
    obtain ⟨first, later⟩ := List.forall_mem_cons.mp small
    rw [List.cons_append, Settled, ih later, List.getLast?_cons]
    cases others.getLast? <;> simp [first]

/-- A capital without a small letter is no separator, and is spelled and left behind as it is. -/
theorem Caseless.kept (caseless : Caseless c) :
    ¬ (c = '-' ∨ c = ' ') ∧ spelled c = [c] ∧ lastWritten c = c := by
  -- A capital is no separator, and this one is spelled with itself.
  have kept : ¬ (c = '-' ∨ c = ' ') := fun separator => by
    simp [Caseless, isUpper_separator separator] at caseless
  have own : spelled c = [c] := by rw [spelled, if_pos caseless.1, caseless.2]
  exact ⟨kept, own, by rw [lastWritten, if_neg kept, own]; rfl⟩

/-- A piece is settled unless it is nothing but a capital that opens a word in what is written. -/
theorem settled_snakePiece : Settled written (snakePiece before written c after ++ rest) ↔
    (Caseless c → snakePiece before written c after = [c] →
      opensWord written rest.head? = false) ∧ Settled (some (lastWritten c)) rest := by
  by_cases caseless : Caseless c
  · obtain ⟨kept, own, last⟩ := caseless.kept
    rw [snakePiece_spelled kept, own, last]
    split
    · -- Behind an underscore the capital opens no word.
      have unmarked : opensWord (some '_') rest.head? = false :=
        Bool.eq_false_iff.mpr fun opens => (opensWord_behind opens).2 rfl
      simp [Settled, isUpper_underscore, unmarked]
    · simp [Settled, caseless, caseless.1]
  · -- A character with a lowercase form leaves no capital behind.
    have small : ∀ d ∈ snakePiece before written c after, isUpper d = false := by
      intro d member
      rcases mem_snakePiece member with rfl | ⟨-, own⟩
      · exact isUpper_underscore
      rcases mem_spelled own with ⟨same, rfl⟩ | ⟨-, lower, -⟩
      · refine Bool.eq_false_iff.mpr fun upper => caseless ⟨upper, ?_⟩
        rwa [spelled, if_pos upper] at same
      · exact lower
    rw [settled_append small, getLast?_snakePiece]
    simp [caseless]

/-- A capital without a small letter is neither one that has one nor the dotted one. -/
theorem Caseless.not_cased (caseless : Caseless c) : ¬ (Cased c ∨ c = dottedCapital) := by
  -- A small letter of its own would be the capital itself, which is no small letter.
  rintro (⟨upper, small, form, lower⟩ | rfl)
  · rw [caseless.2] at form
    obtain rfl : c = small := List.singleton_inj.mp form
    simp [isLower_of_isUpper upper] at lower
  · exact absurd caseless.2 (by decide)

/-- Behind a capital without a small letter, where no small letter follows in the name, one follows
in what is written exactly if it is that of a capital that opens no word. -/
theorem head?_snakeTail (caseless : Caseless c) (unmarked : rest.head?.any isLower = false) :
    (snakeTail (some c) (some c) rest).head?.any isLower = true ↔
      ∃ next others, rest = next :: others ∧ (Cased next ∨ next = dottedCapital) ∧
        others.head?.any isLower = false := by
  -- An underscore in front of what follows would hide it.
  have gap : isLower '_' = false := isLower_of_lt (by decide)
  have solid : some c ≠ some '_' := by
    rintro ⟨⟩
    simp [Caseless, isUpper_underscore] at caseless
  cases rest with
  | nil => simp [snakeTail]
  | cons next others =>
    have lowered : isLower next = false := unmarked
    simp only [List.cons.injEq, exists_and_left, and_assoc, exists_eq_left']
    rw [snakeTail_cons]
    by_cases upper : isUpper next = true
    · have kept : ¬ (next = '-' ∨ next = ' ') := fun separator => by
        simp [isUpper_separator separator] at upper
      rw [snakePiece_spelled kept, opensWord_capital caseless.1, spelled, if_pos upper]
      -- A capital that opens a word gets an underscore, and others show their spelling at once.
      by_cases marked : others.head?.any isLower = true
      · simp [upper, marked, solid, gap]
      · have closed : others.head?.any isLower = false := Bool.eq_false_iff.mpr marked
        rw [if_neg fun more => marked more.2.1, List.nil_append]
        rcases isUpper_cases upper with rfl | same | cased
        · have small : isLower 'i' = true := by decide +kernel
          simp [lower, small, closed]
        · simp [same.2, lowered, same.not_cased]
        · obtain ⟨-, small, form, lower⟩ := id cased
          simp [form, lower, cased, closed]
    · have other : ¬ (Cased next ∨ next = dottedCapital) := by
        rintro (cased | rfl)
        · exact upper cased.1
        · exact upper rfl
      -- What is no capital is written as it is, and it is no small letter.
      by_cases separator : next = '-' ∨ next = ' '
      · simp [snakePiece_separator separator, solid, gap, other]
      · simp [snakePiece_spelled separator, spelled, upper, lowered, other]

/-- An overlooked capital is written without an underscore before it. -/
theorem Overlooked.bare (overlooked : Overlooked c d rest) :
    snakePiece (some c) written d rest.head? = [d] := by
  -- The capital stands behind another one and before no small letter, and so opens no word.
  obtain ⟨kept, own, -⟩ := overlooked.caseless.kept
  have upper : isUpper c = true := by
    rcases overlooked.beside with cased | ⟨caseless, -⟩
    · exact cased.1
    · exact caseless.1
  simp [snakePiece_spelled kept, own, opensWord_capital upper, overlooked.unmarked]

/-- A capital without a small letter, written without an underscore before it, opens a word in what
is written exactly if it is overlooked. -/
theorem opensWord_written_iff (caseless : Caseless d)
    (bare : snakePiece (some c) (some (lastWritten c)) d rest.head? = [d]) :
    opensWord (some (lastWritten c)) (snakeTail (some d) (some d) rest).head? = true ↔
      Overlooked c d rest := by
  obtain ⟨kept, own, -⟩ := caseless.kept
  have unmarked : lastWritten c ≠ '_' → opensWord (some c) rest.head? = false := by
    intro solid
    refine Bool.eq_false_iff.mpr fun opens => ?_
    simp [snakePiece_spelled kept, own, caseless.1, opens, solid] at bare
  by_cases upper : isUpper c = true
  · rw [opensWord_capital upper] at unmarked
    have separate : ¬ (c = '-' ∨ c = ' ') := fun separator => by
      simp [isUpper_separator separator] at upper
    rcases isUpper_cases upper with rfl | plain | cased
    · -- The dotted capital leaves a mark behind that is no letter.
      have mark : opensWord (some '\u0307') (snakeTail (some d) (some d) rest).head? = false := by
        rw [opensWord_other (by decide +kernel)]
        decide +kernel
      have neither : ¬ (Cased dottedCapital ∨ Caseless dottedCapital) := by
        rintro (⟨-, small, form, -⟩ | same)
        · exact absurd form (by simp [lower])
        · exact same.not_cased (.inr rfl)
      refine iff_of_false (fun opens => ?_) fun overlooked => ?_
      · exact absurd (mark.symm.trans opens) (by decide)
      · exact neither (overlooked.beside.imp_right And.left)
    · -- A capital without other forms is written as it is, and decides as it did.
      obtain ⟨-, -, last⟩ := plain.kept
      have solid : lastWritten c ≠ '_' := by
        rw [last]
        rintro rfl
        simp [isUpper_underscore] at upper
      rw [last, opensWord_capital upper, head?_snakeTail caseless (unmarked solid)]
      constructor
      · exact fun opens => ⟨caseless, unmarked solid, .inr ⟨plain, opens⟩⟩
      · rintro ⟨-, -, cased | ⟨-, opens⟩⟩
        · exact absurd (.inl cased) plain.not_cased
        · exact opens
    · -- A capital with a lowercase form is written as that, behind which a capital opens a word.
      obtain ⟨-, small, form, lowered⟩ := id cased
      have last : lastWritten c = small := by
        simp [lastWritten, separate, spelled, upper, form]
      refine iff_of_true ?_ ⟨caseless, unmarked (last ▸ (isLower_ne lowered).2.2), .inl cased⟩
      rw [last, opensWord_other (isUpper_of_isLower lowered), lowered, Bool.true_or]
  · -- What is no capital overlooks nothing.
    have neither : ¬ Overlooked c d rest := by
      rintro ⟨-, -, cased | ⟨caseless, -⟩⟩
      · exact upper cased.1
      · exact upper caseless.1
    refine iff_of_false (fun opens => ?_) neither
    by_cases separator : c = '-' ∨ c = ' '
    · exact (opensWord_behind opens).2 (by rw [lastWritten, if_pos separator])
    · -- Whether a capital opens a word is the same in the name and in what is written.
      have last : lastWritten c = c := by simp [lastWritten, separator, spelled, upper]
      have solid := (opensWord_behind opens).2
      rw [last, opensWord_other (by simpa using upper)] at opens
      have closed := unmarked fun same => solid (congrArg some same)
      rw [opensWord_other (by simpa using upper), opens] at closed
      cases closed

/-- The rest of what is written is settled exactly if no capital of the rest is overlooked. -/
theorem settled_snakeTail : Settled (some (lastWritten c))
      (snakeTail (some c) (some (lastWritten c)) cs) ↔
    ∀ before d after, before :: d :: after <:+ c :: cs → ¬ Overlooked before d after := by
  -- The name is walked through with a window of two characters, of which the first is written.
  induction cs generalizing c with
  | nil =>
    -- At the end there is no window left.
    refine iff_of_true trivial fun before d after suffix => ?_
    have := suffix.length_le
    simp at this
  | cons d rest ih =>
    -- A capital that stays is settled in its place exactly if it has not been overlooked.
    have here : (Caseless d → snakePiece (some c) (some (lastWritten c)) d rest.head? = [d] →
        opensWord (some (lastWritten c)) (snakeTail (some d) (some (lastWritten d)) rest).head? =
          false) ↔ ¬ Overlooked c d rest := by
      constructor
      · intro closed overlooked
        have caseless := overlooked.caseless
        have opens := (opensWord_written_iff caseless overlooked.bare).mpr overlooked
        have shut := closed caseless overlooked.bare
        rw [caseless.kept.2.2, opens] at shut
        cases shut
      · intro noticed caseless bare
        rw [caseless.kept.2.2]
        exact Bool.eq_false_iff.mpr fun opens =>
          noticed ((opensWord_written_iff caseless bare).mp opens)
    rw [snakeTail_cons, settled_snakePiece, ih, here]
    constructor
    · rintro ⟨first, later⟩ before d' after suffix
      rcases List.suffix_cons_iff.mp suffix with same | further
      · obtain ⟨rfl, rfl, rfl⟩ : before = c ∧ d' = d ∧ after = rest := by simpa using same
        exact first
      · exact later _ _ _ further
    · intro all
      exact ⟨all _ _ _ (List.suffix_refl _), fun before d' after further =>
        all _ _ _ (further.trans (List.suffix_cons _ _))⟩

/-- No capital of a name is overlooked. -/
def Noticed (name : String) : Prop :=
  ∀ before c after, before :: c :: after <:+ name.toList → ¬ Overlooked before c after

/-- All capitals are noticed where each of them has a small letter. -/
theorem noticed_of_cased {name : String} (cased : ∀ c ∈ name.toList, ¬ Caseless c) :
    Noticed name := by
  -- Only a capital without a small letter can be overlooked.
  intro before c after suffix overlooked
  exact cased c (suffix.subset (by simp)) overlooked.caseless

/-- The snake case of a name is its own snake case exactly if all capitals are noticed. -/
theorem snakeCase_settled_iff (name : String) :
    snakeCase (snakeCase name) = snakeCase name ↔ Noticed name := by
  unfold Noticed
  -- All that has been written is kept if nothing in it opens a word.
  have kept : ∀ d ∈ snakeTail none none name.toList, (d ≠ '-' ∧ d ≠ ' ') ∧ spelled d = [d] :=
    fun d member => ⟨snakeTail_kept member, snakeTail_spelled member⟩
  simp only [snakeCase, String.toList_ofList, String.ofList_inj, snakeTail_eq_self_iff kept]
  cases name.toList with
  | nil =>
    refine iff_of_true trivial fun before c after suffix => ?_
    have := suffix.length_le
    simp at this
  | cons c cs =>
    -- The first character has none before it, so that it opens no word.
    rw [snakeTail_cons, settled_snakePiece, ← settled_snakeTail]
    simp [opensWord]

end Settled

end SchemaLedger
