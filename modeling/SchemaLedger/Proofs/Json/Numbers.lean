import Mathlib.Data.List.TakeDrop
import Mathlib.Tactic.SplitIfs
import SchemaLedger.Json.Printer
import SchemaLedger.Json.Scalar
import SchemaLedger.Proofs.Decimal.Digits

/-! Integers are read back from the digits that they are printed with, and whatever is read as an
integer has at most 64 bits. -/

namespace SchemaLedger.Json

/-- A text ends a number if it does not go on with a digit, a decimal point or an exponent. -/
def EndsNumber (text : List Char) : Prop :=
  ∀ c, text.head? = some c → c.isDigit = false ∧ c ≠ '.' ∧ c ≠ 'e' ∧ c ≠ 'E'

/-- A character that is no part of a number ends it. -/
theorem endsNumber_cons {c : Char} {rest : List Char}
    (apart : c.isDigit = false ∧ c ≠ '.' ∧ c ≠ 'e' ∧ c ≠ 'E') : EndsNumber (c :: rest) := by
  -- Only the first character behind the number matters.
  rintro _ ⟨⟩
  exact apart

/-- An integer is kept with 64 bits, with or without a sign. -/
def IsInteger64 (value : Int) : Prop := Int64.minValue.toInt ≤ value ∧ value < UInt64.size

section Parts

variable {cut : Malformed} {n : Nat} {rest : List Char}

/-- Digits are taken up to the end of a number. -/
theorem takeDigits_append {digits : List Char} (all : ∀ c ∈ digits, c.isDigit = true)
    (ends : EndsNumber rest) : takeDigits (digits ++ rest) = (digits, rest) := by
  -- The digits are taken to their end, where the next character stops it.
  have stop := digits_stop fun c first => (ends c first).1
  rw [takeDigits, List.span_eq_takeWhile_dropWhile, List.takeWhile_append_of_pos all,
    List.dropWhile_append_of_pos all, stop.1, stop.2, List.append_nil]

/-- The digits of a number are all taken for its whole part. -/
theorem wholeDigits_decimalDigits (ends : EndsNumber rest) :
    wholeDigits cut (decimalDigits n ++ rest) = .ok (decimalDigits n, rest) := by
  rcases Nat.eq_zero_or_pos n with rfl | positive
  · -- Zero stands alone, and would be followed by another digit only if the number went on.
    have last : rest.head?.any Char.isDigit = false := by
      cases rest with
      | nil => rfl
      | cons c rest => simpa using (ends c rfl).1
    change (if rest.head?.any Char.isDigit then _ else _) = _
    rw [last]
    rfl
  · -- A positive number does not begin with zero, so that all its digits are taken.
    have all : ∀ c ∈ decimalDigits n, c.isDigit = true := fun _ => isDigit_of_mem_decimalDigits
    have taken := takeDigits_append all ends
    have leading := head?_decimalDigits positive
    obtain ⟨c, others, digits, digit⟩ := decimalDigits_eq_cons n
    rw [digits] at taken leading ⊢
    have nonzero : c ≠ '0' := fun same => leading (congrArg some same)
    rw [List.cons_append] at taken ⊢
    rw [wholeDigits, digit, if_pos rfl, taken]
    simpa using nonzero

/-- A number that ends has no fraction. -/
theorem fractionDigits_none (ends : EndsNumber rest) :
    fractionDigits cut rest = .ok (none, rest) := by
  -- A point would have to come first, and the number has ended.
  unfold fractionDigits
  split
  · exact absurd rfl (ends '.' rfl).2.1
  · rfl

/-- A number that ends has no exponent. -/
theorem exponentDigits_none (ends : EndsNumber rest) :
    exponentDigits cut rest = .ok (none, rest) := by
  -- The number may end with the text, or with a character that is no letter of an exponent.
  unfold exponentDigits
  split
  · rfl
  · rename_i c rest
    obtain ⟨-, -, lower, upper⟩ := ends c rfl
    rw [if_neg (not_or.mpr ⟨lower, upper⟩)]

/-- A printed number is taken apart into its digits and nothing else. -/
theorem numberText_decimalDigits (negative : Bool) (ends : EndsNumber rest) :
    numberText cut negative (decimalDigits n ++ rest) =
      .ok (⟨negative, decimalDigits n, none, none⟩, rest) := by
  -- There is nothing but a whole part, which ends where its digits do.
  simp [numberText, wholeDigits_decimalDigits ends, fractionDigits_none ends,
    exponentDigits_none ends, bind, Except.bind, pure, Except.pure]

end Parts

section Values

variable {bound value : Nat} {digits : List Char}

/-- Digits only add to a value. -/
theorem le_foldl_digits (digits : List Char) (value : Nat) :
    value ≤ digits.foldl (fun value c => value * 10 + (c.toNat - '0'.toNat)) value := by
  -- Every further digit at least multiplies the value by ten.
  induction digits generalizing value with
  | nil => exact Nat.le_refl value
  | cons c rest ih =>
    have first : value ≤ value * 10 + (c.toNat - '0'.toNat) := by omega
    exact Nat.le_trans first (ih _)

/-- Digits all fit if their value stays below the bound. -/
theorem fittingDigits_all (digits : List Char) (value : Nat)
    (fits : digits.foldl (fun value c => value * 10 + (c.toNat - '0'.toNat)) value < bound) :
    fittingDigits bound value digits =
      (digits.foldl (fun value c => value * 10 + (c.toNat - '0'.toNat)) value, []) := by
  -- Since values only grow, what fits in the end has fitted at every digit.
  induction digits generalizing value with
  | nil => rfl
  | cons c rest ih =>
    have next := Nat.lt_of_le_of_lt (le_foldl_digits rest _) fits
    rw [fittingDigits, if_pos next]
    exact ih _ fits

/-- The value of the digits that fit stays below the bound. -/
theorem fittingDigits_lt (below : value < bound) :
    (fittingDigits bound value digits).1 < bound := by
  -- A digit that would lead beyond the bound is not taken.
  induction digits generalizing value with
  | nil => exact below
  | cons c rest ih =>
    rw [fittingDigits]
    split
    · exact ih ‹_›
    · exact below

/-- A text that stands for an integer stands for one of at most 64 bits. -/
theorem NumberText.isInteger64 {text : NumberText} {value : Int}
    (integer : text.value? = some (.integer value)) : IsInteger64 value := by
  -- Digits are taken only as long as the number fits.
  have below : (fittingDigits UInt64.size 0 text.whole).1 < UInt64.size :=
    fittingDigits_lt (by decide)
  have least : Int64.minValue.toInt < 0 := by decide
  rcases fitting : fittingDigits UInt64.size 0 text.whole with ⟨whole, spare⟩
  rw [fitting] at below
  simp only [value?, fitting] at integer
  split_ifs at integer with plain positive small large tiny
  · cases integer
    exact ⟨by omega, by omega⟩
  · cases integer
    exact ⟨small.2, by omega⟩
  -- All other texts stand for floating point numbers, if they stand for any.
  · cases integer
  · cases integer
  all_goals
    obtain ⟨_, _, float⟩ := Option.map_eq_some_iff.mp integer
    cases float

/-- The digits of an integer of at most 64 bits stand for it. -/
theorem NumberText.value?_digits {value : Int} (fits : IsInteger64 value) :
    value? ⟨decide (value < 0), decimalDigits value.natAbs, none, none⟩ =
      some (.integer value) := by
  obtain ⟨above, below⟩ := fits
  have range : (UInt64.size : Int) = 2 ^ 64 ∧ Int64.minValue.toInt = -2 ^ 63 := by decide
  -- All digits fit, because the integer does.
  have own : digitsValue (decimalDigits value.natAbs) < UInt64.size := by
    rw [digitsValue_decimalDigits]
    omega
  have fitting : fittingDigits UInt64.size 0 (decimalDigits value.natAbs) =
      (digitsValue (decimalDigits value.natAbs), []) := fittingDigits_all _ _ own
  rw [digitsValue_decimalDigits] at fitting
  simp only [value?, fitting]
  -- The two bounds differ, and the least integer is allowed below zero only.
  by_cases negative : value < 0
  · have back : -(value.natAbs : Int) = value := by omega
    simp only [Option.isNone_none, List.isEmpty_nil, Bool.and_self, decide_eq_true negative,
      Bool.not_true, Bool.false_eq_true, if_true, if_false, back]
    exact if_pos ⟨by omega, above⟩
  · have back : (value.natAbs : Int) = value := by omega
    simp [negative, back]

end Values

/-- An integer of at most 64 bits is read back from its own digits, behind its sign. -/
theorem readNumber_digits {value : Int} (fits : IsInteger64 value) {rest : List Char}
    (ends : EndsNumber rest) :
    readNumber (decide (value < 0)) (decimalDigits value.natAbs ++ rest) =
      .ok (.integer value, rest) := by
  -- The text of the number is read first, and then what it means.
  simp [readNumber, numberText_decimalDigits _ ends, NumberText.value?_digits fits, bind,
    Except.bind, pure, Except.pure]

/-- A number that is read as an integer has at most 64 bits. -/
theorem isInteger64_of_readNumber {negative : Bool} {text rest : List Char} {value : Int}
    (read : readNumber negative text = .ok (.integer value, rest)) : IsInteger64 value := by
  -- A number that has been read has a text, and the text has a meaning.
  cases parts : numberText .endInValue negative text with
  | error error => simp [readNumber, parts, bind, Except.bind] at read
  | ok found =>
    obtain ⟨number, behind⟩ := found
    cases meant : number.value? with
    | none => simp [readNumber, parts, meant, malformedAt, bind, Except.bind] at read
    | some own =>
      simp only [readNumber, parts, meant, bind, Except.bind, pure, Except.pure, Except.ok.injEq,
        Prod.mk.injEq] at read
      exact NumberText.isInteger64 (read.1 ▸ meant)

end SchemaLedger.Json
