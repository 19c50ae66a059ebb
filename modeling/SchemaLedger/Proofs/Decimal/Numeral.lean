import SchemaLedger.Proofs.Decimal.Binary64
import SchemaLedger.Proofs.Decimal.Digits
import SchemaLedger.Decimal.Shortest

/-! Integers and numbers with fixed decimal places are written as plain decimal numerals. -/

namespace SchemaLedger

/-- A plain decimal numeral: digits behind an optional sign, and further digits behind a point where
there are any. -/
structure Numeral where
  negative : Bool
  whole : List Char
  fraction : List Char
  digits : ∀ c ∈ whole ++ fraction, c.isDigit = true
  whole_ne_nil : whole ≠ []

namespace Numeral

/-- The point and the digits behind it. -/
def tail (numeral : Numeral) : List Char :=
  if numeral.fraction = [] then [] else '.' :: numeral.fraction

/-- The characters of a numeral. -/
def chars (numeral : Numeral) : List Char :=
  (if numeral.negative then ['-'] else []) ++ (numeral.whole ++ numeral.tail)

/-- The text of a numeral. -/
def text (numeral : Numeral) : String := String.ofList numeral.chars

/-- The number that a numeral stands for: all its digits, over a power of ten for each of those
behind the point. -/
def value (numeral : Numeral) : ℚ :=
  (if numeral.negative then -1 else 1) *
    (digitsValue (numeral.whole ++ numeral.fraction) / 10 ^ numeral.fraction.length)

/-- The sign is told from the first character, as a digit follows it. -/
theorem head?_chars (numeral : Numeral) :
    numeral.chars.head? = some '-' ↔ numeral.negative = true := by
  -- Without a sign a digit comes first, which is no minus.
  obtain ⟨c, others, whole⟩ := List.exists_cons_of_ne_nil numeral.whole_ne_nil
  have digit := numeral.digits c (by simp [whole])
  rw [chars, whole]
  cases numeral.negative
  · have : c ≠ '-' := by
      rintro rfl
      exact absurd digit (by decide)
    simpa using this
  · simp

/-- The digits in front of the point are read up to it. -/
theorem takeWhile_whole (numeral : Numeral) :
    (numeral.whole ++ numeral.tail).takeWhile Char.isDigit = numeral.whole := by
  -- The digits end at the point, or with the text.
  rw [List.takeWhile_append_of_pos fun c member =>
    numeral.digits c (List.mem_append_left _ member), tail]
  split <;> simp

/-- A text is that of one numeral at most. -/
theorem text_injective : Function.Injective text := fun one other same => by
  -- Sign, digits and fraction are read off the text one after the other.
  have chars : one.chars = other.chars := String.ofList_injective same
  have sign : one.negative = other.negative := by
    rw [Bool.eq_iff_iff, ← head?_chars, ← head?_chars, chars]
  rw [Numeral.chars, Numeral.chars, sign, List.append_cancel_left_eq] at chars
  have whole : one.whole = other.whole := by
    rw [← takeWhile_whole one, chars, takeWhile_whole]
  rw [whole, List.append_cancel_left_eq] at chars
  have fraction : one.fraction = other.fraction := by
    rw [tail, tail] at chars
    split at chars <;> split at chars <;> simp_all
  cases one
  cases other
  simp_all

/-- A point is written just where digits follow it. -/
theorem point_mem_text (numeral : Numeral) :
    '.' ∈ numeral.text.toList ↔ numeral.fraction ≠ [] := by
  -- Neither the sign nor a digit is a point, so that only the fraction brings one.
  have whole : '.' ∉ numeral.whole := fun member =>
    absurd (numeral.digits '.' (List.mem_append_left _ member)) (by decide)
  rw [text, String.toList_ofList, chars, tail]
  cases numeral.negative <;> split <;> simp_all

/-- The numeral of an integer. -/
def ofInt (n : ℤ) : Numeral where
  negative := n < 0
  whole := decimalDigits n.natAbs
  fraction := []
  digits := fun c member => isDigit_of_mem_decimalDigits (by simpa using member)
  whole_ne_nil := decimalDigits_ne_nil _

/-- An integer is written as its numeral. -/
theorem text_ofInt (n : ℤ) : (ofInt n).text = integerText n := by
  -- Without a fraction there is neither a point nor anything behind it.
  simp [text, chars, tail, ofInt, integerText, signedDigits]

/-- The numeral of an integer stands for it. -/
theorem value_ofInt (n : ℤ) : (ofInt n).value = n := by
  -- The digits are those of the size, to which the sign comes back.
  have size : ((n.natAbs : ℤ) : ℚ) = |(n : ℚ)| := by rw [Int.natCast_natAbs, Int.cast_abs]
  rw [Int.cast_natCast] at size
  simp only [value, ofInt, List.append_nil, digitsValue_decimalDigits, List.length_nil, pow_zero,
    div_one, size]
  rcases lt_or_ge n 0 with negative | nonneg
  · rw [abs_of_neg (Int.cast_lt_zero.mpr negative)]
    simp [negative]
  · rw [abs_of_nonneg (by exact_mod_cast nonneg)]
    simp [nonneg.not_gt]

section Fixed

variable {places steps : Nat}

/-- The digits of a number of steps, with zeros in front so that one of them stands before the
point. -/
def fixedDigits (places steps : Nat) : List Char :=
  List.replicate (places + 1 - (decimalDigits steps).length) '0' ++ decimalDigits steps

/-- Zeros in front do not change the value. -/
theorem digitsValue_fixedDigits : digitsValue (fixedDigits places steps) = steps := by
  -- Zeros in front count nothing.
  have zeros (count : Nat) (rest : List Char) :
      digitsValue (List.replicate count '0' ++ rest) = digitsValue rest := by
    induction count with
    | zero => rfl
    | succ count ih => exact ih
  rw [fixedDigits, zeros, digitsValue_decimalDigits]

/-- There are more digits than places. -/
theorem lt_length_fixedDigits (places steps : Nat) : places < (fixedDigits places steps).length := by
  -- Zeros fill the digits up to one more than the places.
  rw [fixedDigits, List.length_append, List.length_replicate]
  omega

/-- Only digits are filled up, and with digits. -/
theorem isDigit_of_mem_fixedDigits {c : Char} (member : c ∈ fixedDigits places steps) :
    c.isDigit = true := by
  -- A digit is one of the zeros in front, or one of the number.
  rcases List.mem_append.mp member with zero | digit
  · rw [List.eq_of_mem_replicate zero]
    rfl
  · exact isDigit_of_mem_decimalDigits digit

/-- The numeral of a number of steps of a fixed number of decimal places. -/
def ofSteps (negative : Bool) (places steps : Nat) : Numeral where
  negative := negative
  whole := (fixedDigits places steps).take ((fixedDigits places steps).length - places)
  fraction := (fixedDigits places steps).drop ((fixedDigits places steps).length - places)
  digits := fun c member =>
    isDigit_of_mem_fixedDigits (List.take_append_drop _ (fixedDigits places steps) ▸ member)
  whole_ne_nil := by
    have := lt_length_fixedDigits places steps
    rw [ne_eq, ← List.length_eq_zero_iff, List.length_take]
    omega

/-- The numeral has the given number of places. -/
theorem length_fraction_ofSteps (negative : Bool) (places steps : Nat) :
    (ofSteps negative places steps).fraction.length = places := by
  -- All digits before the last places belong to the whole part.
  have := lt_length_fixedDigits places steps
  rw [ofSteps, List.length_drop]
  omega

/-- The numeral of a number of steps stands for as many steps. -/
theorem value_ofSteps (negative : Bool) (places steps : Nat) :
    (ofSteps negative places steps).value =
      (if negative then -1 else 1) * (steps / 10 ^ places) := by
  -- The digits of both parts together are those of the steps.
  have all : (ofSteps negative places steps).whole ++ (ofSteps negative places steps).fraction =
      fixedDigits places steps := List.take_append_drop _ _
  rw [value, length_fraction_ofSteps, all, digitsValue_fixedDigits]
  rfl

/-- A number with fixed decimal places is written as the numeral of its steps. -/
theorem text_ofSteps (x : Binary64) (some : 0 < places) :
    (ofSteps x.isNegative places (x.fixedSteps places)).text = x.fixedText places := by
  -- With one place at least there is a fraction.
  have fraction : (ofSteps x.isNegative places (x.fixedSteps places)).fraction ≠ [] := by
    rw [ne_eq, ← List.length_eq_zero_iff, length_fraction_ofSteps]
    omega
  have within := lt_length_fixedDigits places (x.fixedSteps places)
  -- There are more digits than places, and so the point stands among them.
  have plain : plainText false (fixedDigits places (x.fixedSteps places)) (-places) =
      (ofSteps x.isNegative places (x.fixedSteps places)).whole ++
        '.' :: (ofSteps x.isNegative places (x.fixedSteps places)).fraction := by
    rw [plainText, if_neg (by omega), neg_neg, Int.toNat_natCast, if_pos within]
    rfl
  apply String.toList_injective
  rw [text, String.toList_ofList, chars, tail, if_neg fraction, ← plain, Binary64.fixedText]
  cases x.isNegative <;> simp [ofSteps, fixedDigits]

end Fixed

end Numeral

end SchemaLedger
