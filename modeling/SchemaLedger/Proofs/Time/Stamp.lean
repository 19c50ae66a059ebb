import Mathlib.Algebra.Group.Nat.Defs
import Mathlib.Data.List.TakeWhile
import Mathlib.Tactic.SplitIfs
import SchemaLedger.Proofs.Decimal.Digits
import SchemaLedger.Time.Stamp

/-! Every instant is read back from its time stamp. -/

namespace SchemaLedger

/-- A digit is no blank. -/
theorem isBlank_of_isDigit {c : Char} (digit : c.isDigit = true) : isBlank c = false := by
  have range : 48 ≤ c.toNat ∧ c.toNat ≤ 57 := by
    simpa [Char.isDigit, UInt32.le_iff_toNat_le] using digit
  -- All digits lie between the space and the first blank outside of ASCII.
  simp only [isBlank, Bool.or_eq_false_iff, Bool.and_eq_false_imp, decide_eq_true_eq,
    decide_eq_false_iff_not, Nat.not_le, beq_eq_false_iff_ne, ne_eq]
  omega

/-- A text that does not start with a blank has none at its front. -/
theorem trimFront_cons {c : Char} {rest : List Char} (solid : isBlank c = false) :
    trimFront (c :: rest) = c :: rest :=
  -- The first character that is no blank ends the blanks in front.
  List.dropWhile_cons_of_neg (by simp [solid])

namespace Stamp

section Digits

variable {width n : Nat} {c : Char} {digits rest : List Char}

/-- A number is still written with digits only behind leading zeros. -/
theorem isDigit_of_mem_padded (member : c ∈ padded width n) : c.isDigit = true := by
  -- The padding is made of zeros, which are digits too.
  rcases List.mem_append.mp member with zero | digit
  · rw [(List.mem_replicate.mp zero).2]
    rfl
  · exact isDigit_of_mem_decimalDigits digit

/-- Leading zeros do not change what digits stand for. -/
theorem digitsValue_padded (width n : Nat) : digitsValue (padded width n) = n := by
  -- Zeros in front of a number do not change its value.
  rw [digitsValue_eq, padded, Nat.ofDigitChars_append, Nat.ofDigitChars_replicate_zero,
    Nat.mul_zero, ← digitsValue_eq, digitsValue_decimalDigits]

/-- Zeros at the end raise what digits stand for to a power of ten. -/
theorem digitsValue_append_zeros (digits : List Char) (count : Nat) :
    digitsValue (digits ++ List.replicate count '0') = 10 ^ count * digitsValue digits := by
  -- Each zero behind a number multiplies its value by ten.
  rw [digitsValue_eq, Nat.ofDigitChars_append, Nat.ofDigitChars_replicate_zero, ← digitsValue_eq]

/-- A number that is not too large takes exactly the width that it is padded to. -/
theorem length_padded (positive : 0 < width) (small : n < 10 ^ width) :
    (padded width n).length = width := by
  -- A number below the power has no more digits than the width.
  have fits : (decimalDigits n).length ≤ width :=
    (Nat.length_toDigits_le_iff (by decide) positive).mpr small
  rw [padded, List.length_append, List.length_replicate]
  omega

/-- A padded number has a digit. -/
theorem padded_ne_nil (width n : Nat) : padded width n ≠ [] :=
  List.append_ne_nil_of_right_ne_nil _ (decimalDigits_ne_nil n)

/-- A padded number starts with a digit. -/
theorem padded_eq_cons (width n : Nat) :
    ∃ c rest, padded width n = c :: rest ∧ c.isDigit = true := by
  -- Even without padding there is a digit.
  obtain ⟨c, rest, digits⟩ := List.exists_cons_of_ne_nil (padded_ne_nil width n)
  exact ⟨c, rest, digits, isDigit_of_mem_padded (digits ▸ List.mem_cons_self (l := rest))⟩

/-- There is no blank in front of a padded number. -/
theorem trimFront_padded (width n : Nat) (rest : List Char) :
    trimFront (padded width n ++ rest) = padded width n ++ rest := by
  -- The first character is a digit, and so no blank.
  obtain ⟨c, others, digits, digit⟩ := padded_eq_cons width n
  rw [digits]
  exact trimFront_cons (isBlank_of_isDigit digit)

/-- Digits are taken as far as they go, or as far as the width goes. -/
theorem takeNumber?_of_digits (nonempty : digits ≠ [])
    (taken : ((digits ++ rest).take width).takeWhile Char.isDigit = digits) :
    takeNumber? width (digits ++ rest) = some (digitsValue digits, rest) := by
  -- Some digits have been taken, and what is behind them is left.
  simp [takeNumber?, taken, nonempty]

/-- A number of the given width is taken, whatever follows it. -/
theorem takeNumber?_padded (positive : 0 < width) (small : n < 10 ^ width) (rest : List Char) :
    takeNumber? width (padded width n ++ rest) = some (n, rest) := by
  -- The width cuts off what follows, so that it does not matter whether that is a digit.
  have taken : ((padded width n ++ rest).take width).takeWhile Char.isDigit = padded width n := by
    rw [List.take_left' (length_padded positive small)]
    exact List.takeWhile_eq_self_iff.mpr fun _ => isDigit_of_mem_padded
  rw [takeNumber?_of_digits (padded_ne_nil width n) taken, digitsValue_padded]

/-- A number of two digits is taken. -/
theorem takePair?_padded (small : n < 100) (rest : List Char) :
    takePair? (padded 2 n ++ rest) = some (n, rest) := by
  -- Two digits hold every number below a hundred.
  rw [takePair?, trimFront_padded, takeNumber?_padded (by decide) small]

/-- A number behind a sign is taken up to the hyphen that follows it. -/
theorem takeLong?_padded (width n : Nat) (rest : List Char) :
    takeLong? (padded width n ++ '-' :: rest) = some (n, '-' :: rest) := by
  -- There is no bound on the digits, so that the hyphen behind them is what ends them.
  have taken : (padded width n ++ '-' :: rest).takeWhile Char.isDigit = padded width n := by
    rw [List.takeWhile_append_of_pos fun _ => isDigit_of_mem_padded]
    exact List.append_nil _
  rw [takeLong?, takeNumber?_of_digits (padded_ne_nil width n) (by rw [List.take_length, taken]),
    digitsValue_padded]

/-- A separator is taken where it is expected. -/
theorem takeMark?_cons {mark : Char} (solid : isBlank mark = false) (rest : List Char) :
    takeMark? mark (mark :: rest) = some rest := by
  -- The mark is no blank, so that nothing is trimmed in front of it.
  rw [takeMark?, trimFront_cons solid]
  exact if_pos rfl

end Digits

/-- A year that starts with a digit has at most four of them. -/
theorem takeYear?_of_digit {c : Char} (digit : c.isDigit = true) (rest : List Char) :
    takeYear? (c :: rest) =
      (takeNumber? 4 (c :: rest)).map fun (year, rest) => ((year : Int), rest) := by
  rw [takeYear?, trimFront_cons (isBlank_of_isDigit digit)]
  -- Neither of the two signs is a digit.
  split
  · rename_i same
    obtain ⟨rfl, -⟩ := List.cons.inj same
    cases digit
  · rename_i same
    obtain ⟨rfl, -⟩ := List.cons.inj same
    cases digit
  · rfl

/-- A year is taken, up to the hyphen that follows it. -/
theorem takeYear?_yearText (year : Int) (rest : List Char) :
    takeYear? (yearText year ++ '-' :: rest) = some (year, '-' :: rest) := by
  unfold yearText
  split_ifs with usual negative
  · -- A year of four digits has no sign.
    have small : year.toNat < 10 ^ 4 := by omega
    have whole : (year.toNat : Int) = year := Int.toNat_of_nonneg usual.1
    have taken := takeNumber?_padded (by decide) small ('-' :: rest)
    obtain ⟨c, others, digits, digit⟩ := padded_eq_cons 4 year.toNat
    rw [digits, List.cons_append] at taken ⊢
    rw [takeYear?_of_digit digit, taken, Option.map_some]
    exact congrArg (fun year => some (year, '-' :: rest)) whole
  · -- Behind a sign all digits belong to the year, up to the hyphen.
    have size : -(year.natAbs : Int) = year := by omega
    rw [List.cons_append, takeYear?, trimFront_cons (by decide)]
    simp only [takeLong?_padded, Option.map_some, size]
  · have size : (year.natAbs : Int) = year := by omega
    rw [List.cons_append, takeYear?, trimFront_cons (by decide)]
    simp only [takeLong?_padded, Option.map_some, size]

/-- A fraction of some digits is taken as that of nine digits. -/
theorem takeFraction?_padded {width n : Nat} (positive : 0 < width) (short : width ≤ 9)
    (small : n < 10 ^ width) :
    takeFraction? ('.' :: (padded width n ++ ['Z'])) = some (10 ^ (9 - width) * n, ['Z']) := by
  have length := length_padded positive small
  -- There are no more digits than the nine that count, so that none of them is ignored.
  have whole : (padded width n ++ ['Z']).dropWhile Char.isDigit = ['Z'] := by
    rw [List.dropWhile_append_of_pos fun _ => isDigit_of_mem_padded]
    rfl
  have taken : ((padded width n ++ ['Z']).take 9).takeWhile Char.isDigit = padded width n := by
    rw [List.take_append, List.take_of_length_le (by omega),
      List.takeWhile_append_of_pos fun _ => isDigit_of_mem_padded]
    -- If there is room for more of nine characters it is not for a digit.
    cases 9 - (padded width n).length <;> exact List.append_nil _
  simp only [takeFraction?, taken, whole, length, digitsValue_append_zeros, digitsValue_padded]
  simp [padded_ne_nil]

/-- The fraction of a second is taken. -/
theorem takeFraction?_fractionText {nano : Nat} (small : nano < nanosPerSecond) :
    takeFraction? (fractionText nano ++ ['Z']) = some (nano, ['Z']) := by
  have bound : nano < 1000000000 := small
  unfold fractionText
  split_ifs with none millis micros
  · rw [none]
    rfl
  -- Otherwise the digits left out are zeros, because they are those of a remainder.
  · rw [List.cons_append, takeFraction?_padded (by decide) (by decide) (by omega)]
    exact congrArg (fun n => some (n, ['Z'])) (by omega)
  · rw [List.cons_append, takeFraction?_padded (by decide) (by decide) (by omega)]
    exact congrArg (fun n => some (n, ['Z'])) (by omega)
  · rw [List.cons_append, takeFraction?_padded (by decide) (by decide) (by omega)]
    exact congrArg (fun n => some (n, ['Z'])) (by omega)

end Stamp

/-- No month has more than thirty-one days. -/
theorem Date.daysIn_le (year : Int) (month : Nat) : daysIn year month ≤ 31 := by
  -- No month has more than 31 days, whatever the year.
  unfold daysIn
  split_ifs <;> decide

/-- An instant has its own parts. -/
theorem Instant.of?_parts (moment : Instant) :
    of? moment.date moment.hour moment.minute moment.second moment.nano = some moment :=
  dif_pos moment.valid

/-- A clock that is not ahead shows the instant itself. -/
theorem Instant.shifted?_zero (moment : Instant) : moment.shifted? 0 = some moment := by
  obtain ⟨-, hours, minutes, -, -⟩ := moment.valid
  have past : ¬ (moment.hour * 60 + moment.minute - 0 : Int) < 0 := by omega
  have today : (moment.hour * 60 + moment.minute - 0 : Int) < 1440 := by omega
  have hour : ((moment.hour * 60 + moment.minute - 0 : Int) / 60).toNat = moment.hour := by omega
  have minute : ((moment.hour * 60 + moment.minute - 0 : Int) % 60).toNat = moment.minute := by omega
  -- The time stays within the day, so that the date stays as well.
  rw [shifted?]
  simp only [if_neg past, if_pos today, hour, minute]
  exact moment.of?_parts

namespace Stamp

/-- An instant is read back from the characters of its time stamp. -/
theorem read?_chars (moment : Instant) : read? (chars moment) = some moment := by
  obtain ⟨⟨-, -, -, months, -, days⟩, hours, minutes, seconds, nanos⟩ := moment.valid
  have short : moment.date.day < 100 := by
    have most := Date.daysIn_le moment.date.year moment.date.month
    omega
  have offset : takeOffset? (trimFront ['Z']) = some (0, []) := by decide
  have complete : ¬ ((!(trimFront []).isEmpty) = true ∨ 1440 ≤ Int.natAbs 0) := by decide
  rw [read?]
  simp only [chars, List.append_assoc, List.cons_append]
  -- Each part is read off the front of what the parts before it have left, first of all the date.
  refine Option.bind_eq_some_iff.mpr ⟨_, takeYear?_yearText _ _, ?_⟩
  refine Option.bind_eq_some_iff.mpr ⟨_, takeMark?_cons (by decide) _, ?_⟩
  refine Option.bind_eq_some_iff.mpr ⟨_, takePair?_padded (by omega) _, ?_⟩
  refine Option.bind_eq_some_iff.mpr ⟨_, takeMark?_cons (by decide) _, ?_⟩
  refine Option.bind_eq_some_iff.mpr ⟨_, takePair?_padded short _, ?_⟩
  -- The letter between date and time is the first of the three that are allowed.
  refine (if_pos (.inl rfl)).trans ?_
  refine Option.bind_eq_some_iff.mpr ⟨_, rfl, ?_⟩
  refine Option.bind_eq_some_iff.mpr ⟨_, takePair?_padded (by omega) _, ?_⟩
  refine Option.bind_eq_some_iff.mpr ⟨_, takeMark?_cons (by decide) _, ?_⟩
  refine Option.bind_eq_some_iff.mpr ⟨_, takePair?_padded (by omega) _, ?_⟩
  refine Option.bind_eq_some_iff.mpr ⟨_, takeMark?_cons (by decide) _, ?_⟩
  refine Option.bind_eq_some_iff.mpr ⟨_, takePair?_padded (by omega) _, ?_⟩
  refine Option.bind_eq_some_iff.mpr ⟨_, takeFraction?_fractionText nanos, ?_⟩
  refine Option.bind_eq_some_iff.mpr ⟨_, offset, ?_⟩
  rw [if_neg complete]
  -- The parts are valid together, since they are those of an instant.
  refine Option.bind_eq_some_iff.mpr ⟨_, moment.of?_parts, ?_⟩
  exact moment.shifted?_zero

end Stamp

/-- An instant is read back from its time stamp. -/
theorem Instant.ofText?_text (moment : Instant) : Instant.ofText? moment.text = some moment := by
  -- The characters of the text are read back in full, with nothing behind them.
  rw [Instant.ofText?, Instant.text, String.toList_ofList, Stamp.read?_chars]

end SchemaLedger
