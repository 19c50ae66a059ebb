import SchemaLedger.Proofs.Decimal.Nearest

/-! The nearest floating point number is told by the midpoints to its neighbours. -/

namespace SchemaLedger.Binary64

/-- The finite number nearest to an exact one, and of two nearest ones the one with an even
significand. Numbers from halfway between the greatest finite one and the next power of two have
none. -/
structure IsNearest (x : Binary64) (exact : ℚ) : Prop where
  finite : x.isFinite = true
  bounded : |exact| < 2 ^ 1024 - 2 ^ 970
  least : ∀ y : Binary64, y.isFinite = true → |exact - x.value| ≤ |exact - y.value|
  even : ∀ y : Binary64, y.isFinite = true → y.value ≠ x.value →
    |exact - x.value| = |exact - y.value| → x.significand % 2 = 0

variable {x y : Binary64} {magnitude : Nat} {exact : ℚ}

section Parts

/-- The magnitude that a number is made of. -/
theorem magnitude_ofMagnitude (negative : Bool) (finite : magnitude ≤ infiniteMagnitude) :
    (ofMagnitude negative magnitude).magnitude = magnitude := by
  -- A finite magnitude lies below the sign bit, so that the sign is all that is divided off.
  simp only [Binary64.magnitude, ofMagnitude, UInt64.toNat_ofNat']
  simp only [signBit, infiniteMagnitude, leadingBit] at *
  split <;> omega

/-- The sign that a number is made of. -/
theorem isNegative_ofMagnitude (negative : Bool) (finite : magnitude ≤ infiniteMagnitude) :
    (ofMagnitude negative magnitude).isNegative = negative := by
  -- A finite magnitude cannot reach the sign bit by itself.
  simp only [isNegative, ofMagnitude, UInt64.toNat_ofNat']
  simp only [signBit, infiniteMagnitude, leadingBit] at *
  cases negative <;> simp <;> omega

/-- Every finite magnitude is that of a number with either sign. -/
theorem exists_finite (negative : Bool) (magnitude : Nat) (finite : magnitude < infiniteMagnitude) :
    ∃ y : Binary64, y.isFinite = true ∧ y.isNegative = negative ∧ y.magnitude = magnitude := by
  -- Sign and magnitude are put together and taken apart again without loss.
  have same := magnitude_ofMagnitude negative finite.le
  refine ⟨ofMagnitude negative magnitude, ?_, isNegative_ofMagnitude negative finite.le, same⟩
  rw [isFinite, same]
  exact decide_eq_true finite

/-- The sign is one or minus one. -/
theorem sign_cases (x : Binary64) : x.sign = 1 ∨ x.sign = -1 := by
  -- There is a sign for zero as well.
  rw [sign]
  split <;> simp

/-- The sign undoes itself. -/
theorem sign_mul_self (x : Binary64) : x.sign * x.sign = 1 := by
  -- Both signs are their own inverses.
  rcases sign_cases x with same | same <;> simp [same]

/-- A sign does not change the absolute value. -/
theorem abs_sign_mul (x : Binary64) (a : ℚ) : |x.sign * a| = |a| := by
  -- A sign is as large as one.
  rcases sign_cases x with same | same <;> simp [same]

/-- The denominator is a power of two. -/
theorem denominator_pos (x : Binary64) : 0 < x.denominator := Nat.two_pow_pos _

/-- The fraction of a number is its absolute value. -/
theorem fraction_eq (x : Binary64) :
    (x.numerator / x.denominator : ℚ) = x.significand * 2 ^ x.exponent := by
  -- The exponent is split into the power above the line and the one below it.
  rw [two_zpow, numerator, denominator]
  simp only [Nat.pow_eq]
  push_cast
  ring

/-- A number is its fraction with the sign. -/
theorem value_eq (x : Binary64) : x.value = x.sign * (x.numerator / x.denominator) := by
  -- The fraction is the size of the number, and only the sign is missing.
  rw [fraction_eq, value]

/-- There are smallest units in one. -/
theorem unitsInOne_pos : 0 < unitsInOne := by
  -- It is a power of two.
  rw [unitsInOne]
  positivity

/-- The magnitude bits count the smallest units in the absolute value. -/
theorem fraction_mul_unitsInOne (x : Binary64) :
    (x.numerator / x.denominator : ℚ) * unitsInOne = units x.magnitude := by
  -- The unit has the exponent of the finest grid, from which the levels are counted.
  have level : x.exponent = (levelOf x.magnitude : ℤ) - 1074 := by
    rw [exponent, levelOf]
    omega
  have power : (2 : ℚ) ^ x.exponent * unitsInOne = 2 ^ levelOf x.magnitude := by
    rw [level, zpow_mul_unitsInOne (by omega), sub_add_cancel, Int.toNat_natCast]
  rw [fraction_eq, mul_assoc, power, units]
  push_cast
  rfl

/-- A significand is even where the magnitude bits are. -/
theorem significand_even_iff (x : Binary64) : x.significand % 2 = 0 ↔ x.magnitude % 2 = 0 := by
  -- Whole levels are even, so that the lowest bit belongs to the significand.
  obtain ⟨same, -, -⟩ := magnitude_eq x.magnitude
  have own : x.significand = significandOf x.magnitude := rfl
  rw [own]
  simp only [leadingBit] at same
  omega

end Parts

section Distance

/-- Of two numbers, the greater one is at most as far away from the midpoint on. -/
theorem nearer_iff {low high count : ℚ} (less : low < high) :
    |count - high| ≤ |count - low| ↔ low + high ≤ 2 * count := by
  -- The midpoint separates the counts nearer to the one from those nearer to the other.
  rcases abs_cases (count - high) with ⟨one, _⟩ | ⟨one, _⟩ <;>
    rcases abs_cases (count - low) with ⟨two, _⟩ | ⟨two, _⟩ <;>
    rw [one, two] <;> constructor <;> intro <;> linarith

/-- Of two numbers, the smaller one is at most as far away up to the midpoint. -/
theorem nearer_iff' {low high count : ℚ} (less : low < high) :
    |count - low| ≤ |count - high| ↔ 2 * count ≤ low + high := by
  -- As above, with the two sides exchanged.
  rcases abs_cases (count - high) with ⟨one, _⟩ | ⟨one, _⟩ <;>
    rcases abs_cases (count - low) with ⟨two, _⟩ | ⟨two, _⟩ <;>
    rw [one, two] <;> constructor <;> intro <;> linarith

/-- An exact number in smallest units, counted in the direction of a floating point number. -/
def unitsAlong (x : Binary64) (exact : ℚ) : ℚ := x.sign * exact * unitsInOne

/-- The units of a floating point number are those of its magnitude, with both signs. -/
theorem unitsAlong_value (x y : Binary64) :
    x.unitsAlong y.value = x.sign * y.sign * units y.magnitude := by
  -- A value is its size in units, with the sign of its own.
  rw [unitsAlong, value_eq, ← fraction_mul_unitsInOne]
  ring

/-- A number with the same sign counts all its units. -/
theorem unitsAlong_of_isNegative_eq (same : y.isNegative = x.isNegative) :
    x.unitsAlong y.value = units y.magnitude := by
  -- Two equal signs cancel.
  rw [unitsAlong_value, show y.sign = x.sign by rw [sign, sign, same], sign_mul_self, one_mul]

/-- Units keep distances, up to their size. -/
theorem abs_unitsAlong_sub (x : Binary64) (one other : ℚ) :
    |x.unitsAlong one - x.unitsAlong other| = |one - other| * unitsInOne := by
  -- Counting in units stretches distances, and the direction of counting does not matter.
  rw [unitsAlong, unitsAlong, ← sub_mul, ← mul_sub, abs_mul, abs_sign_mul, abs_of_pos unitsInOne_pos]

/-- Numbers with the same units are equal. -/
theorem unitsAlong_inj {one other : ℚ} : x.unitsAlong one = x.unitsAlong other ↔ one = other := by
  -- Neither the scale nor the sign is zero.
  rw [unitsAlong, unitsAlong, mul_left_inj' unitsInOne_pos.ne']
  rcases sign_cases x with same | same <;> simp [same]

/-- No number lies between a number and its neighbours. -/
theorem unitsAlong_cases (x y : Binary64) :
    y.value = x.value ∨ x.unitsAlong y.value ≤ unitsBelow x.magnitude ∨
      (units (x.magnitude + 1) : ℚ) ≤ x.unitsAlong y.value := by
  rw [← unitsAlong_inj (x := x), unitsAlong_of_isNegative_eq rfl]
  by_cases same : y.isNegative = x.isNegative
  · -- On the same side of zero the order of magnitudes decides.
    rw [unitsAlong_of_isNegative_eq same]
    rcases Nat.lt_trichotomy y.magnitude x.magnitude with less | same | more
    · exact .inr (.inl (units_le_unitsBelow less))
    · exact .inl (by rw [same])
    · exact .inr (.inr (units_succ_le more))
  · -- Numbers on the other side of zero are at or beyond the neighbour below, unless both are zero.
    have opposite : x.unitsAlong y.value = -units y.magnitude := by
      rw [unitsAlong_value, sign, sign]
      cases hx : x.isNegative <;> cases hy : y.isNegative <;> simp_all
    rw [opposite]
    rcases Nat.eq_zero_or_pos x.magnitude with zero | positive
    · rcases Nat.eq_zero_or_pos y.magnitude with also | further
      · exact .inl (by simp [zero, also])
      · have one := units_succ_le further
        rw [Nat.zero_add, units_one, Nat.cast_one] at one
        exact .inr (.inl (by rw [zero, unitsBelow, if_pos rfl]; linarith))
    · have below := units_le_unitsBelow positive
      rw [units_zero, Nat.cast_zero] at below
      have nonneg : (0 : ℚ) ≤ units y.magnitude := Nat.cast_nonneg _
      exact .inr (.inl (by linarith))

/-- A finite number has a finite neighbour below. -/
theorem exists_below (finite : x.isFinite = true) :
    ∃ y : Binary64, y.isFinite = true ∧ x.unitsAlong y.value = unitsBelow x.magnitude := by
  have most : x.magnitude < infiniteMagnitude := of_decide_eq_true finite
  rcases Nat.eq_zero_or_pos x.magnitude with zero | positive
  · -- Below zero comes the least number of the other sign.
    obtain ⟨y, also, opposite, same⟩ := exists_finite (!x.isNegative) 1 (by decide)
    refine ⟨y, also, ?_⟩
    rw [unitsAlong_value, sign, sign, opposite, same, units_one, zero, unitsBelow, if_pos rfl]
    cases x.isNegative <;> norm_num
  · -- Elsewhere the next smaller magnitude is finite too.
    obtain ⟨y, also, alike, same⟩ :=
      exists_finite x.isNegative (x.magnitude - 1) (by omega)
    exact ⟨y, also, by rw [unitsAlong_of_isNegative_eq alike, same, unitsBelow, if_neg (by omega)]⟩

/-- A finite number has a finite neighbour above, or is the greatest one. -/
theorem exists_above (finite : x.isFinite = true) :
    x.magnitude + 1 = infiniteMagnitude ∨
      ∃ y : Binary64, y.isFinite = true ∧ x.unitsAlong y.value = units (x.magnitude + 1) := by
  -- The next magnitude is finite, unless this one is the greatest.
  have most : x.magnitude < infiniteMagnitude := of_decide_eq_true finite
  rcases Nat.lt_or_ge (x.magnitude + 1) infiniteMagnitude with less | last
  · obtain ⟨y, also, alike, same⟩ := exists_finite x.isNegative _ less
    exact .inr ⟨y, also, by rw [unitsAlong_of_isNegative_eq alike, same]⟩
  · exact .inl (by omega)

end Distance

section Nearest

/-- Powers of two with the same sum of exponents have the same product. -/
theorem two_pow_mul {a b c d : Nat} (same : a + b = c + d) : (2 : ℚ) ^ a * 2 ^ b = 2 ^ c * 2 ^ d := by
  -- Only the sum of the exponents counts.
  rw [← pow_add, ← pow_add, same]

/-- Infinite magnitude bits count a power of two, which no finite number reaches. -/
theorem units_infiniteMagnitude : (units infiniteMagnitude : ℚ) = 2 ^ 1024 * unitsInOne := by
  -- Infinity stands where the level behind the last one starts.
  have grid : units (2046 * leadingBit + leadingBit) = leadingBit * 2 ^ 2046 :=
    units_grid (.inr le_rfl) (by decide)
  have parts : 2046 * leadingBit + leadingBit = infiniteMagnitude := by decide
  rw [parts] at grid
  rw [grid, unitsInOne, show leadingBit = 2 ^ 52 by decide, Nat.cast_mul, Nat.cast_pow, Nat.cast_pow]
  exact two_pow_mul (by decide)

/-- The greatest finite number is one step below. -/
theorem units_greatest :
    (units (infiniteMagnitude - 1) : ℚ) = (2 ^ 1024 - 2 ^ 971) * unitsInOne := by
  -- From the greatest number it is one step of its level to where infinity begins.
  have next := units_succ (infiniteMagnitude - 1)
  have level : levelOf (infiniteMagnitude - 1) = 2045 := by decide
  have again : infiniteMagnitude - 1 + 1 = infiniteMagnitude := by decide
  rw [level, again] at next
  have step : ((2 ^ 2045 : Nat) : ℚ) = 2 ^ 971 * unitsInOne := by
    rw [unitsInOne, Nat.cast_pow, ← mul_one ((_ : ℚ) ^ 2045), ← pow_zero (2 : ℚ)]
    exact two_pow_mul (by decide)
  have total := units_infiniteMagnitude
  rw [next, Nat.cast_add, step] at total
  rw [sub_mul, ← total, add_sub_cancel_right]

/-- The bound of rounding is the midpoint between the greatest finite number and infinity. -/
theorem overflow_units :
    2 * ((2 ^ 1024 - 2 ^ 970) * unitsInOne) =
      units (infiniteMagnitude - 1) + units infiniteMagnitude := by
  -- Half a step of the greatest level lies between the two.
  rw [units_infiniteMagnitude, units_greatest, show (2 : ℚ) ^ 971 = 2 * 2 ^ 970 from pow_succ' 2 970]
  generalize (2 : ℚ) ^ 1024 = power
  generalize (2 : ℚ) ^ 970 = half
  ring

/-- What rounds to any magnitude is not further below zero than half a unit. -/
theorem Rounds.lower {count : ℚ} (rounds : Rounds count magnitude) : -1 ≤ 2 * count := by
  -- The bound below is at least half a unit under zero, for zero itself.
  refine le_trans ?_ rounds.above
  rw [unitsBelow]
  have here : (0 : ℚ) ≤ units magnitude := Nat.cast_nonneg _
  have below : (0 : ℚ) ≤ units (magnitude - 1) := Nat.cast_nonneg _
  split <;> linarith

/-- What rounds to a finite magnitude stays within the bound of rounding. -/
theorem Rounds.abs_lt {count : ℚ} (rounds : Rounds count magnitude)
    (finite : magnitude < infiniteMagnitude) :
    2 * |count| < units (infiniteMagnitude - 1) + units infiniteMagnitude := by
  -- The finite magnitudes end before infinity, and so do their neighbours.
  have last : (units magnitude : ℚ) ≤ units (infiniteMagnitude - 1) := by
    exact_mod_cast units_strictMono.monotone (by omega)
  have next : (units (magnitude + 1) : ℚ) ≤ units infiniteMagnitude := by
    exact_mod_cast units_strictMono.monotone finite
  have nonneg : (0 : ℚ) ≤ units (infiniteMagnitude - 1) := Nat.cast_nonneg _
  have one : (units 1 : ℚ) < units infiniteMagnitude :=
    Nat.cast_lt.mpr (units_strictMono (by decide))
  rw [units_one, Nat.cast_one] at one
  have upper : 2 * count < units (infiniteMagnitude - 1) + units infiniteMagnitude := by
    refine lt_of_le_of_ne (rounds.below.trans (add_le_add last next)) fun tie => ?_
    -- The midpoint to infinity is no tie, as the greatest finite magnitude is odd.
    have even := rounds.even (.inr (by linarith [rounds.below]))
    have same : (units magnitude : ℚ) = units (infiniteMagnitude - 1) := by linarith [rounds.below]
    rw [units_strictMono.injective (Nat.cast_injective same)] at even
    exact absurd even (by decide)
  have lower := rounds.lower
  rcases abs_cases count with ⟨same, _⟩ | ⟨same, _⟩ <;> rw [same] <;> linarith

/-- The bound of rounding in units. -/
theorem bounded_iff (x : Binary64) (exact : ℚ) :
    |exact| < 2 ^ 1024 - 2 ^ 970 ↔ 2 * |x.unitsAlong exact| <
      units (infiniteMagnitude - 1) + units infiniteMagnitude := by
  -- The bound on exact numbers is the midpoint before infinity, counted in units.
  rw [← overflow_units, unitsAlong, abs_mul, abs_sign_mul, abs_of_pos unitsInOne_pos,
    mul_lt_mul_iff_right₀ two_pos, mul_lt_mul_iff_left₀ unitsInOne_pos]

/-- Distances are compared as those of the units. -/
theorem distance_le_iff (x : Binary64) {one other : ℚ} :
    |exact - one| ≤ |exact - other| ↔
      |x.unitsAlong exact - x.unitsAlong one| ≤ |x.unitsAlong exact - x.unitsAlong other| := by
  -- Counting in units stretches both distances alike.
  rw [abs_unitsAlong_sub, abs_unitsAlong_sub, mul_le_mul_iff_left₀ unitsInOne_pos]

/-- An exact number rounds to the magnitude of the number nearest to it. -/
theorem IsNearest.rounds (nearest : x.IsNearest exact) :
    Rounds (x.unitsAlong exact) x.magnitude := by
  obtain ⟨finite, bounded, least, even⟩ := nearest
  have low := unitsBelow_lt x.magnitude
  have high := units_lt_succ x.magnitude
  have own := unitsAlong_of_isNegative_eq (x := x) rfl
  obtain ⟨below, finiteBelow, alongBelow⟩ := exists_below finite
  -- Being as near as a neighbour or nearer is being on the near side of the midpoint to it.
  have notBelow := (distance_le_iff x).mp (least below finiteBelow)
  rw [own, alongBelow, nearer_iff low] at notBelow
  -- A tie with the neighbour is a second nearest number, so that this one has to be even.
  have evenBelow (tie : 2 * x.unitsAlong exact = unitsBelow x.magnitude + units x.magnitude) :
      x.magnitude % 2 = 0 := by
    refine x.significand_even_iff.mp (even below finiteBelow ?_ (le_antisymm (least _ finiteBelow) ?_))
    · rw [ne_eq, ← unitsAlong_inj, alongBelow, own]
      exact low.ne
    · rw [distance_le_iff x, alongBelow, own]
      exact (nearer_iff' low).mpr tie.le
  rcases exists_above finite with last | ⟨above, finiteAbove, alongAbove⟩
  · -- The greatest number has no finite neighbour above, only the bound of rounding.
    have inside := (bounded_iff x exact).mp bounded
    rw [show infiniteMagnitude - 1 = x.magnitude by omega, ← last] at inside
    have := le_abs_self (x.unitsAlong exact)
    exact ⟨notBelow, by linarith, fun tie => evenBelow (tie.resolve_right (by linarith))⟩
  · -- The neighbour above is finite, and is treated as the one below.
    have notAbove := (distance_le_iff x).mp (least above finiteAbove)
    rw [own, alongAbove, nearer_iff' high] at notAbove
    refine ⟨notBelow, notAbove, fun tie => tie.elim evenBelow fun tie => ?_⟩
    refine x.significand_even_iff.mp (even above finiteAbove ?_ (le_antisymm (least _ finiteAbove) ?_))
    · rw [ne_eq, ← unitsAlong_inj, alongAbove, own]
      exact high.ne'
    · rw [distance_le_iff x, alongAbove, own]
      exact (nearer_iff high).mpr tie.ge

/-- A finite number is nearest to just the exact numbers that round to its magnitude. -/
theorem isNearest_iff (finite : x.isFinite = true) :
    x.IsNearest exact ↔ Rounds (x.unitsAlong exact) x.magnitude := by
  refine ⟨IsNearest.rounds, fun rounds => ?_⟩
  have inside := (bounded_iff x exact).mpr (rounds.abs_lt (of_decide_eq_true finite))
  have own := unitsAlong_of_isNegative_eq (x := x) rfl
  have low := unitsBelow_lt x.magnitude
  have high := units_lt_succ x.magnitude
  obtain ⟨notBelow, notAbove, even⟩ := rounds
  -- Every other number is a neighbour or beyond one, and so behind a midpoint.
  refine ⟨finite, inside, fun y _ => ?_, fun y _ other tie => x.significand_even_iff.mpr (even ?_)⟩
  · rcases unitsAlong_cases x y with same | below | above
    · rw [same]
    · rw [distance_le_iff x, own]
      exact (nearer_iff (by linarith)).mpr (by linarith)
    · rw [distance_le_iff x, own]
      exact (nearer_iff' (by linarith)).mpr (by linarith)
  · -- A number at the same distance is one of the neighbours.
    have tie := (distance_le_iff x).mp tie.ge
    rw [own] at tie
    rcases unitsAlong_cases x y with same | below | above
    · exact absurd same other
    · have := (nearer_iff' (by linarith)).mp tie
      exact .inl (by linarith)
    · have := (nearer_iff (by linarith)).mp tie
      exact .inr (by linarith)

/-- What is at most half a unit rounds to nothing else than zero. -/
theorem Rounds.eq_zero {count : ℚ} (rounds : Rounds count magnitude) (small : 2 * count ≤ 1) :
    magnitude = 0 := by
  obtain ⟨above, -, even⟩ := rounds
  refine Nat.eq_zero_of_not_pos fun positive => ?_
  -- A positive magnitude would have zero or more below it.
  have below := units_le_unitsBelow positive
  have some : (units 0 : ℚ) < units magnitude := Nat.cast_lt.mpr (units_strictMono positive)
  rw [units_zero, Nat.cast_zero] at below some
  have one : (1 : ℚ) ≤ units magnitude := by exact_mod_cast some
  -- Half a unit is a tie between zero and the smallest number, which is odd.
  have tie := even (.inl (by linarith))
  have same : (units magnitude : ℚ) = (units 1 : Nat) := by
    rw [units_one, Nat.cast_one]
    linarith
  rw [units_strictMono.injective (Nat.cast_injective same)] at tie
  exact absurd tie (by decide)

/-- An exact number has one nearest number, up to the sign of zero. -/
theorem IsNearest.unique (one : x.IsNearest exact) (other : y.IsNearest exact) :
    x.value = y.value := by
  have here := one.rounds
  have there := other.rounds
  rw [← unitsAlong_inj (x := x), unitsAlong_of_isNegative_eq rfl]
  by_cases same : y.isNegative = x.isNegative
  · -- On one side of zero two magnitudes to which a count rounds are the same.
    have alike : y.unitsAlong exact = x.unitsAlong exact := by
      rw [unitsAlong, unitsAlong, sign, sign, same]
    rw [unitsAlong_of_isNegative_eq same, here.unique (alike ▸ there)]
  · -- Only within half a unit of zero does a number round to both sides.
    have opposite : y.unitsAlong exact = -x.unitsAlong exact := by
      rw [unitsAlong, unitsAlong, sign, sign]
      cases hx : x.isNegative <;> cases hy : y.isNegative <;> simp_all
    have first := here.lower
    have second := there.lower
    rw [unitsAlong_value, here.eq_zero (by linarith), there.eq_zero (by linarith), units_zero,
      Nat.cast_zero, mul_zero]

/-- A finite number is nearest to itself. -/
theorem isNearest_value (finite : x.isFinite = true) : x.IsNearest x.value := by
  -- No finite number is nearer to a value than the number itself.
  rw [isNearest_iff finite, unitsAlong_of_isNegative_eq rfl]
  exact rounds_units x.magnitude

/-- The magnitude nearest to a fraction makes the number nearest to the fraction with its sign. -/
theorem isNearest_fraction_iff (finite : x.isFinite = true) (num : Nat) {den : Nat}
    (positive : 0 < den) :
    x.IsNearest (x.sign * (num / den)) ↔ nearestMagnitude num den = x.magnitude := by
  -- Along the number its own sign is lost, and what is left is a fraction of magnitudes.
  rw [isNearest_iff finite, nearestMagnitude_eq_iff positive (of_decide_eq_true finite),
    unitsAlong, ← mul_assoc, sign_mul_self, one_mul]

/-- What rounding a signed fraction gives is the nearest number, unless it is infinite. -/
theorem isNearest_nearest (negative : Bool) (num : Nat) {den : Nat} (positive : 0 < den)
    (finite : (nearest negative num den).isFinite = true) :
    (nearest negative num den).IsNearest ((if negative then -1 else 1) * (num / den)) := by
  -- What is rounded to is finite or just infinite, so that the sign stays readable.
  have most : nearestMagnitude num den ≤ infiniteMagnitude := by
    obtain ⟨own, same, -⟩ := nearestMagnitude_spec num positive
    omega
  have side : (if negative then -1 else 1 : ℚ) = (nearest negative num den).sign := by
    rw [sign, nearest, isNegative_ofMagnitude negative most]
  rw [side, isNearest_fraction_iff finite num positive]
  exact (magnitude_ofMagnitude negative most).symm

end Nearest

end SchemaLedger.Binary64
