import SchemaLedger.Decimal.Shortest
import SchemaLedger.Proofs.Decimal.Rounding

/-! If any number with few decimal places rounds to a floating point number, the nearest one does. -/

namespace SchemaLedger.Binary64

variable {count gap : ℚ} {magnitude places : Nat} {x : Binary64}

/-- The units next below are within one step of the level. -/
theorem units_le_add (magnitude : Nat) :
    (units magnitude : ℚ) ≤ unitsBelow magnitude + 2 ^ levelOf magnitude := by
  rw [unitsBelow]
  split
  next zero => simp [zero, levelOf]
  next positive =>
    have step := units_succ (magnitude - 1)
    rw [Nat.sub_add_cancel (Nat.one_le_iff_ne_zero.mpr positive)] at step
    -- The level below is the same or the one before, and its step is no larger.
    have lower : levelOf (magnitude - 1) ≤ levelOf magnitude :=
      Nat.sub_le_sub_right (Nat.div_le_div_right (Nat.sub_le magnitude 1)) 1
    have power := Nat.pow_le_pow_right (by decide : 0 < 2) lower
    have : units magnitude ≤ units (magnitude - 1) + 2 ^ levelOf magnitude := by omega
    exact_mod_cast this

/-- What rounds to a magnitude is within half a step of its level. -/
theorem Rounds.close (rounds : Rounds count magnitude) :
    2 * |count - units magnitude| ≤ 2 ^ levelOf magnitude := by
  -- On either side the count ends halfway to the neighbour, which is at most one step away.
  have below := units_le_add magnitude
  have above : (units (magnitude + 1) : ℚ) = units magnitude + 2 ^ levelOf magnitude := by
    exact_mod_cast units_succ magnitude
  have low := rounds.above
  have high := rounds.below
  rcases abs_cases (count - units magnitude) with ⟨same, _⟩ | ⟨same, _⟩ <;> rw [same] <;> linarith

/-- Between two equally distant neighbours, only the distance decides what rounds to a magnitude. -/
theorem rounds_iff_of_symmetric (below : unitsBelow magnitude = units magnitude - gap)
    (above : (units (magnitude + 1) : ℚ) = units magnitude + gap) :
    Rounds count magnitude ↔ 2 * |count - units magnitude| ≤ gap ∧
      (2 * |count - units magnitude| = gap → magnitude % 2 = 0) := by
  -- With neighbours equally far on both sides the interval is a distance, and its ends are ties.
  constructor
  · rintro ⟨low, high, even⟩
    rw [below, above] at even
    rw [below] at low
    rw [above] at high
    rcases abs_cases (count - units magnitude) with ⟨same, _⟩ | ⟨same, _⟩ <;> rw [same]
    · exact ⟨by linarith, fun tie => even (.inr (by linarith))⟩
    · exact ⟨by linarith, fun tie => even (.inl (by linarith))⟩
  · rintro ⟨close, even⟩
    -- The distance bounds the difference on both sides.
    have most := le_abs_self (count - units magnitude)
    have least := neg_abs_le (count - units magnitude)
    refine ⟨by rw [below]; linarith, by rw [above]; linarith, fun tie => even ?_⟩
    rw [below, above] at tie
    rcases tie with tie | tie <;> linarith

/-- A multiple that is less than what it is a multiple of is zero. -/
theorem eq_zero_of_multiple {part whole : ℚ} {k : ℤ} (multiple : part = whole * k)
    (less : |part| < whole) : part = 0 := by
  -- An integer of size less than one is zero.
  have positive : 0 < whole := (abs_nonneg part).trans_lt less
  have small : |(k : ℚ)| < 1 := by
    rwa [multiple, abs_mul, abs_of_pos positive, mul_lt_iff_lt_one_right positive] at less
  have none : k = 0 := Int.abs_lt_one_iff.mp (by exact_mod_cast small)
  rw [multiple, none, Int.cast_zero, mul_zero]

/-- A power of two is a number with few decimal places where any such number rounds to it: the other
ones are too far away. -/
theorem exists_exact {k : ℤ} (fine : 10 ^ places ≤ leadingBit)
    (start : significandOf magnitude = leadingBit)
    (rounds : Rounds (k / 10 ^ places * unitsInOne) magnitude) :
    ∃ exact : ℤ, exact / 10 ^ places * unitsInOne = units magnitude := by
  -- At the start of its level the magnitude is a power of two.
  have power : units magnitude = 2 ^ (52 + levelOf magnitude) := by
    rw [units, start, show leadingBit = 2 ^ 52 by decide, pow_add]
  have scale : (0 : ℚ) < 10 ^ places := by positivity
  rcases Nat.le_total 1074 (52 + levelOf magnitude) with whole | fraction
  · -- It is an integer.
    refine ⟨10 ^ places * 2 ^ (52 + levelOf magnitude - 1074), ?_⟩
    rw [power, unitsInOne]
    push_cast
    rw [mul_div_cancel_left₀ _ scale.ne', ← pow_add, Nat.sub_add_cancel whole]
  · -- It divides all that is counted, so that what is within a step of it is nothing else.
    refine ⟨k, ?_⟩
    obtain ⟨rest, split⟩ := Nat.exists_eq_add_of_le fraction
    have one : unitsInOne = units magnitude * 2 ^ rest := by
      rw [unitsInOne, split, pow_add, power]
      push_cast
      rfl
    have multiple : (k / 10 ^ places * unitsInOne - units magnitude) * 10 ^ places =
        units magnitude * ((k * 2 ^ rest - 10 ^ places : ℤ) : ℚ) := by
      rw [one]
      push_cast
      field_simp
    have size : (10 ^ places * 2 ^ levelOf magnitude : ℚ) ≤ units magnitude := by
      rw [units, start]
      exact_mod_cast Nat.mul_le_mul_right _ fine
    -- What rounds to it is less than a step away, and so less than a multiple of it.
    have less : |(k / 10 ^ places * unitsInOne - units magnitude) * 10 ^ places| <
        units magnitude := by
      have step : (0 : ℚ) < 2 ^ levelOf magnitude := by positivity
      have close : |k / 10 ^ places * unitsInOne - units magnitude| < 2 ^ levelOf magnitude := by
        have half := rounds.close
        have nonneg := abs_nonneg (k / 10 ^ places * unitsInOne - units magnitude)
        linarith
      calc |(k / 10 ^ places * unitsInOne - units magnitude) * 10 ^ places|
          = |k / 10 ^ places * unitsInOne - units magnitude| * 10 ^ places := by
            rw [abs_mul, abs_of_pos scale]
        _ < 2 ^ levelOf magnitude * 10 ^ places := mul_lt_mul_of_pos_right close scale
        _ ≤ units magnitude := by rwa [mul_comm]
    have none := eq_zero_of_multiple multiple less
    exact sub_eq_zero.mp ((mul_eq_zero.mp none).resolve_right scale.ne')

/-- If any number with few decimal places rounds to a magnitude, so does one nearest to it. -/
theorem Rounds.of_least {k steps : ℤ} (fine : 10 ^ places ≤ leadingBit)
    (rounds : Rounds (k / 10 ^ places * unitsInOne) magnitude)
    (least : ∀ other : ℤ, |steps / 10 ^ places * unitsInOne - units magnitude| ≤
      |other / 10 ^ places * unitsInOne - units magnitude|) :
    Rounds (steps / 10 ^ places * unitsInOne) magnitude := by
  obtain ⟨parts, fits, normal⟩ := magnitude_eq magnitude
  by_cases start : significandOf magnitude = leadingBit
  · -- Where a level starts, the neighbours differ in distance, but the number itself is hit.
    obtain ⟨exact, same⟩ := exists_exact fine start rounds
    have none := least exact
    rw [same, sub_self, abs_zero, abs_nonpos_iff, sub_eq_zero] at none
    rw [none]
    exact rounds_units magnitude
  · -- Elsewhere both neighbours are equally distant.
    have below : unitsBelow magnitude = units magnitude - 2 ^ levelOf magnitude := by
      conv_lhs => rw [parts, unitsBelow_grid (by omega) fits.le]
      rw [units]
      push_cast
      ring
    have above : (units (magnitude + 1) : ℚ) = units magnitude + 2 ^ levelOf magnitude := by
      exact_mod_cast units_succ magnitude
    rw [rounds_iff_of_symmetric below above] at rounds ⊢
    have nearer := least k
    exact ⟨by linarith, fun tie => rounds.2 (by linarith)⟩

/-- The steps of a fixed number of decimal places are nearest to the absolute value. -/
theorem fixedSteps_least (x : Binary64) (places : Nat) (k : ℤ) :
    |(x.fixedSteps places : ℤ) / 10 ^ places * unitsInOne - units x.magnitude| ≤
      |k / 10 ^ places * unitsInOne - units x.magnitude| := by
  -- The steps are the integer nearest to the scaled fraction.
  have rounds := roundsTo_roundDiv (x.numerator * Nat.pow 10 places) x.denominator_pos
  have scale : (0 : ℚ) < 10 ^ places := by positivity
  have steps : ((x.numerator * Nat.pow 10 places : Nat) : ℚ) / x.denominator =
      x.numerator / x.denominator * 10 ^ places := by
    rw [Nat.pow_eq]
    push_cast
    ring
  rw [steps] at rounds
  -- Distances in units are distances in steps, stretched by one factor.
  have size (other : ℤ) : |other / 10 ^ places * unitsInOne - units x.magnitude| =
      |(other : ℚ) - x.numerator / x.denominator * 10 ^ places| * (unitsInOne / 10 ^ places) := by
    have step := div_pos unitsInOne_pos scale
    rw [← fraction_mul_unitsInOne, ← abs_of_pos step, ← abs_mul]
    congr 1
    field_simp
  rw [size, size]
  exact mul_le_mul_of_nonneg_right (rounds.least k) (div_pos unitsInOne_pos scale).le

/-- A number with few decimal places is nearest to itself just if it is nearest to any number with
as many. -/
theorem isNearest_fixedSteps_iff (finite : x.isFinite = true) (fine : 10 ^ places ≤ leadingBit) :
    x.IsNearest (x.sign * (x.fixedSteps places / 10 ^ places)) ↔
      ∃ k : ℤ, x.IsNearest (k / 10 ^ places) := by
  -- A sign in front of a number of steps changes that number only.
  have along (k : ℤ) : ∃ other : ℤ, x.sign * (k / 10 ^ places) = other / 10 ^ places := by
    rcases sign_cases x with same | same
    · exact ⟨k, by rw [same, one_mul]⟩
    · exact ⟨-k, by rw [same]; push_cast; ring⟩
  constructor
  · intro nearest
    obtain ⟨k, same⟩ := along (x.fixedSteps places)
    exact ⟨k, same ▸ nearest⟩
  · -- If any number of steps rounds to the number, so does the one that lies nearest.
    rintro ⟨k, nearest⟩
    obtain ⟨other, same⟩ := along k
    have rounds := nearest.rounds
    rw [unitsAlong, same] at rounds
    rw [isNearest_iff finite, unitsAlong, ← mul_assoc, sign_mul_self, one_mul]
    exact rounds.of_least fine (fixedSteps_least x places)

end SchemaLedger.Binary64
