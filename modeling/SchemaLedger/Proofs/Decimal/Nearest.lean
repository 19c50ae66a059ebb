import Mathlib.Tactic.FieldSimp
import Mathlib.Tactic.LinearCombination
import Mathlib.Tactic.Positivity
import SchemaLedger.Decimal.Nearest
import SchemaLedger.Proofs.Decimal.Binary64

/-! Rounding a fraction gives the one magnitude that the fraction rounds to. -/

namespace SchemaLedger

/-- Rounding a fraction misses it by half a unit at most, and by half a unit only to an even number. -/
theorem roundDiv_spec (num : Nat) {den : Nat} (positive : 0 < den) :
    2 * (roundDiv num den * den) ≤ 2 * num + den ∧ 2 * num ≤ 2 * (roundDiv num den * den) + den ∧
      (2 * (roundDiv num den * den) = 2 * num + den ∨
        2 * num = 2 * (roundDiv num den * den) + den → roundDiv num den % 2 = 0) := by
  have split := Nat.div_add_mod num den
  have small := Nat.mod_lt num positive
  have next : (num / den + 1) * den = den * (num / den) + den := by
    rw [Nat.add_mul, Nat.one_mul, Nat.mul_comm]
  have own : num / den * den = den * (num / den) := Nat.mul_comm _ _
  -- Twice the remainder is compared with the denominator, and the even quotient takes a tie.
  simp only [roundDiv]
  split
  · rw [next]
    omega
  · rw [own]
    omega

/-- A number is a nearest integer to a fraction, and the even one of two. -/
structure RoundsTo (fraction : ℚ) (steps : Nat) : Prop where
  above : 2 * (steps : ℚ) ≤ 2 * fraction + 1
  below : 2 * fraction ≤ 2 * steps + 1
  even : 2 * (steps : ℚ) = 2 * fraction + 1 ∨ 2 * fraction = 2 * (steps : ℚ) + 1 → steps % 2 = 0

/-- A fraction is rounded to its nearest integer. -/
theorem roundsTo_roundDiv (num : Nat) {den : Nat} (positive : 0 < den) :
    RoundsTo (num / den) (roundDiv num den) := by
  obtain ⟨above, below, even⟩ := roundDiv_spec num positive
  have scale : (0 : ℚ) < den := Nat.cast_pos.mpr positive
  -- The fraction gets a name, so that only its product with the denominator is rewritten.
  obtain ⟨fraction, same⟩ : ∃ fraction : ℚ, fraction = num / den := ⟨_, rfl⟩
  have whole : (num : ℚ) = fraction * den := by
    rw [same]
    field_simp
  rw [← same]
  -- The bounds are those of the specification in integers, divided by the denominator.
  have above : 2 * (roundDiv num den * den : ℚ) ≤ 2 * num + den := by exact_mod_cast above
  have below : (2 * num : ℚ) ≤ 2 * (roundDiv num den * den) + den := by exact_mod_cast below
  rw [whole] at above below
  refine ⟨le_of_mul_le_mul_right (by linarith) scale, le_of_mul_le_mul_right (by linarith) scale, ?_⟩
  intro tie
  refine even (tie.imp (fun tie => ?_) fun tie => ?_)
  · have : 2 * (roundDiv num den * den : ℚ) = 2 * num + den := by
      linear_combination tie * den - 2 * whole
    exact_mod_cast this
  · have : (2 * num : ℚ) = 2 * (roundDiv num den * den) + den := by
      linear_combination tie * den + 2 * whole
    exact_mod_cast this

/-- No integer is nearer to a fraction than the one that it rounds to. -/
theorem RoundsTo.least {fraction : ℚ} {steps : Nat} (rounds : RoundsTo fraction steps) (k : ℤ) :
    |(steps : ℚ) - fraction| ≤ |k - fraction| := by
  -- What rounds to an integer is half away at most.
  have half : |(steps : ℚ) - fraction| ≤ 1 / 2 := by
    have := rounds.above
    have := rounds.below
    rw [abs_le]
    constructor <;> linarith
  rcases eq_or_ne k steps with rfl | other
  · simp
  · -- Another integer is at least one away.
    have apart : (1 : ℚ) ≤ |(k - steps : ℚ)| := by
      have := Int.one_le_abs (sub_ne_zero.mpr other)
      exact_mod_cast this
    have between := abs_sub_le (k : ℚ) fraction steps
    rw [abs_sub_comm fraction] at between
    linarith

/-- A power of two is a fraction of which one of the two parts is one. -/
theorem two_zpow (exponent : ℤ) :
    (2 : ℚ) ^ exponent = 2 ^ exponent.toNat / 2 ^ (-exponent).toNat := by
  -- One of the two natural exponents is zero, whichever sign the exponent has.
  obtain nonneg | negative := le_or_gt 0 exponent
  · rw [Int.toNat_of_nonpos (by omega : -exponent ≤ 0), pow_zero, div_one, ← zpow_natCast,
      Int.toNat_of_nonneg nonneg]
  · rw [Int.toNat_of_nonpos negative.le, pow_zero, ← zpow_natCast,
      Int.toNat_of_nonneg (by omega), zpow_neg, one_div, inv_inv]

namespace Binary64

variable {num den : Nat}

/-- The logarithm of a number tells between which powers of two it lies. -/
theorem zpow_log2 {n : Nat} (some : n ≠ 0) :
    (2 : ℚ) ^ (Nat.log2 n : ℤ) ≤ n ∧ (n : ℚ) < 2 ^ (Nat.log2 n + 1 : ℤ) := by
  -- The logarithm is rounded down.
  constructor
  · exact_mod_cast Nat.log2_self_le some
  · exact_mod_cast Nat.lt_log2_self

/-- A fraction is less than two powers of two away from the difference of the logarithms. -/
theorem zpow_estimate (some : num ≠ 0) (positive : 0 < den) {estimate : ℤ}
    (difference : estimate = (Nat.log2 num : ℤ) - Nat.log2 den) :
    (2 : ℚ) ^ (estimate - 1) ≤ num / den ∧ (num / den : ℚ) < 2 ^ (estimate + 1) := by
  have two : (2 : ℚ) ≠ 0 := by norm_num
  have scale : (0 : ℚ) < den := Nat.cast_pos.mpr positive
  obtain ⟨numLow, numHigh⟩ := zpow_log2 some
  obtain ⟨denLow, denHigh⟩ := zpow_log2 positive.ne'
  -- The denominator is moved to the power of two, whose size it has within a factor of two.
  constructor
  · rw [le_div_iff₀ scale]
    calc (2 : ℚ) ^ (estimate - 1) * den
        ≤ 2 ^ (estimate - 1) * 2 ^ (Nat.log2 den + 1 : ℤ) := by gcongr
      _ = 2 ^ (Nat.log2 num : ℤ) := by rw [← zpow_add₀ two]; congr 1; omega
      _ ≤ num := numLow
  · rw [div_lt_iff₀ scale]
    calc (num : ℚ) < 2 ^ (Nat.log2 num + 1 : ℤ) := numHigh
      _ = 2 ^ (estimate + 1) * 2 ^ (Nat.log2 den : ℤ) := by
        rw [← zpow_add₀ two]; congr 1; omega
      _ ≤ 2 ^ (estimate + 1) * den := by gcongr

/-- A fraction is compared with a power of two by multiplying the smaller side. -/
theorem zpow_le_fraction_iff (num : Nat) (positive : 0 < den) (exponent : ℤ) :
    den * Nat.pow 2 exponent.toNat ≤ num * Nat.pow 2 (-exponent).toNat ↔
      (2 : ℚ) ^ exponent ≤ num / den := by
  -- Both sides are multiplied with the denominator, and with the power if it stands below.
  have scale : (0 : ℚ) < den := Nat.cast_pos.mpr positive
  rw [two_zpow, div_le_div_iff₀ (by positivity) scale, mul_comm _ (den : ℚ)]
  norm_cast

/-- The exponent around a fraction leaves it at most 53 bits, and all of them unless it is the
smallest exponent. -/
theorem exponentAround_spec (some : num ≠ 0) (positive : 0 < den) :
    (num / den : ℚ) < 2 ^ (exponentAround num den + 53) ∧ -1074 ≤ exponentAround num den ∧
      (exponentAround num den = -1074 ∨ (2 : ℚ) ^ (exponentAround num den + 52) ≤ num / den) := by
  obtain ⟨low, high⟩ := zpow_estimate some positive rfl
  -- The exponent leaves just 53 bits where it is not the smallest one.
  have full : ∃ exponent : ℤ, exponentAround num den = max exponent (-1074) ∧
      (num / den : ℚ) < 2 ^ (exponent + 53) ∧ (2 : ℚ) ^ (exponent + 52) ≤ num / den := by
    simp only [exponentAround, zpow_le_fraction_iff num positive]
    generalize (Nat.log2 num : ℤ) - Nat.log2 den = estimate at *
    -- The estimate from the lengths may be one too high, which the comparison settles.
    split
    next reached =>
      refine ⟨_, rfl, ?_, ?_⟩
      · rwa [show estimate - 52 + 53 = estimate + 1 by omega]
      · rwa [sub_add_cancel]
    next missed =>
      refine ⟨_, rfl, ?_, ?_⟩
      · rw [sub_add_cancel]
        exact lt_of_not_ge missed
      · rwa [show estimate - 53 + 52 = estimate - 1 by omega]
  obtain ⟨exponent, same, below, above⟩ := full
  rw [same]
  refine ⟨below.trans_le ?_, le_max_right _ _, ?_⟩
  · -- Below the smallest exponent the bound from above is only wider.
    exact zpow_le_zpow_right₀ (by norm_num) (by omega)
  · rcases le_total exponent (-1074) with least | normal
    · exact .inl (max_eq_right least)
    · rw [max_eq_left normal]
      exact .inr above

/-- Above the start of a level, the units next below are one step of the level less. -/
theorem unitsBelow_grid {level steps : Nat} (normal : level = 0 ∨ leadingBit < steps)
    (fits : steps ≤ 2 * leadingBit) :
    unitsBelow (level * leadingBit + steps) = ((steps : ℚ) - 1) * 2 ^ level := by
  rcases Nat.eq_zero_or_pos steps with rfl | positive
  · -- Below the first step of the lowest level lies the number of the other sign.
    obtain rfl : level = 0 := by omega
    simp [unitsBelow]
  · -- Any other step has a step of its own level below it.
    have before : level * leadingBit + steps - 1 = level * leadingBit + (steps - 1) := by omega
    rw [unitsBelow, if_neg (by omega), before, units_grid (by omega) (by omega)]
    push_cast [positive]
    ring

/-- The units next above are at least one step of the level more. -/
theorem units_add_le {level steps : Nat} (normal : level = 0 ∨ leadingBit ≤ steps)
    (fits : steps ≤ 2 * leadingBit) :
    ((steps : ℚ) + 1) * 2 ^ level ≤ units (level * leadingBit + steps + 1) := by
  have here := units_grid normal fits
  -- The next magnitude is a step further, of its own level or of a coarser one.
  have grown : level ≤ levelOf (level * leadingBit + steps) := by
    rw [levelOf]
    simp only [leadingBit] at normal ⊢
    omega
  have power := Nat.pow_le_pow_right (by decide : 0 < 2) grown
  have : (steps + 1) * 2 ^ level ≤ units (level * leadingBit + steps + 1) := by
    rw [units_succ, here]
    linarith
  exact_mod_cast this

/-- A number of steps of a level rounds to a magnitude as it does to an integer. -/
theorem RoundsTo.rounds {count : ℚ} {level steps : Nat} (rounds : RoundsTo count steps)
    (normal : level = 0 ∨ (leadingBit : ℚ) ≤ count) (fits : count < 2 * leadingBit) :
    Rounds (count * 2 ^ level) (level * leadingBit + steps) := by
  obtain ⟨above, below, even⟩ := rounds
  have step : (0 : ℚ) < 2 ^ level := by positivity
  -- The steps stay within their level, up to the start of the next one.
  have most : steps ≤ 2 * leadingBit := by
    have : 2 * (steps : ℚ) < 2 * (2 * leadingBit) + 1 := by linarith
    norm_cast at this
    omega
  have least : level = 0 ∨ leadingBit ≤ steps := normal.imp_right fun normal => by
    have : 2 * (leadingBit : ℚ) ≤ 2 * steps + 1 := by linarith
    norm_cast at this
    omega
  -- A level has an even number of magnitudes, so that parity is that of the steps.
  have parity : steps % 2 = 0 → (level * leadingBit + steps) % 2 = 0 := by
    simp only [leadingBit]
    omega
  have here : (units (level * leadingBit + steps) : ℚ) = steps * 2 ^ level := by
    exact_mod_cast units_grid least most
  have next := units_add_le least most
  have belowScaled := mul_le_mul_of_nonneg_right below step.le
  have aboveScaled := mul_le_mul_of_nonneg_right above step.le
  -- The next magnitude is a step away or more, so that a tie with it is one between two integers.
  have upper : 2 * (count * 2 ^ level) = (steps : ℚ) * 2 ^ level +
      units (level * leadingBit + steps + 1) → steps % 2 = 0 := fun tie =>
    even (.inr (mul_right_cancel₀ step.ne' (le_antisymm belowScaled (by linarith))))
  by_cases inside : level = 0 ∨ leadingBit < steps
  · -- Within a level the magnitude below is a step away too, and ties are ties of integers.
    have previous := unitsBelow_grid inside most
    refine ⟨by rw [previous, here]; linarith, by rw [here]; linarith, ?_⟩
    rw [previous, here]
    rintro (tie | tie)
    · exact parity (even (.inl (mul_right_cancel₀ step.ne' (by linarith))))
    · exact parity (upper tie)
  · -- At the start of a level no smaller count is rounded up, so there is no tie below.
    have previous := unitsBelow_lt (level * leadingBit + steps)
    have start : (steps : ℚ) ≤ count := by
      have : steps = leadingBit := by omega
      exact this ▸ normal.resolve_left (by omega)
    have startScaled := mul_le_mul_of_nonneg_right start step.le
    rw [here] at previous
    refine ⟨by rw [here]; linarith, by rw [here]; linarith, ?_⟩
    rw [here]
    rintro (tie | tie)
    · linarith
    · exact parity (upper tie)

/-- A fraction over a power of two is a fraction again. -/
theorem fraction_div_zpow (num den : Nat) (exponent : ℤ) :
    ((num * Nat.pow 2 (-exponent).toNat : Nat) : ℚ) / (den * Nat.pow 2 exponent.toNat : Nat) =
      num / den / 2 ^ exponent := by
  -- The two natural powers are the parts of the exponent.
  rw [two_zpow, div_div_div_eq]
  simp only [Nat.pow_eq]
  push_cast
  rfl

/-- Exponents are counted as levels from the smallest one, of which the units are made. -/
theorem zpow_mul_unitsInOne {exponent : ℤ} (least : -1074 ≤ exponent) :
    (2 : ℚ) ^ exponent * unitsInOne = 2 ^ (exponent + 1074).toNat := by
  -- The unit is the finest grid, so that the exponents add up to a natural one.
  rw [unitsInOne, ← zpow_natCast, ← zpow_natCast, Int.toNat_of_nonneg (by omega),
    zpow_add₀ (by norm_num)]
  rfl

/-- The magnitude nearest to a fraction is the one that it rounds to, up to infinity. -/
theorem nearestMagnitude_spec (num : Nat) (positive : 0 < den) :
    ∃ magnitude, nearestMagnitude num den = min magnitude infiniteMagnitude ∧
      Rounds (num / den * unitsInOne) magnitude := by
  by_cases none : num = 0
  · -- Zero is its own nearest magnitude.
    refine ⟨0, by simp [nearestMagnitude, none], ?_⟩
    simpa [none] using rounds_units 0
  · obtain ⟨fits, least, normal⟩ := exponentAround_spec none positive
    simp only [nearestMagnitude, if_neg none]
    generalize exponentAround num den = exponent at *
    have two : (2 : ℚ) ≠ 0 := by norm_num
    have power : (0 : ℚ) < 2 ^ exponent := by positivity
    have whole : 0 < den * Nat.pow 2 exponent.toNat := Nat.mul_pos positive (Nat.two_pow_pos _)
    -- What is rounded to an integer is the number of steps at the exponent.
    have rounds := roundsTo_roundDiv (num * Nat.pow 2 (-exponent).toNat) whole
    rw [fraction_div_zpow] at rounds
    -- Counting steps of the level is counting units, each step being many of them.
    have count : (num / den : ℚ) / 2 ^ exponent * 2 ^ (exponent + 1074).toNat =
        num / den * unitsInOne := by
      rw [← zpow_mul_unitsInOne least, ← mul_assoc, div_mul_cancel₀ _ power.ne']
    refine ⟨_, rfl, count ▸ RoundsTo.rounds rounds ?_ ?_⟩
    · refine normal.imp (fun same => by omega) fun normal => ?_
      rw [le_div_iff₀ power]
      calc (leadingBit : ℚ) * 2 ^ exponent = 2 ^ (exponent + 52) := by
            rw [zpow_add₀ two, leadingBit]; norm_num; ring
        _ ≤ num / den := normal
    · rw [div_lt_iff₀ power]
      calc (num / den : ℚ) < 2 ^ (exponent + 53) := fits
        _ = 2 * leadingBit * 2 ^ exponent := by
            rw [zpow_add₀ two, leadingBit]; norm_num; ring

/-- A finite magnitude is nearest to just the fractions that round to it. -/
theorem nearestMagnitude_eq_iff {magnitude : Nat} (positive : 0 < den)
    (finite : magnitude < infiniteMagnitude) :
    nearestMagnitude num den = magnitude ↔ Rounds (num / den * unitsInOne) magnitude := by
  -- A count rounds to one magnitude only, which is the one that is computed.
  obtain ⟨own, same, rounds⟩ := nearestMagnitude_spec num positive
  constructor
  · intro nearest
    obtain rfl : own = magnitude := by omega
    exact rounds
  · intro other
    obtain rfl := rounds.unique other
    omega

end Binary64

end SchemaLedger
