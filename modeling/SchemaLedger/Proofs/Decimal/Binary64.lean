import Mathlib.Algebra.Order.Field.Power
import Mathlib.Algebra.Order.Field.Rat
import Mathlib.Tactic.Linarith
import Mathlib.Tactic.Ring
import SchemaLedger.Decimal.Binary64

/-! Finite numbers are multiples of the smallest positive one, ordered as their magnitude bits are. -/

namespace SchemaLedger.Binary64

/-- The sign of a number as a factor. -/
def sign (x : Binary64) : ℚ := if x.isNegative then -1 else 1

/-- The exact number that finite bits stand for. -/
def value (x : Binary64) : ℚ := x.sign * (x.significand * 2 ^ x.exponent)

/-- The significand of a number with given magnitude bits. -/
def significandOf (magnitude : Nat) : Nat :=
  if magnitude / leadingBit = 0 then magnitude else magnitude % leadingBit + leadingBit

/-- The exponent of a number with given magnitude bits, above the smallest exponent. -/
def levelOf (magnitude : Nat) : Nat := magnitude / leadingBit - 1

/-- The absolute value of a number with given magnitude bits, in units of the smallest one. -/
def units (magnitude : Nat) : Nat := significandOf magnitude * 2 ^ levelOf magnitude

/-- The number of smallest units in one. -/
def unitsInOne : ℚ := 2 ^ 1074

/-- Nothing has no units. -/
@[simp] theorem units_zero : units 0 = 0 := rfl

/-- The smallest positive number is the unit. -/
@[simp] theorem units_one : units 1 = 1 := rfl

/-- Magnitude bits consist of a level and a significand, which fits its bits and has the leading one
above the smallest exponent. -/
theorem magnitude_eq (magnitude : Nat) :
    magnitude = levelOf magnitude * leadingBit + significandOf magnitude ∧
      significandOf magnitude < 2 * leadingBit ∧
      (levelOf magnitude = 0 ∨ leadingBit ≤ significandOf magnitude) := by
  rw [levelOf, significandOf]
  -- Only the lowest level has significands without the leading bit.
  by_cases least : magnitude / leadingBit = 0
  · rw [if_pos least]
    simp only [leadingBit] at least ⊢
    omega
  · rw [if_neg least]
    simp only [leadingBit] at least ⊢
    omega

/-- Level and significand are told from the magnitude bits that they make. -/
theorem magnitude_parts (level significand : Nat) (fits : significand < 2 * leadingBit)
    (normal : level = 0 ∨ leadingBit ≤ significand) :
    levelOf (level * leadingBit + significand) = level ∧
      significandOf (level * leadingBit + significand) = significand := by
  -- The parts of a magnitude determine it, and only one level fits the significand.
  obtain ⟨same, below, leading⟩ := magnitude_eq (level * leadingBit + significand)
  simp only [leadingBit] at *
  omega

/-- Within a level, and up to the next one, the units are counted in equal steps. -/
theorem units_grid {level steps : Nat} (normal : level = 0 ∨ leadingBit ≤ steps)
    (fits : steps ≤ 2 * leadingBit) : units (level * leadingBit + steps) = steps * 2 ^ level := by
  rcases Nat.lt_or_eq_of_le fits with below | rfl
  · obtain ⟨own, same⟩ := magnitude_parts level steps below normal
    rw [units, own, same]
  · -- The significand is carried into the exponent.
    have carried : level * leadingBit + 2 * leadingBit = (level + 1) * leadingBit + leadingBit := by
      ring
    obtain ⟨next, leading⟩ := magnitude_parts (level + 1) leadingBit (by decide)
      (.inr (Nat.le_refl _))
    rw [carried, units, next, leading]
    ring

/-- The next magnitude is one step of its level further. -/
theorem units_succ (magnitude : Nat) :
    units (magnitude + 1) = units magnitude + 2 ^ levelOf magnitude := by
  -- A significand that grows over its bound counts on in the next level without a gap.
  obtain ⟨same, below, normal⟩ := magnitude_eq magnitude
  have next : magnitude + 1 = levelOf magnitude * leadingBit + (significandOf magnitude + 1) := by
    omega
  conv_lhs => rw [next, units_grid (by omega) (by omega), Nat.add_mul, Nat.one_mul]
  rw [units]

/-- Greater magnitude bits stand for greater numbers. -/
theorem units_strictMono : StrictMono units :=
  -- The next magnitude lies a whole step above.
  strictMono_nat_of_lt_succ fun magnitude => by
    rw [units_succ]
    exact Nat.lt_add_of_pos_right (Nat.two_pow_pos _)

/-- The units next below: below zero that is the smallest negative number. -/
def unitsBelow (magnitude : Nat) : ℚ := if magnitude = 0 then -1 else units (magnitude - 1)

/-- A number of units lies between the midpoints to the neighbours of a magnitude, of which only an
even magnitude takes in the midpoints themselves. -/
structure Rounds (count : ℚ) (magnitude : Nat) : Prop where
  above : unitsBelow magnitude + units magnitude ≤ 2 * count
  below : 2 * count ≤ units magnitude + units (magnitude + 1)
  even : 2 * count = unitsBelow magnitude + units magnitude ∨
    2 * count = units magnitude + units (magnitude + 1) → magnitude % 2 = 0

section Rounds

variable {count : ℚ} {first second magnitude : Nat}

/-- The units next below are less. -/
theorem unitsBelow_lt (magnitude : Nat) : unitsBelow magnitude < units magnitude := by
  -- Below zero lies the least number of the other sign.
  rw [unitsBelow]
  split
  · have : (0 : ℚ) ≤ units magnitude := Nat.cast_nonneg _
    linarith
  · exact_mod_cast units_strictMono (by omega)

/-- The units of a smaller magnitude are at most those next below. -/
theorem units_le_unitsBelow (less : first < second) : (units first : ℚ) ≤ unitsBelow second := by
  -- Between two magnitudes lies at least the one just below the second.
  rw [unitsBelow, if_neg (by omega)]
  exact_mod_cast units_strictMono.monotone (by omega)

/-- The units of a greater magnitude are at least those next above. -/
theorem units_succ_le (less : first < second) : (units (first + 1) : ℚ) ≤ units second := by
  -- The magnitude just above the first is at most the second.
  exact_mod_cast units_strictMono.monotone less

/-- The units next above are more. -/
theorem units_lt_succ (magnitude : Nat) : (units magnitude : ℚ) < units (magnitude + 1) := by
  -- Magnitudes grow strictly.
  exact_mod_cast units_strictMono (Nat.lt_succ_self magnitude)

/-- Whatever is counted exactly rounds to its own magnitude. -/
theorem rounds_units (magnitude : Nat) : Rounds (units magnitude) magnitude := by
  -- A count that is met exactly lies strictly between the two midpoints, and is no tie.
  have less := unitsBelow_lt magnitude
  have more := units_lt_succ magnitude
  refine ⟨by linarith, by linarith, ?_⟩
  rintro (same | same) <;> linarith

/-- A count does not round to a magnitude and a greater one. -/
theorem Rounds.not_lt (one : Rounds count first) (other : Rounds count second) :
    ¬ first < second := by
  intro less
  have low := units_le_unitsBelow less
  have high := units_succ_le less
  have up := one.below
  have down := other.above
  -- Both are next to one midpoint, and only one of two neighbours is even.
  have even := one.even (.inr (by linarith))
  have also := other.even (.inl (by linarith))
  have next : (units second : ℚ) = units (first + 1) := by linarith
  have := units_strictMono.injective (Nat.cast_injective next)
  omega

/-- A count rounds to one magnitude only. -/
theorem Rounds.unique (one : Rounds count first) (other : Rounds count second) :
    first = second :=
  -- Of two magnitudes for one count neither can be less than the other.
  Nat.le_antisymm (Nat.not_lt.mp (other.not_lt one)) (Nat.not_lt.mp (one.not_lt other))

end Rounds

end SchemaLedger.Binary64
