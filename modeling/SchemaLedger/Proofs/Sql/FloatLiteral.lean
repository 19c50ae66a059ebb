import SchemaLedger.Sql.Literal
import SchemaLedger.Proofs.Decimal.Fixed
import SchemaLedger.Proofs.Decimal.Numeral

/-! A floating point number has a literal just if four decimal places are enough to read it back. -/

namespace SchemaLedger

namespace Binary64

variable {x : Binary64} {n : ℤ} {bound : Nat}

/-- A number is what is left without its fraction, if it has none. -/
theorem value_eq_truncated (whole : x.numerator % x.denominator = 0) : x.value = x.truncated := by
  have positive : (0 : ℚ) < x.denominator := Nat.cast_pos.mpr x.denominator_pos
  -- The division leaves no rest, so that it is the same among integers.
  have size : (x.numerator / x.denominator : ℚ) = ((x.numerator / x.denominator : Nat) : ℤ) := by
    rw [div_eq_iff positive.ne']
    exact_mod_cast (Nat.div_mul_cancel (Nat.dvd_of_mod_eq_zero whole)).symm
  rw [value_eq, size, truncated, sign]
  split
  · push_cast
    rw [neg_one_mul]
  · rw [one_mul]
    rfl

/-- A whole number has a fraction that comes out even. -/
theorem numerator_of_value_eq (same : x.value = n) : x.numerator = n.natAbs * x.denominator := by
  have positive : (0 : ℚ) < x.denominator := Nat.cast_pos.mpr x.denominator_pos
  -- Without its sign the value is a fraction of two numbers.
  have size : (x.numerator / x.denominator : ℚ) = n.natAbs := by
    have nonneg : (0 : ℚ) ≤ x.numerator / x.denominator := by positivity
    rw [← abs_of_nonneg nonneg, ← abs_sign_mul x, ← value_eq, same, ← Int.cast_abs,
      ← Int.natCast_natAbs, Int.cast_natCast]
  rw [div_eq_iff positive.ne'] at size
  exact_mod_cast size

/-- Taking the fraction from a whole number leaves it as it is. -/
theorem truncated_of_value_eq (same : x.value = n) : x.truncated = n := by
  -- An integer leaves no rest, so that nothing is cut off.
  have whole : x.numerator % x.denominator = 0 := by
    rw [numerator_of_value_eq same, Nat.mul_mod_left]
  exact_mod_cast (value_eq_truncated whole).symm.trans same

/-- A whole number of 64 bits is converted without reaching a bound. -/
theorem toInt64_of_value_eq (finite : x.isFinite = true) (same : x.value = n)
    (low : Int64.minValue.toInt ≤ n) (high : n ≤ Int64.maxValue.toInt) : x.toInt64.toInt = n := by
  -- A finite value is a number.
  have number : x.isNaN = false := by
    rw [isFinite, decide_eq_true_eq] at finite
    rw [isNaN, decide_eq_false_iff_not]
    omega
  -- Both bounds hold already, so that the value is not moved to either.
  rw [toInt64, number, truncated_of_value_eq same, min_eq_left high, max_eq_right low]
  rw [Int64.toInt_minValue] at low
  rw [Int64.toInt_maxValue] at high
  exact Int64.toInt_ofInt_of_le low (by omega)

/-- The test for small whole numbers tells what they are. -/
theorem whole_iff : x.numerator % x.denominator = 0 ∧ x.numerator / x.denominator ≤ bound ↔
    ∃ n : ℤ, x.value = n ∧ |n| ≤ bound := by
  -- The integer is the value with nothing cut off, and the bound is about its size.
  constructor
  · rintro ⟨whole, small⟩
    refine ⟨x.truncated, value_eq_truncated whole, ?_⟩
    have size : |x.truncated| = (x.numerator / x.denominator : Nat) := by
      rw [truncated]
      split <;> simp [abs_of_nonneg, Int.ediv_nonneg]
    rw [size]
    exact_mod_cast small
  · -- An integer divides without a rest, and its size is the quotient.
    rintro ⟨n, same, small⟩
    rw [numerator_of_value_eq same, Nat.mul_mod_left, Nat.mul_div_cancel _ x.denominator_pos]
    rw [← Int.natCast_natAbs] at small
    exact ⟨rfl, by exact_mod_cast small⟩

end Binary64

namespace DefaultValue

open Binary64

variable {x : Binary64} {text : String}

/-- What the literal of a floating point number tells of it. -/
structure Renders (x : Binary64) (text : String) : Prop where
  /-- The text is a numeral that reads back as the number. -/
  nearest : ∃ numeral : Numeral, numeral.text = text ∧ x.IsNearest numeral.value
  /-- It has no fraction part just for the whole numbers up to the largest safe one. -/
  whole : '.' ∉ text.toList ↔ ∃ n : ℤ, x.value = n ∧ |n| ≤ 2 ^ 53 - 1
  /-- These are written as the integers that they are, the conversion reaching no bound. -/
  exact : ∀ n : ℤ, x.value = n → |n| ≤ 2 ^ 53 - 1 → text = integerText n ∧ x.toInt64.toInt = n

/-- A small whole number is written as an integer, any other one with its decimal places if they are
enough. -/
theorem floatLiteral_eq_ok : floatLiteral x = .ok text ↔ x.isFinite = true ∧
    ((∃ n : ℤ, x.value = n ∧ |n| ≤ largestSafe) ∧ text = integerText x.toInt64.toInt ∨
      (¬ ∃ n : ℤ, x.value = n ∧ |n| ≤ largestSafe) ∧ (∃ k : ℤ, x.IsNearest (k / 10 ^ places)) ∧
        text = x.fixedText places) := by
  have fine : 10 ^ places ≤ leadingBit := by decide
  rw [floatLiteral]
  split
  next infinite => simp_all
  next finite =>
    have finite : x.isFinite = true := by simpa using finite
    have scale : 0 < 10 ^ places := by decide
    -- The decimal places that are printed read back if any others do.
    have reads := (isNearest_fraction_iff finite (x.fixedSteps places) scale).symm
    rw [Nat.cast_pow, Nat.cast_ofNat, isNearest_fixedSteps_iff finite fine] at reads
    rw [← whole_iff]
    split
    -- A whole number is small enough, and then its places are not looked at.
    next whole =>
      rw [Except.ok.injEq, eq_comm]
      simp [finite, whole]
    next fraction =>
      rw [Nat.pow_eq]
      split
      next holds =>
        rw [Except.ok.injEq, eq_comm]
        simp only [finite, fraction, reads.mp holds, false_and, false_or, true_and,
          not_false_eq_true]
      next fails => simp [fraction, mt reads.mpr fails]

/-- The literal of a small whole number renders it. -/
theorem renders_integer {n : ℤ} (finite : x.isFinite = true) (same : x.value = n)
    (small : |n| ≤ 2 ^ 53 - 1) : Renders x (integerText x.toInt64.toInt) := by
  -- The integer is far within the 64 bits, so that the conversion is exact.
  have exact : x.toInt64.toInt = n := by
    rw [abs_le] at small
    refine toInt64_of_value_eq finite same ?_ ?_
    · rw [Int64.toInt_minValue]
      omega
    · rw [Int64.toInt_maxValue]
      omega
  rw [exact]
  -- The numeral is the integer itself, which has no point.
  refine ⟨⟨.ofInt n, Numeral.text_ofInt n, ?_⟩, ⟨fun _ => ⟨n, same, small⟩, fun _ => ?_⟩, ?_⟩
  · rw [Numeral.value_ofInt, ← same]
    exact isNearest_value finite
  · rw [← Numeral.text_ofInt, Numeral.point_mem_text]
    exact not_not_intro rfl
  · intro m equal _
    obtain rfl : m = n := Int.cast_injective (equal.symm.trans same)
    exact ⟨rfl, exact⟩

/-- The literal of any other number with few decimal places renders it. -/
theorem renders_fixed (finite : x.isFinite = true)
    (fraction : ¬ ∃ n : ℤ, x.value = n ∧ |n| ≤ 2 ^ 53 - 1)
    (some : ∃ k : ℤ, x.IsNearest (k / 10 ^ places)) : Renders x (x.fixedText places) := by
  have written := Numeral.text_ofSteps x (by decide : 0 < places)
  refine ⟨⟨_, written, ?_⟩, ⟨fun none => ?_, fun whole => absurd whole fraction⟩,
    fun n same small => absurd ⟨n, same, small⟩ fraction⟩
  · rw [Numeral.value_ofSteps]
    exact (isNearest_fixedSteps_iff finite (by decide)).mpr some
  · -- The numeral has as many digits behind its point as there are places.
    rw [← written, Numeral.point_mem_text, not_not, ← List.length_eq_zero_iff,
      Numeral.length_fraction_ofSteps] at none
    exact absurd none (by decide)

/-- A floating point number has a literal just if it is finite and some number with four decimal
places rounds to it, and the literal renders it. -/
theorem literal_float (x : Binary64) :
    ((∃ text, literal (.float x) = .ok text) ↔
      x.isFinite = true ∧ ∃ k : ℤ, x.IsNearest (k / 10 ^ 4)) ∧
      ∀ text, literal (.float x) = .ok text → Renders x text := by
  have bound : (largestSafe : ℤ) = 2 ^ 53 - 1 := rfl
  simp only [literal, floatLiteral_eq_ok, bound]
  constructor
  · constructor
    · rintro ⟨text, finite, ⟨⟨n, same, -⟩, -⟩ | ⟨-, some, -⟩⟩
      · -- A whole number is a multiple of any decimal place.
        refine ⟨finite, n * 10 ^ 4, ?_⟩
        have exact : ((n * 10 ^ 4 : ℤ) : ℚ) / 10 ^ 4 = x.value := by
          rw [same]
          push_cast
          exact mul_div_cancel_right₀ _ (by norm_num)
        rw [exact]
        exact isNearest_value finite
      · exact ⟨finite, some⟩
    · rintro ⟨finite, some⟩
      -- A small whole number is written as an integer, and any other number with its places.
      by_cases whole : ∃ n : ℤ, x.value = n ∧ |n| ≤ 2 ^ 53 - 1
      · exact ⟨_, finite, .inl ⟨whole, rfl⟩⟩
      · exact ⟨_, finite, .inr ⟨whole, some, rfl⟩⟩
  · rintro text ⟨finite, ⟨⟨n, same, small⟩, rfl⟩ | ⟨fraction, some, rfl⟩⟩
    · exact renders_integer finite same small
    · exact renders_fixed finite fraction some

/-- One tenth is no floating point number, but rounds to one, which renders as it. -/
theorem literal_float_tenth :
    literal (.float ⟨0x3fb999999999999a⟩) = .ok "0.1000" ∧
      Renders ⟨0x3fb999999999999a⟩ "0.1000" :=
  have written : literal (.float ⟨0x3fb999999999999a⟩) = .ok "0.1000" := by decide +kernel
  ⟨written, (literal_float _).2 _ written⟩

end DefaultValue

end SchemaLedger
