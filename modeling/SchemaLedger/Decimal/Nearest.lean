import SchemaLedger.Decimal.Binary64

/-! Rounding to the nearest integer or floating point number gives ties to the even neighbour. -/

namespace SchemaLedger

/-- The integer nearest to a fraction, and of two nearest ones the even one. -/
def roundDiv (num den : Nat) : Nat :=
  let floor := num / den
  let twice := 2 * (num % den)
  if den < twice ∨ twice = den ∧ floor % 2 = 1 then floor + 1 else floor

namespace Binary64

/-- The exponent of the floating point numbers around a positive fraction. -/
def exponentAround (num den : Nat) : Int :=
  let estimate : Int := (Nat.log2 num : Int) - Nat.log2 den
  -- The estimate is right or one too large, which comparing the fraction with its power tells.
  let reached := den * Nat.pow 2 estimate.toNat ≤ num * Nat.pow 2 (-estimate).toNat
  max (if reached then estimate - 52 else estimate - 53) (-1074)

/-- The magnitude bits nearest to a fraction, infinite where it is too large. -/
def nearestMagnitude (num den : Nat) : Nat :=
  if num = 0 then 0
  else
    let exponent := exponentAround num den
    let steps := roundDiv (num * Nat.pow 2 (-exponent).toNat) (den * Nat.pow 2 exponent.toNat)
    -- A significand that rounds up to a power of two carries into the exponent by itself.
    min ((exponent + 1074).toNat * leadingBit + steps) infiniteMagnitude

/-- The floating point number nearest to a signed fraction. -/
def nearest (negative : Bool) (num den : Nat) : Binary64 :=
  ofMagnitude negative (nearestMagnitude num den)

/-- The nearest number to the product of two finite numbers. -/
def mul (x y : Binary64) : Binary64 :=
  nearest (x.isNegative != y.isNegative) (x.numerator * y.numerator) (x.denominator * y.denominator)

/-- The nearest number to the quotient of a finite number by a finite number other than zero. -/
def div (x y : Binary64) : Binary64 :=
  nearest (x.isNegative != y.isNegative) (x.numerator * y.denominator) (x.denominator * y.numerator)

end Binary64

end SchemaLedger
