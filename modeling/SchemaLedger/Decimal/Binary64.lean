/-! Binary floating point numbers of 64 bits are exact fractions, infinities or no number at all. -/

namespace SchemaLedger

/-- A floating point number by its bits: a sign, eleven bits of exponent, 52 bits of fraction. -/
structure Binary64 where
  bits : UInt64
  deriving DecidableEq, Repr

namespace Binary64

/-- The bit above all others, which holds the sign. -/
def signBit : Nat := 9223372036854775808

/-- The bit above those of the fraction, which most significands have without holding it. -/
def leadingBit : Nat := 4503599627370496

/-- The magnitude bits of infinity, which lie just above those of every finite number. -/
def infiniteMagnitude : Nat := 2047 * leadingBit

/-- The bits without the sign, in which finite numbers are ordered by their absolute value. -/
def magnitude (x : Binary64) : Nat := x.bits.toNat % signBit

/-- The sign bit, which zero carries too. -/
def isNegative (x : Binary64) : Bool := signBit ≤ x.bits.toNat

/-- Neither an infinity nor the absence of a number. -/
def isFinite (x : Binary64) : Bool := x.magnitude < infiniteMagnitude

/-- The bits that stand for no number. -/
def isNaN (x : Binary64) : Bool := infiniteMagnitude < x.magnitude

/-- The number with the given sign and magnitude bits. -/
def ofMagnitude (negative : Bool) (magnitude : Nat) : Binary64 :=
  ⟨UInt64.ofNat (if negative then signBit + magnitude else magnitude)⟩

/-- The integer that the absolute value is a power of two times of. -/
def significand (x : Binary64) : Nat :=
  -- The smallest exponent has no implicit leading bit.
  if x.magnitude / leadingBit = 0 then x.magnitude else x.magnitude % leadingBit + leadingBit

/-- The power of two that scales the significand. -/
def exponent (x : Binary64) : Int :=
  (max (x.magnitude / leadingBit) 1 : Nat) - 1075

/-- The numerator of the absolute value over `denominator`. -/
def numerator (x : Binary64) : Nat := x.significand * Nat.pow 2 x.exponent.toNat

/-- A power of two over which the absolute value of a finite number is a fraction. -/
def denominator (x : Binary64) : Nat := Nat.pow 2 (-x.exponent).toNat

/-- A number without its fraction. -/
def truncated (x : Binary64) : Int :=
  let whole : Int := x.numerator / x.denominator
  if x.isNegative then -whole else whole

/-- A number without its fraction as an integer of 64 bits, and beyond these the last one. -/
def toInt64 (x : Binary64) : Int64 :=
  if x.isNaN then 0
  else Int64.ofInt (max Int64.minValue.toInt (min x.truncated Int64.maxValue.toInt))

end Binary64

end SchemaLedger
