import SchemaLedger.Decimal.Layout
import SchemaLedger.Decimal.Nearest

/-! Floating point numbers are written with the fewest digits that read back, or to fixed places. -/

namespace SchemaLedger

/-- The number of digits before the decimal point, negative when zeros follow the point. -/
def integralPlaces (num den : Nat) : Int :=
  if den ≤ num then (decimalDigits (num / den)).length
  -- Below one, the places are those that the reciprocal, rounded up, exceeds.
  else 1 - (decimalDigits ((den + num - 1) / num - 1)).length

namespace Binary64

/-- The fraction lies in the interval of fractions that round to this magnitude. -/
def roundsHere (magnitude num den : Nat) : Bool :=
  nearestMagnitude num den == magnitude

/-- The multiple of a power of ten nearest to a number, if it reads back as the number. -/
def onGrid? (x : Binary64) (tie : Tie) (exponent : Int) : Option Decimal :=
  let up := Nat.pow 10 exponent.toNat
  let down := Nat.pow 10 (-exponent).toNat
  let num := x.numerator * down
  let den := x.denominator * up
  let below := num / den
  let readsBack := fun digits => roundsHere x.magnitude (digits * up) down
  -- The two neighbours on the grid are tried nearest first.
  let twice := 2 * (num % den)
  let upward := den < twice || twice == den && (tie == .up || below % 2 == 1)
  let (near, far) := if upward then (below + 1, below) else (below, below + 1)
  if readsBack near then some ⟨near, exponent⟩
  else if readsBack far then some ⟨far, exponent⟩
  else none

/-- The first grid with a decimal that reads back, refining from one digit onwards. -/
def refine (x : Binary64) (tie : Tie) (exponent : Int) : Nat → Decimal
  | 0 => ⟨0, 0⟩
  | finer + 1 => (x.onGrid? tie exponent).getD (refine x tie (exponent - 1) finer)

/-- The shortest decimal that reads back as a finite number other than zero, up to its sign. -/
def shortest (x : Binary64) (tie : Tie) : Decimal :=
  -- Seventeen digits always suffice for 53 bits.
  (refine x tie (integralPlaces x.numerator x.denominator - 1) 17).normalize 17

/-- The text of a floating point number in the given style. -/
def text (style : NumberStyle) (x : Binary64) : String :=
  if x.isNaN then "NaN"
  else
    let sign := if x.isNegative then "-" else ""
    if !x.isFinite then sign ++ "inf"
    else if x.magnitude = 0 then sign ++ String.ofList (plainText style.fraction ['0'] 0)
    else sign ++ String.ofList ((x.shortest style.tie).text style)

/-- The absolute value as a whole number of steps of `10 ^ -places`, rounded to the nearest. -/
def fixedSteps (places : Nat) (x : Binary64) : Nat :=
  roundDiv (x.numerator * Nat.pow 10 places) x.denominator

/-- The text of a finite number with a fixed number of decimal places, at least one. -/
def fixedText (places : Nat) (x : Binary64) : String :=
  let digits := decimalDigits (x.fixedSteps places)
  -- At least one digit stands before the point.
  let padded := List.replicate (places + 1 - digits.length) '0' ++ digits
  (if x.isNegative then "-" else "") ++ String.ofList (plainText false padded (-places))

end Binary64

end SchemaLedger
