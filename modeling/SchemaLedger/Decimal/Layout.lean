/-! Decimals are digits and a place for the point, laid out as text in a style. -/

namespace SchemaLedger

/-- The decimal digits of a natural number. -/
def decimalDigits (n : Nat) : List Char := Nat.toDigits 10 n

/-- The decimal digits of an integer, behind a sign if it is negative. -/
def signedDigits (value : Int) : List Char :=
  (if value < 0 then ['-'] else []) ++ decimalDigits value.natAbs

/-- The value of decimal digits. -/
def digitsValue (digits : List Char) : Nat :=
  digits.foldl (fun value c => value * 10 + (c.toNat - '0'.toNat)) 0

/-- A natural number as text. -/
def decimalText (n : Nat) : String := String.ofList (decimalDigits n)

/-- An integer as text. -/
def integerText (value : Int) : String := String.ofList (signedDigits value)

/-- A decimal number: the digits as one integer, times a power of ten. -/
structure Decimal where
  digits : Nat
  exponent : Int
  deriving DecidableEq, Repr

/-- Which of two equally near decimals is chosen. -/
inductive Tie where
  | up
  | even
  deriving DecidableEq, Repr

/-- Zeros at the end of the digits move into the exponent. -/
def Decimal.normalize (d : Decimal) : Nat → Decimal
  | 0 => d
  | fuel + 1 =>
    if d.digits ≠ 0 ∧ d.digits % 10 = 0 then Decimal.normalize ⟨d.digits / 10, d.exponent + 1⟩ fuel
    else d

/-- How numbers are written: ties between decimals, plain exponents, and whole numbers. -/
structure NumberStyle where
  /-- The choice between two shortest decimals that are equally near. -/
  tie : Tie
  /-- The exponents of the leading digit that are written without an exponent; all where absent. -/
  plain : Option (Int × Int)
  /-- Whether a whole number still shows a fraction digit. -/
  fraction : Bool

/-- Digits in place, with zeros filling up to the decimal point on either side. -/
def plainText (fraction : Bool) (digits : List Char) (exponent : Int) : List Char :=
  let places := (-exponent).toNat
  if 0 ≤ exponent then
    digits ++ List.replicate exponent.toNat '0' ++ if fraction then ['.', '0'] else []
  else if places < digits.length then
    digits.take (digits.length - places) ++ '.' :: digits.drop (digits.length - places)
  else '0' :: '.' :: List.replicate (places - digits.length) '0' ++ digits

/-- One digit before the point and the rest behind it, with a signed exponent. -/
def scientificText (digits : List Char) (leading : Int) : List Char :=
  let mantissa := match digits with
    | first :: second :: rest => first :: '.' :: second :: rest
    | _ => digits
  mantissa ++ 'e' :: (if leading < 0 then '-' else '+') :: decimalDigits leading.natAbs

/-- The text of a decimal in the given style. -/
def Decimal.text (style : NumberStyle) (d : Decimal) : List Char :=
  let digits := decimalDigits d.digits
  let leading := digits.length - 1 + d.exponent
  if style.plain.all (fun (least, bound) => least ≤ leading && leading < bound) then
    plainText style.fraction digits d.exponent
  else scientificText digits leading

end SchemaLedger
