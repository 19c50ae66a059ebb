import SchemaLedger.Decimal.Layout
import SchemaLedger.Text.Scan
import SchemaLedger.Time.Instant

/-! Time stamps write instants after RFC 3339, and are read with some leniency about spaces. -/

namespace SchemaLedger

namespace Stamp

/-- A number with leading zeros up to a width. -/
def padded (width n : Nat) : List Char :=
  let digits := decimalDigits n
  List.replicate (width - digits.length) '0' ++ digits

/-- A year takes four digits, and a sign where four digits are not enough. -/
def yearText (year : Int) : List Char :=
  if 0 ≤ year ∧ year ≤ 9999 then padded 4 year.toNat
  else (if year < 0 then '-' else '+') :: padded 4 year.natAbs

/-- The fraction of a second in milli-, micro- or nanoseconds, whichever is enough. -/
def fractionText (nano : Nat) : List Char :=
  if nano = 0 then []
  else if nano % 1000000 = 0 then '.' :: padded 3 (nano / 1000000)
  else if nano % 1000 = 0 then '.' :: padded 6 (nano / 1000)
  else '.' :: padded 9 nano

/-- The characters of a time stamp. -/
def chars (moment : Instant) : List Char :=
  yearText moment.date.year ++ '-' :: padded 2 moment.date.month ++
    '-' :: padded 2 moment.date.day ++ 'T' :: padded 2 moment.hour ++
    ':' :: padded 2 moment.minute ++ ':' :: padded 2 moment.second ++
    fractionText moment.nano ++ ['Z']

/-- A number of at least one and at most `width` digits at the front of a text. -/
def takeNumber? (width : Nat) (text : List Char) : Option (Nat × List Char) :=
  let digits := (text.take width).takeWhile Char.isDigit
  if digits.isEmpty then none else some (digitsValue digits, text.drop digits.length)

/-- A number of any length behind an explicit sign. -/
def takeLong? (text : List Char) : Option (Nat × List Char) :=
  takeNumber? text.length text

/-- A year of up to four digits, or of any number of digits behind a sign. -/
def takeYear? (text : List Char) : Option (Int × List Char) :=
  match trimFront text with
  | '-' :: rest => (takeLong? rest).map fun (year, rest) => (-(year : Int), rest)
  | '+' :: rest => (takeLong? rest).map fun (year, rest) => ((year : Int), rest)
  | rest => (takeNumber? 4 rest).map fun (year, rest) => ((year : Int), rest)

/-- A number of up to two digits, with blanks allowed before it. -/
def takePair? (text : List Char) : Option (Nat × List Char) :=
  takeNumber? 2 (trimFront text)

/-- A given separator, with blanks allowed before it. -/
def takeMark? (mark : Char) (text : List Char) : Option (List Char) :=
  match trimFront text with
  | c :: rest => if c = mark then some rest else none
  | [] => none

/-- The fraction of a second in nanoseconds, whose digits beyond the ninth are ignored. -/
def takeFraction? (text : List Char) : Option (Nat × List Char) :=
  match text with
  | '.' :: rest =>
    let digits := (rest.take 9).takeWhile Char.isDigit
    if digits.isEmpty then none
    else
      let zeros := List.replicate (9 - digits.length) '0'
      some (digitsValue (digits ++ zeros), rest.dropWhile Char.isDigit)
  | _ => some (0, text)

/-- How many minutes a clock is ahead, written as `Z`, `UTC` or hours and minutes. -/
def takeOffset? (text : List Char) : Option (Int × List Char) :=
  let signed := fun (sign : Int) (text : List Char) =>
    match text with
    | h₁ :: h₂ :: rest =>
      match rest.dropWhile fun c => c = ':' || isBlank c with
      | m₁ :: m₂ :: rest =>
        let digits := [h₁, h₂, m₁, m₂]
        if digits.all Char.isDigit ∧ m₁ ≤ '5' then
          some (sign * (digitsValue [h₁, h₂] * 60 + digitsValue [m₁, m₂]), rest)
        else none
      | _ => none
    | _ => none
  match text with
  | u :: t :: c :: rest =>
    if [u, t, c].map Char.toUpper = ['U', 'T', 'C'] then some (0, rest)
    else if u = 'Z' ∨ u = 'z' then some (0, t :: c :: rest)
    else if u = '+' then signed 1 (t :: c :: rest)
    -- The typographical minus sign is as good as a hyphen.
    else if u = '-' ∨ u = '\u2212' then signed (-1) (t :: c :: rest)
    else none
  | u :: rest => if u = 'Z' ∨ u = 'z' then some (0, rest) else none
  | [] => none

/-- The instant that the characters of a time stamp stand for. -/
def read? (text : List Char) : Option Instant := do
  let (year, text) ← takeYear? text
  let text ← takeMark? '-' text
  let (month, text) ← takePair? text
  let text ← takeMark? '-' text
  let (day, text) ← takePair? text
  let text ← match text with
    | c :: rest => if c = 'T' ∨ c = 't' ∨ c = ' ' then some rest else none
    | [] => none
  let (hour, text) ← takePair? text
  let text ← takeMark? ':' text
  let (minute, text) ← takePair? text
  let text ← takeMark? ':' text
  let (second, text) ← takePair? text
  let (nano, text) ← takeFraction? text
  let (ahead, text) ← takeOffset? (trimFront text)
  -- Clocks differ from universal time by less than a day.
  if !(trimFront text).isEmpty ∨ 1440 ≤ ahead.natAbs then none
  else
    let clock ← Instant.of? ⟨year, month, day⟩ hour minute second nano
    clock.shifted? ahead

end Stamp

/-- The time stamp of an instant. -/
def Instant.text (moment : Instant) : String := String.ofList (Stamp.chars moment)

/-- The instant of a time stamp. -/
def Instant.ofText? (text : String) : Option Instant := Stamp.read? text.toList

end SchemaLedger
