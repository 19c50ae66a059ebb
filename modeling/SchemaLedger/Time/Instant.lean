/-! An instant is a date and a time of day in coordinated universal time. -/

namespace SchemaLedger

/-- A day of the Gregorian calendar, extended to all years. -/
structure Date where
  year : Int
  month : Nat
  day : Nat
  deriving DecidableEq, Repr

namespace Date

/-- Every fourth year has a leap day, centuries only when divisible by four hundred. -/
def isLeapYear (year : Int) : Bool :=
  year % 4 == 0 && (year % 100 != 0 || year % 400 == 0)

/-- The number of days in a month. -/
def daysIn (year : Int) (month : Nat) : Nat :=
  if month = 2 then if isLeapYear year then 29 else 28
  else if month = 4 ∨ month = 6 ∨ month = 9 ∨ month = 11 then 30
  else 31

/-- The first and last years that dates are kept for. -/
def years : Int × Int := (-262143, 262142)

/-- A day that the calendar has. -/
def IsValid (date : Date) : Prop :=
  years.1 ≤ date.year ∧ date.year ≤ years.2 ∧ 1 ≤ date.month ∧ date.month ≤ 12 ∧
    1 ≤ date.day ∧ date.day ≤ daysIn date.year date.month

instance (date : Date) : Decidable date.IsValid := inferInstanceAs (Decidable (_ ∧ _))

/-- The following day. -/
def next (date : Date) : Date :=
  if date.day < daysIn date.year date.month then { date with day := date.day + 1 }
  else if date.month < 12 then ⟨date.year, date.month + 1, 1⟩
  else ⟨date.year + 1, 1, 1⟩

/-- The preceding day. -/
def previous (date : Date) : Date :=
  if 1 < date.day then { date with day := date.day - 1 }
  else if 1 < date.month then ⟨date.year, date.month - 1, daysIn date.year (date.month - 1)⟩
  else ⟨date.year - 1, 12, 31⟩

end Date

/-- The number of nanoseconds in a second. -/
def nanosPerSecond : Nat := 1000000000

/-- A moment in time, to the nanosecond, where any minute may have a leap second. -/
structure Instant where
  date : Date
  hour : Nat
  minute : Nat
  second : Nat
  nano : Nat
  valid : date.IsValid ∧ hour < 24 ∧ minute < 60 ∧ second ≤ 60 ∧ nano < nanosPerSecond
  deriving DecidableEq

namespace Instant

/-- The instant with these parts, if there is one. -/
def of? (date : Date) (hour minute second nano : Nat) : Option Instant :=
  if valid : date.IsValid ∧ hour < 24 ∧ minute < 60 ∧ second ≤ 60 ∧ nano < nanosPerSecond then
    some ⟨date, hour, minute, second, nano, valid⟩
  else none

/-- The instant at which a clock shows this time, if it runs some minutes ahead. -/
def shifted? (clock : Instant) (ahead : Int) : Option Instant :=
  let minutes : Int := clock.hour * 60 + clock.minute - ahead
  -- A clock is ahead or behind by less than a day, so at most one day has to be crossed.
  let (date, minutes) :=
    if minutes < 0 then (clock.date.previous, minutes + 1440)
    else if minutes < 1440 then (clock.date, minutes)
    else (clock.date.next, minutes - 1440)
  of? date (minutes / 60).toNat (minutes % 60).toNat clock.second clock.nano

end Instant

end SchemaLedger
