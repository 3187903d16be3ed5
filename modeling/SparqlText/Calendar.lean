/-
# The Gregorian calendar

The proleptic Gregorian calendar, with a year 0 and years before it. Days are
numbered from 1970-01-01, and every day number is one date.
-/

namespace SparqlText

/-- A day of the calendar by year, month and day, which may or may not exist. -/
structure Date where
  year : Int
  month : Nat
  day : Nat
  deriving DecidableEq, Repr

namespace Calendar

/-- A year divisible by 4 is a leap year, unless it is divisible by 100 and not
by 400. -/
def isLeapYear (year : Int) : Bool :=
  year % 4 == 0 && (year % 100 != 0 || year % 400 == 0)

/-- The lengths of the months in order. -/
def monthLengths (leap : Bool) : List Nat :=
  [31, if leap then 29 else 28, 31, 30, 31, 30, 31, 31, 30, 31, 30, 31]

/-- The length of a month; a number that names no month has no days. -/
def monthLength (year : Int) (month : Nat) : Nat :=
  if month = 0 then 0 else (monthLengths (isLeapYear year)).getD (month - 1) 0

/-- The number of days from the first day of year 0 to the first day of a year. -/
def daysBeforeYear (year : Int) : Int :=
  365 * year + (year + 3) / 4 - (year + 99) / 100 + (year + 399) / 400

/-- The number of days from the first day of a year to the first day of a month. -/
def daysBeforeMonth (year : Int) (month : Nat) : Nat :=
  ((monthLengths (isLeapYear year)).take (month - 1)).foldr (· + ·) 0

/-- The number of days from the first day of year 0 to 1970-01-01. -/
def daysBeforeEpoch : Int := 719528

/-- The year in which a day lies, counted from the first day of year 0. The
average length of a year finds it to within one. -/
def yearOfDay (day : Int) : Int :=
  let guess := day * 400 / 146097
  if day < daysBeforeYear guess then guess - 1
  else if daysBeforeYear (guess + 1) ≤ day then guess + 1
  else guess

/-- The month and day of a day counted from the first day of the first of the
months whose lengths are given. -/
def monthAndDay (month : Nat) : List Nat → Nat → Nat × Nat
  | [], day => (month, day + 1)
  | length :: rest, day =>
      if day < length then (month, day + 1)
      else monthAndDay (month + 1) rest (day - length)

end Calendar

namespace Date

open Calendar

/-- Whether the calendar has this date. -/
def isValid (date : Date) : Bool :=
  0 < date.day && date.day ≤ monthLength date.year date.month

/-- The number of a date's day. -/
def dayNumber (date : Date) : Int :=
  daysBeforeYear date.year + daysBeforeMonth date.year date.month
    + ((date.day : Int) - 1) - daysBeforeEpoch

/-- The date of the day with a number. -/
def ofDayNumber (number : Int) : Date :=
  let day := number + daysBeforeEpoch
  let year := yearOfDay day
  let (month, dayOfMonth) :=
    monthAndDay 1 (monthLengths (isLeapYear year)) (day - daysBeforeYear year).toNat
  ⟨year, month, dayOfMonth⟩

end Date

end SparqlText
