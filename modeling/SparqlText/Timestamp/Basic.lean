/-
# Timestamps

An instant in coordinated universal time, and its text in the format of
RFC 3339. An instant within a leap second belongs to the second before it and
has a thousand million nanoseconds or more; it is written as second 60.
-/

import SparqlText.Calendar
import SparqlText.Decimal

namespace SparqlText

/-- The number of nanoseconds in a second. -/
def nanosPerSecond : Nat := 1000000000

/-- The number of seconds in a day. -/
def secondsPerDay : Nat := 86400

/-- An instant: seconds since 1970-01-01T00:00:00Z, leap seconds left out, and
nanoseconds since the beginning of the second. Only the last second of a minute
can be followed by a leap second. -/
structure Timestamp where
  seconds : Int
  nanoseconds : Nat
  nanoseconds_lt : nanoseconds < 2 * nanosPerSecond
  leap_ends_minute : nanosPerSecond ≤ nanoseconds → seconds % 60 = 59
  deriving DecidableEq, Repr

namespace Timestamp

/-- The instant with the given seconds and nanoseconds, if there is one. -/
def of? (seconds : Int) (nanoseconds : Nat) : Option Timestamp :=
  if valid : nanoseconds < 2 * nanosPerSecond
      ∧ (nanosPerSecond ≤ nanoseconds → seconds % 60 = 59) then
    some ⟨seconds, nanoseconds, valid.1, valid.2⟩
  else none

/-- The date of an instant. -/
def date (timestamp : Timestamp) : Date :=
  Date.ofDayNumber (timestamp.seconds / (secondsPerDay : Int))

/-- The second of the day that an instant belongs to. -/
def secondOfDay (timestamp : Timestamp) : Nat :=
  (timestamp.seconds % (secondsPerDay : Int)).toNat

/-- Whether an instant lies within a leap second. -/
def isLeap (timestamp : Timestamp) : Bool :=
  nanosPerSecond ≤ timestamp.nanoseconds

/-- The nanoseconds since the beginning of the second as it is written. -/
def fraction (timestamp : Timestamp) : Nat :=
  if timestamp.isLeap then timestamp.nanoseconds - nanosPerSecond
  else timestamp.nanoseconds

/-! ## Writing -/

/-- Whether a year has exactly four digits and no sign when it is written. -/
def isPlainYear (year : Int) : Bool := 0 ≤ year && year ≤ 9999

/-- A year in four digits, or with a sign and at least four digits. -/
def yearText (year : Int) : Text :=
  if isPlainYear year then Decimal.padded 4 year.toNat
  else (if year < 0 then '-' else '+') :: Decimal.padded 4 year.natAbs

/-- The date and the whole second of an instant. -/
def wholeText (timestamp : Timestamp) : Text :=
  let date := timestamp.date
  let second := timestamp.secondOfDay
  yearText date.year ++ '-' :: Decimal.padded 2 date.month
    ++ '-' :: Decimal.padded 2 date.day
    ++ 'T' :: Decimal.padded 2 (second / 3600)
    ++ ':' :: Decimal.padded 2 (second / 60 % 60)
    ++ ':' :: Decimal.padded 2 (second % 60 + if timestamp.isLeap then 1 else 0)

/-- The instant with the shortest of none, three, six and nine digits of fraction
that lose nothing, and a numeric zone. -/
def fullText (timestamp : Timestamp) : Text :=
  let nanos := timestamp.fraction
  let fraction :=
    if nanos = 0 then []
    else if nanos % 1000000 = 0 then '.' :: Decimal.padded 3 (nanos / 1000000)
    else if nanos % 1000 = 0 then '.' :: Decimal.padded 6 (nanos / 1000)
    else '.' :: Decimal.padded 9 nanos
  timestamp.wholeText ++ fraction ++ "+00:00".toList

/-- The instant cut to whole milliseconds, and the letter of universal time. -/
def millisecondText (timestamp : Timestamp) : Text :=
  timestamp.wholeText ++ '.' :: Decimal.padded 3 (timestamp.fraction / 1000000) ++ ['Z']

/-- Whether an instant has a text in which the year is four digits. -/
def isWritable (timestamp : Timestamp) : Bool := isPlainYear timestamp.date.year

end Timestamp

end SparqlText
