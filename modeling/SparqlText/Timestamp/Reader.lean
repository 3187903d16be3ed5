/-
# Reading timestamps

Three forms are read. The format of RFC 3339 has fixed widths and a zone. A date
and time without zone is taken as universal time, and a date alone, with or
without the letter of universal time, as its first instant. In the last two
forms a number may have white space before it and fewer digits than its width,
and a year may have a sign and then any number of digits.
-/

import SparqlText.Text.Blank
import SparqlText.Timestamp.Basic

namespace SparqlText.Timestamp

/-! ## Parts -/

/-- The ASCII digits that a text begins with, at most `most` of them. -/
def leadingDigits (most : Nat) (text : Text) : Text :=
  (text.take most).takeWhile Char.isDigit

/-- A number of at least `least` and at most `most` digits, and what follows. -/
def number? (least most : Nat) (text : Text) : Option (Nat × Text) :=
  let digits := leadingDigits most text
  if digits.length < least then none
  else some (Decimal.value digits, text.drop digits.length)

/-- What follows a character that must come next. -/
def expect? (char : Char) : Text → Option Text
  | [] => none
  | first :: rest => if first = char then some rest else none

/-- The nanoseconds of a fraction of one or more digits, those after the ninth
left out, and what follows. -/
def fraction? (text : Text) : Option (Nat × Text) :=
  let digits := text.takeWhile Char.isDigit
  if digits.isEmpty then none
  else
    let kept := digits.take 9
    some (Decimal.value kept * Nat.pow 10 (9 - kept.length), text.dropWhile Char.isDigit)

/-- The nanoseconds of a point and a fraction, or none where there is no point. -/
def optionalFraction? : Text → Option (Nat × Text)
  | '.' :: rest => fraction? rest
  | text => some (0, text)

/-- The earliest year of a date that can be read. -/
def earliestYear : Int := -262143

/-- The latest year of a date that can be read. -/
def latestYear : Int := 262142

/-- The seconds at the beginning of a date, if the date exists within the range of
years. -/
def midnight? (date : Date) : Option Int :=
  if date.isValid && earliestYear ≤ date.year && date.year ≤ latestYear then
    some (date.dayNumber * secondsPerDay)
  else none

/-- The instant of a date and a time of the day where local time is `ahead` of
universal time by so many seconds. Second 60 is a leap second. -/
def at? (date : Date) (hour minute second nanos : Nat) (ahead : Int) : Option Timestamp :=
  if hour ≤ 23 && minute ≤ 59 && second ≤ 60 then
    (midnight? date).bind fun midnight =>
      of? (midnight + (hour * 3600 + minute * 60 + min second 59 : Nat) - ahead)
        (nanos + if second = 60 then nanosPerSecond else 0)
  else none

/-! ## RFC 3339 -/

/-- The sign of a zone: a plus, a hyphen or the minus sign U+2212. -/
def zoneSign? : Text → Option (Int × Text)
  | [] => none
  | first :: rest =>
      if first = '+' then some (1, rest)
      else if first = '-' || first = '−' then some (-1, rest)
      else none

/-- The seconds by which local time is ahead, and what follows the zone. -/
def zone? (text : Text) : Option (Int × Text) :=
  match text with
  | 'Z' :: rest => some (0, rest)
  | 'z' :: rest => some (0, rest)
  | text => do
      let (sign, text) ← zoneSign? text
      let (hours, text) ← number? 2 2 text
      let text ← expect? ':' text
      let (minutes, text) ← number? 2 2 text
      if hours ≤ 23 && minutes ≤ 59 then
        return (sign * (hours * 3600 + minutes * 60 : Nat), text)
      else none

/-- The character between date and time: a letter in either case, or a space. -/
def isSeparator (char : Char) : Bool := char == 'T' || char == 't' || char == ' '

/-- What follows the character between date and time. -/
def separator? : Text → Option Text
  | [] => none
  | first :: rest => if isSeparator first then some rest else none

/-- An instant in the format of RFC 3339. -/
def rfc3339? (text : Text) : Option Timestamp := do
  let (year, text) ← number? 4 4 text
  let text ← expect? '-' text
  let (month, text) ← number? 2 2 text
  let text ← expect? '-' text
  let (day, text) ← number? 2 2 text
  let text ← separator? text
  let (hour, text) ← number? 2 2 text
  let text ← expect? ':' text
  let (minute, text) ← number? 2 2 text
  let text ← expect? ':' text
  let (second, text) ← number? 2 2 text
  let (nanos, text) ← optionalFraction? text
  let (ahead, text) ← zone? text
  if text.isEmpty then at? ⟨year, month, day⟩ hour minute second nanos ahead else none

/-! ## Without a zone -/

/-- A number of one to `most` digits after any white space. -/
def loose? (most : Nat) (text : Text) : Option (Nat × Text) :=
  number? 1 most (Text.trimStart text)

/-- A year after any white space: one to four digits, or a sign and one or more
digits. -/
def looseYear? (text : Text) : Option (Int × Text) :=
  let text := Text.trimStart text
  match text with
  | '-' :: rest =>
      (number? 1 rest.length rest).map fun (year, after) => (-(year : Int), after)
  | '+' :: rest => (number? 1 rest.length rest).map fun (year, after) => ((year : Int), after)
  | text => (number? 1 4 text).map fun (year, after) => ((year : Int), after)

/-- A date, and what follows it. -/
def looseDate? (text : Text) : Option (Date × Text) := do
  let (year, text) ← looseYear? text
  let text ← expect? '-' text
  let (month, text) ← loose? 2 text
  let text ← expect? '-' text
  let (day, text) ← loose? 2 text
  return (⟨year, month, day⟩, text)

/-- A date and time without zone. -/
def local? (text : Text) : Option Timestamp := do
  let (date, text) ← looseDate? text
  let text ← expect? 'T' text
  let (hour, text) ← loose? 2 text
  let text ← expect? ':' text
  let (minute, text) ← loose? 2 text
  let text ← expect? ':' text
  let (second, text) ← loose? 2 text
  let (nanos, text) ← optionalFraction? text
  if text.isEmpty then at? date hour minute second nanos 0 else none

/-- A date alone. -/
def dateOnly? (text : Text) : Option Timestamp := do
  let (date, text) ← looseDate? ((Text.withoutLast? 'Z' text).getD text)
  if text.isEmpty then at? date 0 0 0 0 0 else none

/-- An instant in the first of the three forms that the text has. -/
def read? (text : Text) : Option Timestamp :=
  (rfc3339? text).orElse fun _ => (local? text).orElse fun _ => dateOnly? text

end SparqlText.Timestamp
