/-
# Timestamps read back

A date and a time of the day are written in fields of a fixed width with marks between
them, and a reader that knows the widths finds the fields again (`rfc3339?_fields`). What
they say is put together to the instant that they were taken from: the day by the
calendar, the second by the time of the day, and a leap second by the second that it
follows. Only what is below a millisecond has not been written.
-/

import SparqlText.Proofs.Calendar.Days
import SparqlText.Proofs.Decimal.Numeral
import SparqlText.Timestamp.Reader

namespace SparqlText

/-! ## Fields -/

namespace Decimal

/-- A text of so many digits. -/
def IsField (width : Nat) (digits : Text) : Prop := digits.length = width ∧ OfDigits digits

theorem ofDigits_padded (width value : Nat) : OfDigits (padded width value) :=
  ofDigits_append_iff.mpr ⟨ofDigits_zeros _, ofDigits_digits value⟩

theorem value_padded (width value : Nat) : Decimal.value (padded width value) = value :=
  value_filled _ value

theorem isField_padded {width value : Nat} (some : 0 < width) (below : value < 10 ^ width) :
    IsField width (padded width value) := by
  refine ⟨?_, ofDigits_padded width value⟩
  have short : (digits value).length ≤ width :=
    (Nat.length_toDigits_le_iff (by decide) some).mpr below
  rw [padded, List.length_append, List.length_replicate]
  omega

end Decimal

namespace Timestamp

open Decimal (IsField isField_padded value_padded)

/-- A field is read whole, whatever follows it, where no more digits than it has are taken. -/
theorem number?_of_le {least width : Nat} {digits : Text} (enough : least ≤ width)
    (field : IsField width digits) (rest : Text) :
    number? least width (digits ++ rest) = some (Decimal.value digits, rest) := by
  obtain ⟨rfl, inside⟩ := field
  have leading : leadingDigits digits.length (digits ++ rest) = digits := by
    rw [leadingDigits, List.take_left, List.takeWhile_eq_self_iff]
    exact inside
  rw [number?, leading, if_neg (Nat.not_lt.mpr enough), List.drop_left]

theorem number?_field {width : Nat} {digits : Text} (field : IsField width digits)
    (rest : Text) : number? width width (digits ++ rest) = some (Decimal.value digits, rest) :=
  number?_of_le (Nat.le_refl width) field rest

section Steps

variable {α : Type}

theorem bind_field {width : Nat} {digits : Text} (field : IsField width digits) (rest : Text)
    (next : Nat × Text → Option α) :
    (number? width width (digits ++ rest)).bind next = next (Decimal.value digits, rest) := by
  rw [number?_field field, Option.bind_some]

theorem bind_expect (char : Char) (rest : Text) (next : Text → Option α) :
    (expect? char (char :: rest)).bind next = next rest := by
  rw [expect?, if_pos rfl, Option.bind_some]

theorem bind_separator {char : Char} (apart : isSeparator char = true) (rest : Text)
    (next : Text → Option α) : (separator? (char :: rest)).bind next = next rest := by
  rw [separator?, if_pos apart, Option.bind_some]

end Steps

/-- A date and a time of the day in fields are read as the numbers that the fields are,
and what follows them as a fraction and a zone. -/
theorem rfc3339?_fields {year month day hour minute second : Text} (years : IsField 4 year)
    (months : IsField 2 month) (days : IsField 2 day) (hours : IsField 2 hour)
    (minutes : IsField 2 minute) (seconds : IsField 2 second) (rest : Text) :
    rfc3339? (year ++ '-' :: month ++ '-' :: day ++ 'T' :: hour ++ ':' :: minute
        ++ ':' :: second ++ rest) =
      (optionalFraction? rest).bind fun (nanos, text) =>
        (zone? text).bind fun (ahead, text) =>
          if text.isEmpty then
            at? ⟨Decimal.value year, Decimal.value month, Decimal.value day⟩
              (Decimal.value hour) (Decimal.value minute) (Decimal.value second) nanos ahead
          else none := by
  simp only [List.append_assoc, List.cons_append]
  unfold rfc3339?
  dsimp only [Option.bind_eq_bind]
  rw [bind_field years, bind_expect, bind_field months, bind_expect, bind_field days,
    bind_separator rfl, bind_field hours, bind_expect, bind_field minutes, bind_expect,
    bind_field seconds]

/-! ## Milliseconds -/

/-- An instant cut to whole milliseconds. -/
def toMillisecond (timestamp : Timestamp) : Timestamp where
  seconds := timestamp.seconds
  nanoseconds := timestamp.nanoseconds / 1000000 * 1000000
  nanoseconds_lt := by
    have := timestamp.nanoseconds_lt
    omega
  leap_ends_minute := by
    intro leap
    have := timestamp.leap_ends_minute
    omega

/-- A fraction of three digits is milliseconds. -/
theorem optionalFraction?_milliseconds {count : Nat} (below : count < 1000) (rest : Text) :
    optionalFraction? ('.' :: Decimal.padded 3 count ++ 'Z' :: rest) =
      some (count * 1000000, 'Z' :: rest) := by
  obtain ⟨long, inside⟩ : IsField 3 (Decimal.padded 3 count) :=
    isField_padded (by decide) below
  have outside : Char.isDigit 'Z' = false := rfl
  have some : (Decimal.padded 3 count).isEmpty = false := by
    rw [List.isEmpty_eq_false_iff, ← List.length_pos_iff, long]
    decide
  rw [List.cons_append, optionalFraction?, fraction?]
  simp only [Text.takeWhile_run inside outside, Text.dropWhile_run inside outside, some,
    Bool.false_eq_true, if_false]
  rw [List.take_of_length_le (by omega), long, value_padded]

/-! ## Instants -/

section Instants

variable {timestamp : Timestamp}

/-- The date of an instant exists, and is that of its day. -/
theorem isValid_date (timestamp : Timestamp) :
    timestamp.date.isValid = true ∧
      timestamp.date.dayNumber = timestamp.seconds / (secondsPerDay : Int) :=
  Date.ofDayNumber_eq_iff.mp rfl

theorem isWritable_iff :
    timestamp.isWritable = true ↔ 0 ≤ timestamp.date.year ∧ timestamp.date.year ≤ 9999 := by
  rw [isWritable, isPlainYear, Bool.and_eq_true, decide_eq_true_eq, decide_eq_true_eq]

theorem midnight?_date (writable : timestamp.isWritable = true) :
    midnight? timestamp.date =
      some (timestamp.seconds / (secondsPerDay : Int) * (secondsPerDay : Int)) := by
  obtain ⟨valid, number⟩ := timestamp.isValid_date
  obtain ⟨earliest, latest⟩ := isWritable_iff.mp writable
  have within : (timestamp.date.isValid && earliestYear ≤ timestamp.date.year &&
      timestamp.date.year ≤ latestYear) = true := by
    rw [valid, Bool.true_and, Bool.and_eq_true, decide_eq_true_eq, decide_eq_true_eq]
    unfold earliestYear latestYear
    omega
  rw [midnight?, if_pos within, number]

theorem of?_eq (timestamp : Timestamp) :
    of? timestamp.seconds timestamp.nanoseconds = some timestamp :=
  dif_pos ⟨timestamp.nanoseconds_lt, timestamp.leap_ends_minute⟩

theorem isLeap_iff : timestamp.isLeap = true ↔ nanosPerSecond ≤ timestamp.nanoseconds := by
  rw [isLeap, decide_eq_true_eq]

theorem secondOfDay_eq (timestamp : Timestamp) :
    (timestamp.secondOfDay : Int) = timestamp.seconds % 86400 := by
  unfold secondOfDay secondsPerDay
  omega

/-- The field of an instant's second is 60 within a leap second alone, and stands there for
the second that it follows. -/
theorem second_field (timestamp : Timestamp) :
    let field := timestamp.secondOfDay % 60 + if timestamp.isLeap then 1 else 0
    field ≤ 60 ∧ min field 59 = timestamp.secondOfDay % 60 ∧
      (field = 60 ↔ timestamp.isLeap = true) := by
  have whole := timestamp.secondOfDay_eq
  intro field
  cases leap : timestamp.isLeap with
  | true =>
      have last := timestamp.leap_ends_minute (isLeap_iff.mp leap)
      have full : field = 60 := by
        simp only [field, leap, if_true]
        omega
      exact ⟨by omega, by omega, fun _ => rfl, fun _ => full⟩
  | false =>
      have same : field = timestamp.secondOfDay % 60 := by simp [field, leap]
      have other : field ≠ 60 := by omega
      exact ⟨by omega, by omega, fun full => absurd full other, nofun⟩

theorem fraction_lt (timestamp : Timestamp) : timestamp.fraction / 1000000 < 1000 := by
  have bound := timestamp.nanoseconds_lt
  rw [fraction]
  by_cases leap : timestamp.isLeap = true
  · rw [if_pos leap]
    unfold nanosPerSecond at *
    omega
  · have below := mt isLeap_iff.mpr leap
    rw [if_neg leap]
    unfold nanosPerSecond at *
    omega

/-- The nanoseconds of whole milliseconds, with those of a leap second put back. -/
theorem nanoseconds_toMillisecond (timestamp : Timestamp) :
    timestamp.toMillisecond.nanoseconds =
      timestamp.fraction / 1000000 * 1000000 +
        if timestamp.isLeap then nanosPerSecond else 0 := by
  rw [toMillisecond, fraction]
  dsimp only
  by_cases leap : timestamp.isLeap = true
  · have begun := isLeap_iff.mp leap
    rw [if_pos leap, if_pos leap]
    unfold nanosPerSecond at *
    omega
  · rw [if_neg leap, if_neg leap, Nat.add_zero]

/-- An instant cut to whole milliseconds, from its date and the time of its day. -/
theorem at?_date (writable : timestamp.isWritable = true) :
    at? timestamp.date (timestamp.secondOfDay / 3600) (timestamp.secondOfDay / 60 % 60)
        (timestamp.secondOfDay % 60 + if timestamp.isLeap then 1 else 0)
        (timestamp.fraction / 1000000 * 1000000) 0 =
      some timestamp.toMillisecond := by
  have whole := timestamp.secondOfDay_eq
  obtain ⟨fits, second, leap⟩ := timestamp.second_field
  have inside : (decide (timestamp.secondOfDay / 3600 ≤ 23) &&
      decide (timestamp.secondOfDay / 60 % 60 ≤ 59) &&
      decide (timestamp.secondOfDay % 60 + (if timestamp.isLeap then 1 else 0) ≤ 60)) = true := by
    simp only [Bool.and_eq_true, decide_eq_true_eq]
    omega
  have instant : timestamp.seconds / (secondsPerDay : Int) * (secondsPerDay : Int) +
      (timestamp.secondOfDay / 3600 * 3600 + timestamp.secondOfDay / 60 % 60 * 60 +
        timestamp.secondOfDay % 60 : Nat) - 0 = timestamp.toMillisecond.seconds := by
    have cut : timestamp.toMillisecond.seconds = timestamp.seconds := rfl
    unfold secondsPerDay
    omega
  rw [at?, if_pos inside, midnight?_date writable, Option.bind_some, second, instant]
  simp only [leap]
  rw [← nanoseconds_toMillisecond, of?_eq]

/-! ## Written instants -/

/-- An instant that can be written is read back from its text, cut to whole
milliseconds. -/
theorem rfc3339?_millisecondText (writable : timestamp.isWritable = true) :
    rfc3339? timestamp.millisecondText = some timestamp.toMillisecond := by
  have whole := timestamp.secondOfDay_eq
  obtain ⟨earliest, latest⟩ := isWritable_iff.mp writable
  obtain ⟨month, day⟩ := Date.month_day_bounds timestamp.isValid_date.1
  have second := timestamp.second_field.1
  have year : yearText timestamp.date.year = Decimal.padded 4 timestamp.date.year.toNat :=
    if_pos writable
  have zone : zone? ['Z'] = some (0, []) := rfl
  rw [millisecondText, wholeText, year, List.append_assoc _ _ ['Z'],
    rfc3339?_fields (isField_padded (by decide) (by omega)) (isField_padded (by decide) (by omega))
      (isField_padded (by decide) (by omega)) (isField_padded (by decide) (by omega))
      (isField_padded (by decide) (by omega)) (isField_padded (by decide) (by omega)),
    optionalFraction?_milliseconds timestamp.fraction_lt, Option.bind_some]
  dsimp only
  rw [zone, Option.bind_some]
  simp only [value_padded, List.isEmpty_nil, if_true, Int.toNat_of_nonneg earliest]
  exact at?_date writable

/-- The last moment of a leap second, at the end of the year 2016. -/
example :
    (of? 1483228799 1999999999).map millisecondText =
      some "2016-12-31T23:59:60.999Z".toList := by
  decide

end Instants

end Timestamp

end SparqlText
