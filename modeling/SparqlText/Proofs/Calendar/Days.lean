/-
# Days and dates

Days are counted through the years, and within a year through its months. The date of a
day exists, and its day is that day again; a date that exists is the date of its own day.
So every day has one date and every date that exists one day, before the year 0 and
through leap years alike.
-/

import Mathlib.Algebra.Ring.Nat
import SparqlText.Calendar

namespace SparqlText

namespace Calendar

/-! ## Years -/

/-- The number of days in a year. -/
def yearLength (year : Int) : Nat := if isLeapYear year then 366 else 365

theorem isLeapYear_iff (year : Int) :
    isLeapYear year = true ↔ year % 4 = 0 ∧ (year % 100 ≠ 0 ∨ year % 400 = 0) := by
  simp [isLeapYear]

/-- A year begins where the year before it ends. -/
theorem daysBeforeYear_add_one (year : Int) :
    daysBeforeYear (year + 1) = daysBeforeYear year + yearLength year := by
  unfold daysBeforeYear yearLength
  by_cases leap : isLeapYear year = true
  · have divides := (isLeapYear_iff year).mp leap
    rw [if_pos leap]
    omega
  · have other := mt (isLeapYear_iff year).mpr leap
    rw [if_neg leap]
    omega

theorem daysBeforeYear_mono {earlier later : Int} (before : earlier ≤ later) :
    daysBeforeYear earlier ≤ daysBeforeYear later := by
  unfold daysBeforeYear
  omega

/-- A day lies in the year that is found for it. The guess from the average length of a
year is wrong by one at most, as the leap days before a year never stray from their
average by as much as two days. -/
theorem yearOfDay_bounds (day : Int) :
    daysBeforeYear (yearOfDay day) ≤ day ∧ day < daysBeforeYear (yearOfDay day + 1) := by
  unfold yearOfDay
  dsimp only
  have stray (year : Int) : 146097 * year - 400 < 400 * daysBeforeYear year ∧
      400 * daysBeforeYear year < 146097 * year + 800 := by
    unfold daysBeforeYear
    omega
  split
  case isTrue early =>
    have before := stray (day * 400 / 146097 - 1)
    rw [Int.sub_add_cancel]
    omega
  case isFalse =>
    split
    case isTrue late =>
      have behind := stray (day * 400 / 146097 + 1 + 1)
      omega
    case isFalse => omega

/-- No other year has the day. -/
theorem yearOfDay_eq {day year : Int} (begun : daysBeforeYear year ≤ day)
    (ends : day < daysBeforeYear (year + 1)) : yearOfDay day = year := by
  obtain ⟨lower, upper⟩ := yearOfDay_bounds day
  rcases Int.lt_trichotomy (yearOfDay day) year with less | same | more
  · have := daysBeforeYear_mono (Int.add_one_le_of_lt less)
    omega
  · exact same
  · have := daysBeforeYear_mono (Int.add_one_le_of_lt more)
    omega

/-! ## Months -/

/-- The days of the months before one are passed over, and what is left is its day. -/
theorem monthAndDay_append (start : Nat) (before after : List Nat) {length day : Nat}
    (within : day < length) :
    monthAndDay start (before ++ length :: after) (before.sum + day) =
      (start + before.length, day + 1) := by
  induction before generalizing start with
  | nil => simp [monthAndDay, within]
  | cons first before ih =>
      have passed : ¬(first :: before).sum + day < first := by
        rw [List.sum_cons]
        omega
      have left : (first :: before).sum + day - first = before.sum + day := by
        rw [List.sum_cons]
        omega
      rw [List.cons_append, monthAndDay, if_neg passed, left, ih, List.length_cons]
      congr 1
      omega

/-- A day within months lies in one of them. -/
theorem exists_month {lengths : List Nat} {day : Nat} (within : day < lengths.sum) :
    ∃ before length after rest, lengths = before ++ length :: after ∧
      day = before.sum + rest ∧ rest < length := by
  induction lengths generalizing day with
  | nil => simp at within
  | cons first lengths ih =>
      by_cases own : day < first
      · exact ⟨[], first, lengths, day, rfl, by simp, own⟩
      · rw [List.sum_cons] at within
        have left : day - first < lengths.sum := by omega
        obtain ⟨before, length, after, rest, rfl, counted, inside⟩ := ih left
        refine ⟨first :: before, length, after, rest, rfl, ?_, inside⟩
        rw [List.sum_cons]
        omega

theorem length_monthLengths (leap : Bool) : (monthLengths leap).length = 12 := rfl

/-- The months of a year are as long as the year. -/
theorem sum_monthLengths (year : Int) :
    (monthLengths (isLeapYear year)).sum = yearLength year := by
  rw [yearLength]
  cases isLeapYear year with
  | false => rfl
  | true => rfl

/-- The length of a month, from the months before it. -/
theorem monthLength_eq {year : Int} {before after : List Nat} {length : Nat}
    (split : monthLengths (isLeapYear year) = before ++ length :: after) :
    monthLength year (1 + before.length) = length := by
  rw [monthLength, if_neg (by omega), split]
  simp

/-- A month that has days is one of the year. -/
theorem exists_months {year : Int} {month : Nat} (some : 0 < monthLength year month) :
    ∃ before after, monthLengths (isLeapYear year) = before ++ monthLength year month :: after ∧
      month = 1 + before.length := by
  rw [monthLength] at *
  by_cases none : month = 0
  · simp [none] at some
  · rw [if_neg none] at *
    have within : month - 1 < (monthLengths (isLeapYear year)).length := by
      rcases Nat.lt_or_ge (month - 1) (monthLengths (isLeapYear year)).length with within | beyond
      · exact within
      · rw [List.getD_eq_getElem?_getD, List.getElem?_eq_none beyond] at some
        exact absurd some (Nat.lt_irrefl 0)
    refine ⟨(monthLengths (isLeapYear year)).take (month - 1),
      (monthLengths (isLeapYear year)).drop (month - 1 + 1), ?_, ?_⟩
    · rw [List.getD_eq_getElem?_getD, List.getElem?_eq_getElem within, Option.getD_some,
        ← List.drop_eq_getElem_cons within, List.take_append_drop]
    · rw [List.length_take]
      omega

theorem monthLength_le (year : Int) (month : Nat) : monthLength year month ≤ 31 := by
  have each : ∀ leap, ∀ length ∈ monthLengths leap, length ≤ 31 := by decide
  by_cases some : 0 < monthLength year month
  · obtain ⟨before, after, split, _⟩ := exists_months some
    apply each (isLeapYear year)
    rw [split]
    exact List.mem_append_right _ List.mem_cons_self
  · omega

end Calendar

namespace Date

open Calendar

/-- A date that exists, by the months before its own and the days before its own. -/
theorem isValid_iff (date : Date) :
    date.isValid = true ↔ ∃ before length after rest,
      monthLengths (isLeapYear date.year) = before ++ length :: after ∧
        date.month = 1 + before.length ∧ date.day = rest + 1 ∧ rest < length := by
  simp only [isValid, Bool.and_eq_true, decide_eq_true_eq]
  constructor
  · rintro ⟨positive, within⟩
    obtain ⟨before, after, split, month⟩ := exists_months (Nat.lt_of_lt_of_le positive within)
    exact ⟨before, _, after, date.day - 1, split, month, by omega, by omega⟩
  · rintro ⟨before, length, after, rest, split, month, day, inside⟩
    rw [month, monthLength_eq split, day]
    omega

/-- The number of a day that lies in a month, from the days before the year and the
months before the month. -/
theorem dayNumber_eq {year : Int} {before after : List Nat} {length : Nat} (rest : Nat)
    (split : monthLengths (isLeapYear year) = before ++ length :: after) :
    dayNumber ⟨year, 1 + before.length, rest + 1⟩ =
      daysBeforeYear year + (before.sum + rest : Nat) - daysBeforeEpoch := by
  have passed : daysBeforeMonth year (1 + before.length) = before.sum := by
    rw [daysBeforeMonth, split, Nat.add_sub_cancel_left, List.take_left]
    rfl
  rw [dayNumber]
  dsimp only
  rw [passed]
  omega

/-- The date of the day that is so many days after the beginning of a year and of one of
its months. -/
theorem ofDayNumber_eq {year : Int} {before after : List Nat} {length rest : Nat}
    (split : monthLengths (isLeapYear year) = before ++ length :: after)
    (inside : rest < length) :
    ofDayNumber (daysBeforeYear year + (before.sum + rest : Nat) - daysBeforeEpoch) =
      ⟨year, 1 + before.length, rest + 1⟩ := by
  have total : before.sum + rest < yearLength year := by
    rw [← sum_monthLengths, split, List.sum_append, List.sum_cons]
    omega
  have next := daysBeforeYear_add_one year
  have found : yearOfDay (daysBeforeYear year + (before.sum + rest : Nat)) = year :=
    yearOfDay_eq (by omega) (by omega)
  rw [ofDayNumber]
  have left : (daysBeforeYear year + (before.sum + rest : Nat) - daysBeforeYear year).toNat =
      before.sum + rest := by omega
  simp only [Int.sub_add_cancel, found, split, left, monthAndDay_append 1 before after inside]

/-- Every day lies in a month of a year. -/
theorem exists_day (number : Int) :
    ∃ year before length after rest,
      monthLengths (isLeapYear year) = before ++ length :: after ∧ rest < length ∧
        number = daysBeforeYear year + (before.sum + rest : Nat) - daysBeforeEpoch := by
  obtain ⟨lower, upper⟩ := yearOfDay_bounds (number + daysBeforeEpoch)
  rw [daysBeforeYear_add_one, ← sum_monthLengths] at upper
  generalize yearOfDay (number + daysBeforeEpoch) = year at lower upper
  have within : (number + daysBeforeEpoch - daysBeforeYear year).toNat <
      (monthLengths (isLeapYear year)).sum := by omega
  obtain ⟨before, length, after, rest, split, counted, inside⟩ := exists_month within
  exact ⟨year, before, length, after, rest, split, inside, by omega⟩

/-- The date of a day is the one date that exists and has that day. -/
theorem ofDayNumber_eq_iff {number : Int} {date : Date} :
    ofDayNumber number = date ↔ date.isValid = true ∧ date.dayNumber = number := by
  constructor
  · rintro rfl
    obtain ⟨year, before, length, after, rest, split, inside, rfl⟩ := exists_day number
    rw [ofDayNumber_eq split inside, dayNumber_eq rest split]
    exact ⟨(isValid_iff _).mpr ⟨before, length, after, rest, split, rfl, rfl, inside⟩, rfl⟩
  · rintro ⟨valid, rfl⟩
    obtain ⟨year, month, day⟩ := date
    obtain ⟨before, length, after, rest, split, rfl, rfl, inside⟩ := (isValid_iff _).mp valid
    rw [dayNumber_eq rest split, ofDayNumber_eq split inside]

theorem month_day_bounds {date : Date} (valid : date.isValid = true) :
    date.month ≤ 12 ∧ date.day ≤ 31 := by
  have long := monthLength_le date.year date.month
  obtain ⟨before, length, after, rest, split, month, day, inside⟩ := (isValid_iff date).mp valid
  rw [isValid, Bool.and_eq_true, decide_eq_true_eq, decide_eq_true_eq] at valid
  have count := congrArg List.length split
  rw [length_monthLengths, List.length_append, List.length_cons] at count
  omega

end Date

end SparqlText
