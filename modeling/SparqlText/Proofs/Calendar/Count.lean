/-
# Counting days

The calendar says which date follows a date: the next day of the month, or the first day of
the next month, or the first day of the next year. The number of a day is found by counting
along that from 1970-01-01, forwards and backwards (`counted_iff`). Leap years and lengths of
months enter the count only through the step from one date to the next.
-/

import Mathlib.Data.Int.Init
import SparqlText.Proofs.Calendar.Days

namespace SparqlText.Date

open Calendar

/-- The date of the day after a date's own. -/
def next (date : Date) : Date :=
  if date.day < monthLength date.year date.month then { date with day := date.day + 1 }
  else if date.month < 12 then ⟨date.year, date.month + 1, 1⟩
  else ⟨date.year + 1, 1, 1⟩

/-- 1970-01-01. -/
def epoch : Date := ⟨1970, 1, 1⟩

/-- A date that exists is found so many days after 1970-01-01 by going from date to date. A
negative number is of days before. -/
inductive Counted : Int → Date → Prop
  | epoch : Counted 0 epoch
  | next {number : Int} {date : Date} (counted : Counted number date) :
      Counted (number + 1) date.next
  | previous {number : Int} {date : Date} (valid : date.isValid = true)
      (counted : Counted (number + 1) date.next) : Counted number date

/-! ## One day -/

/-- The date after a date that exists exists and has the next number. -/
theorem next_spec {date : Date} (valid : date.isValid = true) :
    date.next.isValid = true ∧ date.next.dayNumber = date.dayNumber + 1 := by
  obtain ⟨year, month, day⟩ := date
  obtain ⟨before, length, after, rest, split, rfl, rfl, inside⟩ := (isValid_iff _).mp valid
  dsimp only at split
  have number := dayNumber_eq rest split
  have months := length_monthLengths (isLeapYear year)
  rw [split, List.length_append, List.length_cons] at months
  rw [next]
  dsimp only
  rw [monthLength_eq split]
  by_cases within : rest + 1 < length
  · -- The month goes on.
    rw [if_pos within]
    refine ⟨(isValid_iff _).mpr ⟨before, length, after, rest + 1, split, rfl, rfl, within⟩, ?_⟩
    rw [dayNumber_eq (rest + 1) split, number]
    omega
  · rw [if_neg within]
    cases after with
    | cons second after =>
        -- The next month begins.
        have later : monthLengths (isLeapYear year) = (before ++ [length]) ++ second :: after := by
          rw [split, List.append_assoc, List.singleton_append]
        have position : 1 + before.length + 1 = 1 + (before ++ [length]).length := by
          rw [List.length_append, List.length_singleton, Nat.add_assoc]
        have some : 0 < second := by
          have each : ∀ leap, ∀ length ∈ monthLengths leap, 0 < length := by decide
          apply each (isLeapYear year)
          rw [later]
          exact List.mem_append_right _ List.mem_cons_self
        rw [List.length_cons] at months
        rw [if_pos (by omega), position]
        refine ⟨(isValid_iff _).mpr ⟨_, second, after, 0, later, rfl, rfl, some⟩, ?_⟩
        rw [dayNumber_eq 0 later, number, List.sum_append, List.sum_singleton]
        omega
    | nil =>
        -- The next year begins.
        rw [List.length_nil] at months
        have whole := sum_monthLengths year
        rw [split, List.sum_append, List.sum_singleton] at whole
        obtain ⟨later, opened⟩ : ∃ later, monthLengths (isLeapYear (year + 1)) =
            [] ++ 31 :: later := ⟨_, rfl⟩
        rw [if_neg (by omega)]
        refine ⟨(isValid_iff _).mpr ⟨[], 31, later, 0, opened, rfl, rfl, by decide⟩, ?_⟩
        have first := dayNumber_eq 0 opened
        rw [List.length_nil, List.sum_nil] at first
        rw [first, number, daysBeforeYear_add_one]
        omega

/-- The dates of two days that follow each other follow each other. -/
theorem next_ofDayNumber (number : Int) : (ofDayNumber number).next = ofDayNumber (number + 1) := by
  obtain ⟨valid, same⟩ := ofDayNumber_eq_iff.mp (Eq.refl (ofDayNumber number))
  obtain ⟨sound, following⟩ := next_spec valid
  rw [same] at following
  exact (ofDayNumber_eq_iff.mpr ⟨sound, following⟩).symm

/-! ## All days -/

theorem counted_ofDayNumber (number : Int) : Counted number (ofDayNumber number) := by
  induction number using Int.induction_on with
  | zero =>
      have start : ofDayNumber 0 = epoch := by decide
      exact start ▸ .epoch
  | succ number ih =>
      rw [← next_ofDayNumber]
      exact ih.next
  | pred number ih =>
      have valid := (ofDayNumber_eq_iff.mp (Eq.refl (ofDayNumber (-number - 1)))).1
      apply Counted.previous valid
      rw [next_ofDayNumber, Int.sub_add_cancel]
      exact ih

/-- A date exists and has a number exactly where counting leads to it by that number. -/
theorem counted_iff (number : Int) (date : Date) :
    Counted number date ↔ date.isValid = true ∧ date.dayNumber = number := by
  constructor
  · intro counted
    induction counted with
    | epoch => decide
    | next _ ih =>
        obtain ⟨valid, rfl⟩ := ih
        exact next_spec valid
    | previous valid _ ih =>
        have following := (next_spec valid).2
        exact ⟨valid, by omega⟩
  · intro found
    rw [← ofDayNumber_eq_iff.mpr found]
    exact counted_ofDayNumber number

end SparqlText.Date
