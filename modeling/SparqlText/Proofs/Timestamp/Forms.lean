/-
# Timestamps in every form

A date, a time of the day and a fraction of a second are written in fields of digits, with
no zone, with the letter of universal time or with an offset. Three readers are tried on
such a text one after the other. At most one of them takes it: each form either lacks what
the reader wants next or has something left over. What is read is therefore the instant that
the fields say, and nothing where they say none (`read?_written`).
-/

import SparqlText.Proofs.Calendar.Count
import SparqlText.Proofs.Results.RoundTrip
import SparqlText.Proofs.Timestamp.ReadBack

namespace SparqlText

namespace Decimal

/-- Digits denote less than the next power of ten. -/
theorem value_lt {digits : Text} (inside : OfDigits digits) :
    value digits < 10 ^ digits.length := by
  induction digits with
  | nil => decide
  | cons first rest ih =>
      have below := ih fun char member => inside char (List.mem_cons_of_mem _ member)
      obtain ⟨_, high⟩ := toNat_of_isDigit (inside first List.mem_cons_self)
      have lead : value [first] ≤ 9 := by
        rw [value, Nat.ofDigitChars_cons, Nat.ofDigitChars_nil]
        show 10 * 0 + (first.toNat - 48) ≤ 9
        omega
      have whole := value_append [first] rest
      rw [List.singleton_append] at whole
      rw [whole, List.length_cons, Nat.pow_succ]
      have most : value [first] * 10 ^ rest.length ≤ 9 * 10 ^ rest.length :=
        Nat.mul_le_mul_right _ lead
      omega

end Decimal

namespace Timestamp

open Decimal (IsField isField_padded value_padded OfDigits)

/-! ## Written forms -/

/-- A date in fields of four, two and two digits, which may or may not exist. -/
structure DateFields where
  year : Nat
  month : Nat
  day : Nat
  year_lt : year < 10 ^ 4 := by decide
  month_lt : month < 10 ^ 2 := by decide
  day_lt : day < 10 ^ 2 := by decide

/-- A date and a time of the day in fields, with the digits of a fraction of a second, of which
there may be none. -/
structure Fields extends DateFields where
  hour : Nat
  minute : Nat
  second : Nat
  digits : Text := []
  hour_lt : hour < 10 ^ 2 := by decide
  minute_lt : minute < 10 ^ 2 := by decide
  second_lt : second < 10 ^ 2 := by decide
  inside : OfDigits digits := by decide

/-- An offset from universal time of less than a day. -/
structure Offset where
  behind : Bool
  hours : Nat
  minutes : Nat
  hours_le : hours ≤ 23 := by decide
  minutes_le : minutes ≤ 59 := by decide

namespace DateFields

def date (fields : DateFields) : Date := ⟨fields.year, fields.month, fields.day⟩

def text (fields : DateFields) : Text :=
  Decimal.padded 4 fields.year ++ '-' :: Decimal.padded 2 fields.month
    ++ '-' :: Decimal.padded 2 fields.day

/-- The beginning of the day in universal time. -/
def midnight (fields : DateFields) : Timestamp where
  seconds := fields.date.dayNumber * secondsPerDay
  nanoseconds := 0
  nanoseconds_lt := by decide
  leap_ends_minute := nofun

end DateFields

namespace Fields

/-- The time of the day without a fraction. -/
def timeText (fields : Fields) : Text :=
  'T' :: Decimal.padded 2 fields.hour ++ ':' :: Decimal.padded 2 fields.minute
    ++ ':' :: Decimal.padded 2 fields.second

/-- A point and digits, if there are any. -/
def fractionText (fields : Fields) : Text :=
  if fields.digits = [] then [] else '.' :: fields.digits

def text (fields : Fields) : Text :=
  fields.toDateFields.text ++ (fields.timeText ++ fields.fractionText)

/-- The number of the first nine digits, with zeros for those that are missing. -/
def nanoseconds (fields : Fields) : Nat :=
  Decimal.value ((fields.digits ++ List.replicate 9 '0').take 9)

/-- Whether there is such a date and such a time, a leap second being second 60. -/
def Occurs (fields : Fields) : Prop :=
  fields.date.isValid = true ∧ fields.hour ≤ 23 ∧ fields.minute ≤ 59 ∧ fields.second ≤ 60

instance (fields : Fields) : Decidable fields.Occurs :=
  inferInstanceAs (Decidable (_ ∧ _ ∧ _ ∧ _))

end Fields

namespace Offset

/-- The minutes by which local time is ahead of universal time. -/
def ahead (offset : Offset) : Int :=
  if offset.behind then -(offset.hours * 60 + offset.minutes : Nat)
  else (offset.hours * 60 + offset.minutes : Nat)

def text (offset : Offset) : Text :=
  (if offset.behind then '-' else '+') :: Decimal.padded 2 offset.hours
    ++ ':' :: Decimal.padded 2 offset.minutes

end Offset

/-! ## Instants -/

/-- The instant so many minutes before another. -/
def minus (timestamp : Timestamp) (minutes : Int) : Timestamp where
  seconds := timestamp.seconds - minutes * 60
  nanoseconds := timestamp.nanoseconds
  nanoseconds_lt := timestamp.nanoseconds_lt
  leap_ends_minute := by
    intro leap
    have := timestamp.leap_ends_minute leap
    omega

theorem minus_zero (timestamp : Timestamp) : timestamp.minus 0 = timestamp := by
  rw [minus]
  cases timestamp
  simp

namespace Fields

theorem nanoseconds_lt_nanosPerSecond (fields : Fields) : fields.nanoseconds < nanosPerSecond := by
  have long : ((fields.digits ++ List.replicate 9 '0').take 9).length = 9 := by
    rw [List.length_take, List.length_append, List.length_replicate]
    omega
  have inside : OfDigits ((fields.digits ++ List.replicate 9 '0').take 9) := by
    intro char member
    rcases List.mem_append.mp (List.mem_of_mem_take member) with own | zero
    · exact fields.inside char own
    · exact Decimal.ofDigits_zeros 9 char zero
  have below := Decimal.value_lt inside
  rw [long] at below
  exact below

/-- The instant that fields say, taken as universal time: so many seconds since the beginning of
the day, and the fraction. Second 60 is second 59 and a leap second. -/
def instant (fields : Fields) : Timestamp where
  seconds := fields.date.dayNumber * secondsPerDay
    + (fields.hour * 3600 + fields.minute * 60 + min fields.second 59 : Nat)
  nanoseconds := fields.nanoseconds + if fields.second = 60 then nanosPerSecond else 0
  nanoseconds_lt := by
    have := fields.nanoseconds_lt_nanosPerSecond
    split <;> omega
  leap_ends_minute := by
    have := fields.nanoseconds_lt_nanosPerSecond
    unfold secondsPerDay
    intro leap
    split at leap <;> omega

end Fields

/-! ## What the fields come to -/

/-- The years of four digits are among those that can be read. -/
theorem midnight?_fields (fields : DateFields) :
    midnight? fields.date =
      if fields.date.isValid then some (fields.date.dayNumber * secondsPerDay) else none := by
  have below := fields.year_lt
  have within : (decide (earliestYear ≤ fields.date.year) &&
      decide (fields.date.year ≤ latestYear)) = true := by
    rw [Bool.and_eq_true, decide_eq_true_eq, decide_eq_true_eq, DateFields.date]
    unfold earliestYear latestYear
    dsimp only
    omega
  rw [midnight?, Bool.and_assoc, within, Bool.and_true]

theorem at?_fields (fields : Fields) (minutes : Int) :
    at? fields.date fields.hour fields.minute fields.second fields.nanoseconds (minutes * 60) =
      if fields.Occurs then some (fields.instant.minus minutes) else none := by
  have inside : (decide (fields.hour ≤ 23) && decide (fields.minute ≤ 59) &&
      decide (fields.second ≤ 60)) = true ↔
      fields.hour ≤ 23 ∧ fields.minute ≤ 59 ∧ fields.second ≤ 60 := by
    simp only [Bool.and_eq_true, decide_eq_true_eq, and_assoc]
  rw [at?, midnight?_fields]
  by_cases time : fields.hour ≤ 23 ∧ fields.minute ≤ 59 ∧ fields.second ≤ 60
  · rw [if_pos (inside.mpr time)]
    by_cases valid : fields.date.isValid = true
    · have occurs : fields.Occurs := ⟨valid, time⟩
      rw [if_pos valid, if_pos occurs, Option.bind_some]
      exact of?_eq (fields.instant.minus minutes)
    · have never : ¬fields.Occurs := fun occurs => valid occurs.1
      rw [if_neg valid, if_neg never, Option.bind_none]
  · have never : ¬fields.Occurs := fun occurs => time occurs.2
    rw [if_neg (mt inside.mp time), if_neg never]

theorem at?_midnight (fields : DateFields) :
    at? fields.date 0 0 0 0 0 =
      if fields.date.isValid then some fields.midnight else none := by
  have inside : (decide (0 ≤ 23) && decide (0 ≤ 59) && decide (0 ≤ 60)) = true := by decide
  have begun : fields.date.dayNumber * (secondsPerDay : Int) +
      (0 * 3600 + 0 * 60 + min 0 59 : Nat) - 0 = fields.midnight.seconds := by
    show _ = fields.date.dayNumber * (secondsPerDay : Int)
    omega
  rw [at?, midnight?_fields, if_pos inside]
  by_cases valid : fields.date.isValid = true
  · rw [if_pos valid, if_pos valid, Option.bind_some, begun]
    exact of?_eq fields.midnight
  · rw [if_neg valid, if_neg valid, Option.bind_none]

/-! ## Reading fields -/

theorem DateFields.year_field (fields : DateFields) : IsField 4 (Decimal.padded 4 fields.year) :=
  isField_padded (by decide) fields.year_lt

/-- A number of one or two digits is written as a field of two. -/
theorem two_field {value : Nat} (below : value < 10 ^ 2) : IsField 2 (Decimal.padded 2 value) :=
  isField_padded (by decide) below

/-- A field begins with a digit. -/
theorem exists_digit {width : Nat} {digits : Text} (some : 0 < width)
    (field : IsField width digits) :
    ∃ first rest, digits = first :: rest ∧ first.isDigit = true := by
  obtain ⟨rfl, inside⟩ := field
  cases digits with
  | nil => exact absurd some (Nat.lt_irrefl 0)
  | cons first rest => exact ⟨first, rest, rfl, inside first List.mem_cons_self⟩

theorem trimStart_field {width : Nat} {digits : Text} (some : 0 < width)
    (field : IsField width digits) (rest : Text) :
    Text.trimStart (digits ++ rest) = digits ++ rest := by
  obtain ⟨first, others, rfl, digit⟩ := exists_digit some field
  exact List.dropWhile_cons_of_neg (by simp [Text.isBlank_of_isDigit digit])

theorem bind_loose {α : Type} {digits : Text} (field : IsField 2 digits) (rest : Text)
    (next : Nat × Text → Option α) :
    (loose? 2 (digits ++ rest)).bind next = next (Decimal.value digits, rest) := by
  rw [loose?, trimStart_field (by decide) field, number?_of_le (by decide) field,
    Option.bind_some]

theorem looseYear?_field {digits : Text} (field : IsField 4 digits) (rest : Text) :
    looseYear? (digits ++ rest) = some ((Decimal.value digits : Int), rest) := by
  have least : 1 ≤ 4 := by decide
  have read := number?_of_le least field rest
  have trimmed := trimStart_field (by decide) field rest
  obtain ⟨first, others, rfl, digit⟩ := exists_digit (by decide) field
  rw [looseYear?, trimmed]
  dsimp only
  split
  case h_1 minus =>
    cases minus
    cases digit
  case h_2 plus =>
    cases plus
    cases digit
  case h_3 => rw [read, Option.map_some]

theorem looseDate?_text (fields : DateFields) (rest : Text) :
    looseDate? (fields.text ++ rest) = some (fields.date, rest) := by
  simp only [DateFields.text, List.append_assoc, List.cons_append]
  unfold looseDate?
  dsimp only [Option.bind_eq_bind]
  rw [looseYear?_field fields.year_field, Option.bind_some, bind_expect,
    bind_loose (two_field fields.month_lt), bind_expect, bind_loose (two_field fields.day_lt)]
  simp only [value_padded]
  rfl

/-- A date and a time of the day are read as their numbers, and what follows them as a fraction
and a zone. -/
theorem rfc3339?_text (fields : Fields) (rest : Text) :
    rfc3339? (fields.toDateFields.text ++ (fields.timeText ++ rest)) =
      (optionalFraction? rest).bind fun (nanos, text) =>
        (zone? text).bind fun (ahead, text) =>
          if text.isEmpty then
            at? fields.date fields.hour fields.minute fields.second nanos ahead
          else none := by
  have read := rfc3339?_fields fields.year_field (two_field fields.month_lt)
    (two_field fields.day_lt) (two_field fields.hour_lt) (two_field fields.minute_lt)
    (two_field fields.second_lt) rest
  simp only [value_padded, List.append_assoc, List.cons_append] at read
  simp only [DateFields.text, Fields.timeText, List.append_assoc, List.cons_append]
  exact read

theorem local?_text (fields : Fields) (rest : Text) :
    local? (fields.toDateFields.text ++ (fields.timeText ++ rest)) =
      (optionalFraction? rest).bind fun (nanos, text) =>
        if text.isEmpty then at? fields.date fields.hour fields.minute fields.second nanos 0
        else none := by
  simp only [Fields.timeText, List.append_assoc, List.cons_append]
  unfold local?
  dsimp only [Option.bind_eq_bind]
  rw [looseDate?_text, Option.bind_some]
  dsimp only
  rw [bind_expect, bind_loose (two_field fields.hour_lt), bind_expect,
    bind_loose (two_field fields.minute_lt), bind_expect, bind_loose (two_field fields.second_lt)]
  simp only [value_padded]

/-! ## Fractions and zones -/

/-- Text that neither goes on with the digits of a fraction nor begins one. -/
def EndsFraction (rest : Text) : Prop :=
  ∀ char, rest.head? = some char → char.isDigit = false ∧ char ≠ '.'

/-- Zeros for the digits that are missing are the power of ten that those that are there count
in. -/
theorem value_nine (digits : Text) :
    Decimal.value ((digits ++ List.replicate 9 '0').take 9) =
      Decimal.value (digits.take 9) * Nat.pow 10 (9 - (digits.take 9).length) := by
  rw [List.take_append, List.take_replicate, Decimal.value_append, Decimal.value_zeros,
    List.length_replicate, List.length_take, Nat.add_zero]
  have missing : min (9 - digits.length) 9 = 9 - min 9 digits.length := by omega
  rw [missing]
  rfl

theorem optionalFraction?_text (fields : Fields) {rest : Text} (ends : EndsFraction rest) :
    optionalFraction? (fields.fractionText ++ rest) = some (fields.nanoseconds, rest) := by
  rw [Fields.fractionText, Fields.nanoseconds, value_nine]
  by_cases bare : fields.digits = []
  · rw [if_pos bare, bare, List.nil_append]
    unfold optionalFraction?
    split
    case h_1 after => exact absurd rfl (ends '.' rfl).2
    case h_2 => rfl
  · have some : fields.digits.isEmpty = false := List.isEmpty_eq_false_iff.mpr bare
    have whole : (fields.digits ++ rest).takeWhile Char.isDigit = fields.digits ∧
        (fields.digits ++ rest).dropWhile Char.isDigit = rest := by
      cases rest with
      | nil =>
          rw [List.append_nil]
          exact ⟨List.takeWhile_eq_self_iff.mpr fields.inside,
            List.dropWhile_eq_nil_iff.mpr fields.inside⟩
      | cons stop after =>
          have outside := (ends stop rfl).1
          exact ⟨Text.takeWhile_run fields.inside outside,
            Text.dropWhile_run fields.inside outside⟩
    rw [if_neg bare, List.cons_append, optionalFraction?, fraction?]
    simp only [whole.1, whole.2, some, Bool.false_eq_true, if_false]

/-- Behind a sign the hours and minutes of an offset are read. -/
theorem zone?_signed {mark : Char} {sign : Int} (other : mark ≠ 'Z' ∧ mark ≠ 'z')
    (signed : ∀ rest, zoneSign? (mark :: rest) = some (sign, rest)) (offset : Offset) :
    zone? (mark :: Decimal.padded 2 offset.hours ++ ':' :: Decimal.padded 2 offset.minutes) =
      some (sign * (offset.hours * 3600 + offset.minutes * 60 : Nat), []) := by
  have hours := two_field (Nat.lt_of_le_of_lt offset.hours_le (by decide))
  have minutes := two_field (Nat.lt_of_le_of_lt offset.minutes_le (by decide))
  have within : (decide (offset.hours ≤ 23) && decide (offset.minutes ≤ 59)) = true := by
    simp [offset.hours_le, offset.minutes_le]
  rw [List.cons_append]
  unfold zone?
  split
  case h_1 letter => exact absurd (List.cons.inj letter).1 other.1
  case h_2 letter => exact absurd (List.cons.inj letter).1 other.2
  case h_3 =>
    dsimp only [Option.bind_eq_bind]
    rw [signed, Option.bind_some]
    dsimp only
    rw [bind_field hours]
    dsimp only
    rw [bind_expect, ← List.append_nil (Decimal.padded 2 offset.minutes), bind_field minutes]
    simp only [value_padded]
    rw [if_pos within]
    rfl

/-- An offset is read back from its text, in seconds. -/
theorem zone?_text (offset : Offset) : zone? offset.text = some (offset.ahead * 60, []) := by
  rw [Offset.text, Offset.ahead]
  cases offset.behind with
  | true =>
      refine (zone?_signed (by decide) (fun _ => rfl) offset).trans ?_
      rw [if_pos rfl]
      congr 2
      omega
  | false =>
      refine (zone?_signed (by decide) (fun _ => rfl) offset).trans ?_
      rw [if_neg Bool.false_ne_true]
      congr 2
      omega

/-! ## Three readers -/

/-- A date with more behind it than one letter is not a date alone. -/
theorem dateOnly?_of_time (fields : DateFields) {rest : Text} (long : 2 ≤ rest.length) :
    dateOnly? (fields.text ++ rest) = none := by
  have left : ∃ kept, (Text.withoutLast? 'Z' (fields.text ++ rest)).getD (fields.text ++ rest) =
      fields.text ++ kept ∧ kept ≠ [] := by
    rw [Text.withoutLast?]
    split
    · refine ⟨rest.dropLast, List.dropLast_append_of_ne_nil ?_, ?_⟩
      · exact List.ne_nil_of_length_pos (by omega)
      · apply List.ne_nil_of_length_pos
        rw [List.length_dropLast]
        omega
    · exact ⟨rest, rfl, List.ne_nil_of_length_pos (by omega)⟩
  obtain ⟨kept, same, some⟩ := left
  rw [dateOnly?, same, looseDate?_text]
  dsimp only [Option.bind_eq_bind]
  rw [Option.bind_some]
  exact if_neg (by simpa using some)

theorem two_le_length_timeText (fields : Fields) (rest : Text) :
    2 ≤ (fields.timeText ++ rest).length := by
  simp only [Fields.timeText, List.length_append, List.length_cons]
  omega

/-- A time with more behind it than a fraction is not a time without a zone. -/
theorem local?_of_zone (fields : Fields) {zone : Text} (ends : EndsFraction zone)
    (some : zone ≠ []) :
    local? (fields.toDateFields.text ++ (fields.timeText ++ (fields.fractionText ++ zone))) =
      none := by
  rw [local?_text, optionalFraction?_text fields ends, Option.bind_some]
  exact if_neg (by simpa using some)

/-- Where a zone is read, the instant is so many minutes before that in universal time. -/
theorem read?_zone (fields : Fields) {zone : Text} {minutes : Int} (ends : EndsFraction zone)
    (zoned : zone? zone = some (minutes * 60, [])) :
    read? (fields.text ++ zone) =
      if fields.Occurs then some (fields.instant.minus minutes) else none := by
  have some : zone ≠ [] := by
    rintro rfl
    cases zoned
  simp only [Fields.text, List.append_assoc]
  rw [read?, local?_of_zone fields ends some,
    dateOnly?_of_time fields.toDateFields (two_le_length_timeText fields _)]
  simp only [Option.orElse_eq_or, Option.or_none]
  rw [rfc3339?_text, optionalFraction?_text fields ends, Option.bind_some]
  dsimp only
  rw [zoned, Option.bind_some]
  exact at?_fields fields minutes

/-- Without a zone the instant is in universal time. -/
theorem read?_text (fields : Fields) :
    read? fields.text = if fields.Occurs then some fields.instant else none := by
  have ends : EndsFraction [] := nofun
  have fraction := optionalFraction?_text fields ends
  have whole := at?_fields fields 0
  rw [List.append_nil] at fraction
  rw [minus_zero] at whole
  rw [read?, Fields.text, rfc3339?_text, local?_text, fraction,
    dateOnly?_of_time fields.toDateFields (two_le_length_timeText fields _)]
  simp only [Option.orElse_eq_or, Option.or_none]
  exact whole

/-! ## Dates alone -/

/-- A date is no instant of the first two forms where no time follows it. -/
theorem read?_date (fields : DateFields) (rest : Text) (apart : separator? rest = none)
    (other : expect? 'T' rest = none) :
    read? (fields.text ++ rest) = dateOnly? (fields.text ++ rest) := by
  have zoneless : local? (fields.text ++ rest) = none := by
    unfold local?
    dsimp only [Option.bind_eq_bind]
    rw [looseDate?_text, Option.bind_some]
    dsimp only
    rw [other, Option.bind_none]
  have zoned : rfc3339? (fields.text ++ rest) = none := by
    simp only [DateFields.text, List.append_assoc, List.cons_append]
    unfold rfc3339?
    dsimp only [Option.bind_eq_bind]
    rw [bind_field fields.year_field, bind_expect, bind_field (two_field fields.month_lt),
      bind_expect, bind_field (two_field fields.day_lt), apart, Option.bind_none]
  rw [read?, zoned, zoneless]
  rfl

theorem dateOnly?_eq (fields : DateFields) {text : Text}
    (kept : (Text.withoutLast? 'Z' text).getD text = fields.text) :
    dateOnly? text = if fields.date.isValid then some fields.midnight else none := by
  have read := looseDate?_text fields []
  rw [List.append_nil] at read
  rw [dateOnly?, kept, read]
  exact at?_midnight fields

/-- A date ends in a digit. -/
theorem withoutLast?_date (fields : DateFields) : Text.withoutLast? 'Z' fields.text = none := by
  have field := two_field fields.day_lt
  obtain ⟨rest, last, same⟩ : ∃ rest last, Decimal.padded 2 fields.day = rest ++ [last] := by
    rcases List.eq_nil_or_concat (Decimal.padded 2 fields.day) with none | found
    · rw [none] at field
      cases field.1
    · simpa using found
  have digit : last.isDigit = true := field.2 last (by simp [same])
  have ends : fields.text.getLast? = some last := by
    rw [DateFields.text, same]
    simp [List.getLast?_append, List.getLast?_cons]
  rw [Text.withoutLast?, ends, if_neg]
  intro letter
  cases letter
  cases digit

/-- A date and a time are read exactly where both exist, whatever the digits of the fraction, and
come to the instant that they say: so many days of the calendar since 1970-01-01, the time of the
day, and the first nine digits of the fraction, with second 60 as second 59 and a leap second.
The letter of universal time makes no difference, and an offset is taken off. A date alone is
read exactly where it exists, and comes to its midnight. The number of its day is found by going
from date to date. -/
theorem read?_written (fields : Fields) :
    read? fields.text = (if fields.Occurs then some fields.instant else none) ∧
    read? (fields.text ++ ['Z']) = read? fields.text ∧
    (∀ offset : Offset,
      read? (fields.text ++ offset.text) = (read? fields.text).map (·.minus offset.ahead)) ∧
    (∀ day : DateFields,
      read? day.text = (if day.date.isValid then some day.midnight else none) ∧
      read? (day.text ++ ['Z']) = read? day.text) ∧
    (∀ (number : Int) (date : Date),
      date.Counted number ↔ date.isValid = true ∧ date.dayNumber = number) := by
  have whole := read?_text fields
  refine ⟨whole, ?_, fun offset => ?_, fun day => ?_, Date.counted_iff⟩
  · have letter : EndsFraction ['Z'] := by
      rintro char same
      cases same
      decide
    have universal : zone? ['Z'] = some ((0 : Int) * 60, []) := rfl
    rw [whole, read?_zone fields letter universal, minus_zero]
  · have sign : EndsFraction offset.text := by
      intro char same
      rw [Offset.text] at same
      cases behind : offset.behind with
      | true =>
          rw [behind] at same
          cases same
          decide
      | false =>
          rw [behind] at same
          cases same
          decide
    rw [whole, read?_zone fields sign (zone?_text offset)]
    split <;> rfl
  · have bare := withoutLast?_date day
    have alone := (read?_date day [] rfl rfl).trans
      (dateOnly?_eq day (by rw [List.append_nil, bare, Option.getD_none]))
    have lettered := (read?_date day ['Z'] rfl rfl).trans
      (dateOnly?_eq day (by simp [Text.withoutLast?]))
    rw [List.append_nil] at alone
    exact ⟨alone, lettered.trans alone.symm⟩

/-- A leap second at the end of a local year 0 is still in year -1 in universal time. -/
example :
    (read? "0000-01-01T00:29:60.1234567891+01:00".toList).map
        (fun instant => (instant.date, instant.secondOfDay, instant.nanoseconds)) =
      some (⟨-1, 12, 31⟩, 84599, 1123456789) := by
  decide +kernel

end Timestamp

end SparqlText
