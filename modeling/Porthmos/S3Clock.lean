import Porthmos.Calendar
import Porthmos.StateFiles
import Porthmos.TextFields

/-!
# Times of S3

S3 tells when an object was changed as a date and a time of the day, and wants both in
the date of a request.
-/

namespace Porthmos

namespace S3Clock

open StateFiles (isWhitespace isWhitespace_of_isDigit)
open TextFields Calendar

def secondsPerDay : Nat := 86400

def civilFromDays (days : Int) : Int × Nat × Nat :=
  let shifted := days + 719468
  let era := shifted / 146097
  let dayOfEra := shifted % 146097
  let yearOfEra := (dayOfEra - dayOfEra / 1460 + dayOfEra / 36524 - dayOfEra / 146096) / 365
  let dayOfYear := dayOfEra - (365 * yearOfEra + yearOfEra / 4 - yearOfEra / 100)
  let monthIndex := (5 * dayOfYear + 2) / 153
  let day := (dayOfYear - (153 * monthIndex + 2) / 5 + 1).toNat
  let month := (if monthIndex < 10 then monthIndex + 3 else monthIndex - 9).toNat
  let year := yearOfEra + era * 400 + if month ≤ 2 then 1 else 0
  (year, month, day)

def daysFromCivil (year : Int) (month day : Nat) : Int :=
  let year := year - if month ≤ 2 then 1 else 0
  let era := year / 400
  let yearOfEra := year % 400
  let month : Int := month
  let dayOfYear := (153 * (if month > 2 then month - 3 else month + 9) + 2) / 5 + day - 1
  let dayOfEra := yearOfEra * 365 + yearOfEra / 4 - yearOfEra / 100 + dayOfYear
  era * 146097 + dayOfEra - 719468

def number (text : List Char) (first last : Nat) : Option Nat :=
  (byteRange text first last).bind parseU32

def separators : List (Nat × Char) := [(4, '-'), (7, '-'), (10, 'T'), (13, ':'), (16, ':')]

/-- A byte of the text that is an ASCII character; the others are no separators. -/
def byteAt (text : List Char) (index : Nat) : Option Char := (dropBytes index text).bind List.head?

def parseIso8601 (text : List Char) : Option Nat := do
  let text := trimMatches isWhitespace text
  let year ← number text 0 4
  let month ← number text 5 7
  let day ← number text 8 10
  let hour ← number text 11 13
  let minute ← number text 14 16
  let second ← number text 17 19
  if separators.any fun separator => byteAt text separator.1 ≠ some separator.2 then none
  else if ¬ (1 ≤ month ∧ month ≤ 12) ∨ ¬ (1 ≤ day ∧ day ≤ 31) ∨ hour > 23 ∨ minute > 59 ∨
      second > 60 then none
  else
    let days := daysFromCivil year month day
    let seconds := days * secondsPerDay + (hour * 3600 + minute * 60 + second : Nat)
    if 0 ≤ seconds then some seconds.toNat else none

/-- A time as S3 writes it. -/
def isoFields (year month day hour minute second : Nat) : List (List Char) :=
  [padded 4 year, ['-'], padded 2 month, ['-'], padded 2 day, ['T'], padded 2 hour, [ ':'],
    padded 2 minute, [ ':'], padded 2 second, ['Z']]

def isoText (seconds : Nat) : List Char :=
  let date := civilFromDays (seconds / secondsPerDay : Nat)
  (isoFields date.1.toNat date.2.1 date.2.2 (hourAt seconds) (minuteAt seconds)
    (seconds % 60)).flatten

/-! ### Dates -/

theorem daysFromCivil_eq (year : Int) {month : Nat} (isMonth : 1 ≤ month ∧ month ≤ 12) (day : Nat) :
    daysFromCivil year month day = dayNumber year month day := by
  rw [dayNumber_eq year isMonth, marchStart_eq]
  unfold daysFromCivil monthStart
  by_cases early : month ≤ 2
  · have late : ¬ ((month : Int) > 2) := by omega
    have index : (month + 9) % 12 = month + 9 := by omega
    simp only [if_pos early, if_neg late, index]
    omega
  · have late : (month : Int) > 2 := by omega
    have index : (month + 9) % 12 = month - 3 := by omega
    simp only [if_neg early, if_pos late, index]
    omega

theorem civilFromDays_eq (days : Int) : civilFromDays days =
    ((Date.ofNumber days).year, (Date.ofNumber days).month, (Date.ofNumber days).day) := by
  obtain ⟨era, place, cycle⟩ : ∃ era place, cycleOf days = (era, place) := ⟨_, _, rfl⟩
  have isDay := cycleOf_day days
  simp only [cycle] at isDay
  have inEra := place.dayOfEra_lt
  have isEra : (days + 719468) / 146097 = era := by omega
  have isDayOfEra : (days + 719468) % 146097 = place.dayOfEra := by omega
  simp only [civilFromDays, isEra, isDayOfEra, place.yearOfEra_eq, place.dayOfEra_sub,
    Date.ofNumber, cycle]
  have isMonth : (if (5 * (place.day : Int) + 2) / 153 < 10 then (5 * (place.day : Int) + 2) / 153 + 3
      else (5 * (place.day : Int) + 2) / 153 - 9).toNat = place.month := by
    unfold CyclePlace.month CyclePlace.monthIndex
    split_ifs <;> omega
  have isDayOfMonth : ((place.day : Int) - (153 * ((5 * (place.day : Int) + 2) / 153) + 2) / 5 +
      1).toNat = place.day - monthStart place.monthIndex + 1 := by
    unfold monthStart CyclePlace.monthIndex
    omega
  rw [isMonth, isDayOfMonth, CyclePlace.civilYear, Int.add_comm (place.yearOfEra : Int),
    Int.mul_comm era]

/-! ### Times -/

theorem number_flatten {fields : List (List Char)} (index : Nat) {width value first last : Nat}
    (isField : fields[index]? = some (padded width value))
    (fits : 0 < width ∧ value < 10 ^ width ∧ value < 2 ^ 32) (start : startOf fields index = first)
    (stop : first + width = last) : number fields.flatten first last = some value := by
  have field := byteRange_flatten isField
  rw [byteLength_padded fits.1 fits.2.1, start, stop] at field
  rw [number, field, Option.bind_some, parseU32_padded fits.2.2]

theorem byteAt_flatten {fields : List (List Char)} (index : Nat) {separator : Char} {place : Nat}
    (isField : fields[index]? = some [separator]) (start : startOf fields index = place) :
    byteAt fields.flatten place = some separator := by
  obtain ⟨inFields, isSeparator⟩ := List.getElem?_eq_some_iff.mp isField
  rw [byteAt, ← start, dropBytes_flatten, List.drop_eq_getElem_cons inFields, isSeparator]
  rfl

section Fields

variable {year month day hour minute second : Nat} (inYear : year < 10000)
  (inMonth : month < 100) (inDay : day < 100) (inHour : hour < 100) (inMinute : minute < 100)
  (inSecond : second < 100)

include inYear inMonth inDay inHour inMinute inSecond

theorem byteLength_isoFields : (isoFields year month day hour minute second).map byteLength =
    [4, 1, 2, 1, 2, 1, 2, 1, 2, 1, 2, 1] := by
  have four : byteLength (padded 4 year) = 4 := byteLength_padded (by decide) inYear
  have two {value : Nat} (small : value < 100) : byteLength (padded 2 value) = 2 :=
    byteLength_padded (by decide) small
  simp only [isoFields, List.map_cons, List.map_nil, four, two inMonth, two inDay, two inHour,
    two inMinute, two inSecond]
  rfl

theorem startOf_isoFields (index : Nat) :
    startOf (isoFields year month day hour minute second) index =
      ([4, 1, 2, 1, 2, 1, 2, 1, 2, 1, 2, 1].take index).sum := by
  rw [startOf, byteLength_isoFields inYear inMonth inDay inHour inMinute inSecond]

theorem numbers_isoFields :
    let text := (isoFields year month day hour minute second).flatten
    number text 0 4 = some year ∧ number text 5 7 = some month ∧ number text 8 10 = some day ∧
      number text 11 13 = some hour ∧ number text 14 16 = some minute ∧
      number text 17 19 = some second := by
  have start := startOf_isoFields inYear inMonth inDay inHour inMinute inSecond
  refine ⟨number_flatten 0 rfl ?_ (start 0) rfl, number_flatten 2 rfl ?_ (start 2) rfl,
    number_flatten 4 rfl ?_ (start 4) rfl, number_flatten 6 rfl ?_ (start 6) rfl,
    number_flatten 8 rfl ?_ (start 8) rfl, number_flatten 10 rfl ?_ (start 10) rfl⟩ <;> omega

theorem separators_isoFields : (separators.any fun separator =>
    byteAt (isoFields year month day hour minute second).flatten separator.1 ≠
      some separator.2) = false := by
  have start := startOf_isoFields inYear inMonth inDay inHour inMinute inSecond
  have month : byteAt (isoFields year month day hour minute second).flatten 4 = some '-' :=
    byteAt_flatten 1 rfl (start 1)
  have day : byteAt (isoFields year _ day hour minute second).flatten 7 = some '-' :=
    byteAt_flatten 3 rfl (start 3)
  have hour : byteAt (isoFields year _ _ hour minute second).flatten 10 = some 'T' :=
    byteAt_flatten 5 rfl (start 5)
  have minute : byteAt (isoFields year _ _ _ minute second).flatten 13 = some ':' :=
    byteAt_flatten 7 rfl (start 7)
  have second : byteAt (isoFields year _ _ _ _ second).flatten 16 = some ':' :=
    byteAt_flatten 9 rfl (start 9)
  simp [separators, month, day, hour, minute, second]

end Fields

theorem trimMatches_isoFields (year month day hour minute second : Nat) :
    trimMatches isWhitespace (isoFields year month day hour minute second).flatten =
      (isoFields year month day hour minute second).flatten := by
  obtain ⟨digit, digits, isYear⟩ : ∃ digit digits, padded 4 year = digit :: digits :=
    List.exists_cons_of_ne_nil (by simp [padded])
  have isDigit : digit.isDigit = true :=
    isDigit_of_isDigits (isDigits_padded 4 year) (by simp [isYear])
  apply trimMatches_eq_self
  · intro character isFirst
    simp only [isoFields, isYear, List.flatten_cons, List.cons_append, List.head?_cons,
      Option.some_inj] at isFirst
    rw [← isFirst, isWhitespace_of_isDigit isDigit]
  · intro character isLast
    have ends : (isoFields year month day hour minute second).flatten =
        ((isoFields year month day hour minute second).take 11).flatten ++ ['Z'] := by
      simp [isoFields]
    rw [ends, List.getLast?_append] at isLast
    cases isLast
    decide

/-- A second before the year 10000 is read as it was written. -/
theorem parseIso8601_isoText {seconds : Nat}
    (inTime : (seconds : Int) < dayNumber 10000 1 1 * 86400) :
    parseIso8601 (isoText seconds) = some seconds := by
  have isDate : civilFromDays (seconds / secondsPerDay : Nat) =
      ((dateAt seconds).year, (dateAt seconds).month, (dateAt seconds).day) := civilFromDays_eq _
  have since := le_year_dateAt seconds
  have before := year_dateAt_lt inTime
  have isSecond := second_eq seconds
  generalize dateAt seconds = date at *
  have isMonth := date.isMonth
  have isDay := date.isDay
  have short := monthLength_bounds date.year date.month
  have isHour := hourAt_lt seconds
  have isMinute := minuteAt_lt seconds
  obtain ⟨year, isYear⟩ : ∃ year : Nat, date.year = year := ⟨date.year.toNat, by omega⟩
  obtain ⟨yearRead, monthRead, dayRead, hourRead, minuteRead, secondRead⟩ := @numbers_isoFields
    year date.month date.day (hourAt seconds) (minuteAt seconds) (seconds % 60) (by omega)
    (by omega) (by omega) (by omega) (by omega) (by omega)
  have separated := @separators_isoFields year date.month date.day (hourAt seconds)
    (minuteAt seconds) (seconds % 60) (by omega) (by omega) (by omega) (by omega) (by omega)
    (by omega)
  have valid : ¬ (¬ (1 ≤ date.month ∧ date.month ≤ 12) ∨ ¬ (1 ≤ date.day ∧ date.day ≤ 31) ∨
      hourAt seconds > 23 ∨ minuteAt seconds > 59 ∨ seconds % 60 > 60) := by
    omega
  have isNumber : daysFromCivil year date.month date.day * (secondsPerDay : Nat) +
      (hourAt seconds * 3600 + minuteAt seconds * 60 + seconds % 60 : Nat) = seconds := by
    rw [daysFromCivil_eq _ isMonth, ← isYear, ← Date.number]
    simp only [secondsPerDay]
    omega
  have text : isoText seconds = (isoFields year date.month date.day (hourAt seconds)
      (minuteAt seconds) (seconds % 60)).flatten := by
    simp only [isoText, isDate, isYear, Int.toNat_natCast]
  rw [text, parseIso8601, trimMatches_isoFields]
  simp only [yearRead, monthRead, dayRead, hourRead, minuteRead, secondRead, Option.bind_eq_bind,
    Option.bind_some]
  rw [separated, if_neg Bool.false_ne_true, if_neg valid, isNumber,
    if_pos (Int.natCast_nonneg seconds), Int.toNat_natCast]

end S3Clock

end Porthmos
