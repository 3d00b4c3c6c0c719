import Mathlib.Data.List.Infix
import Mathlib.Tactic.IntervalCases
import Mathlib.Tactic.Ring

/-!
# The proleptic Gregorian calendar

Days are counted from the first of January 1970, before it with negative numbers.
A year is taken to begin in March, so that the leap day is its last one: then the
days before a month do not depend on the year, and the days before a year are
counted in blocks of 400, 100, 4 and 1 years.
-/

namespace Porthmos

namespace Calendar

/-! ### Dates -/

def isLeap (year : Int) : Bool := year % 4 = 0 ∧ (year % 100 ≠ 0 ∨ year % 400 = 0)

def monthLength (year : Int) (month : Nat) : Nat :=
  if month = 2 then if isLeap year then 29 else 28
  else if month = 4 ∨ month = 6 ∨ month = 9 ∨ month = 11 then 30
  else 31

@[ext]
structure Date where
  year : Int
  month : Nat
  day : Nat
  isMonth : 1 ≤ month ∧ month ≤ 12
  isDay : 1 ≤ day ∧ day ≤ monthLength year month
  deriving DecidableEq

theorem monthLength_bounds (year : Int) (month : Nat) :
    28 ≤ monthLength year month ∧ monthLength year month ≤ 31 := by
  unfold monthLength
  split_ifs <;> omega

/-- The days of a year before one of its months. -/
def daysBefore (year : Int) (month : Nat) : Nat :=
  ((List.range (month - 1)).map fun before => monthLength year (before + 1)).sum

/-- The days from the first of January of the year 1 to that of another year. -/
def yearStart (year : Int) : Int :=
  365 * (year - 1) + (year - 1) / 4 - (year - 1) / 100 + (year - 1) / 400

/-- The day of a year, a month and a day of it, counted from 1970 on. -/
def dayNumber (year : Int) (month day : Nat) : Int :=
  yearStart year + daysBefore year month + day - 1 - 719162

namespace Date

def number (date : Date) : Int := dayNumber date.year date.month date.day

def epoch : Date := ⟨1970, 1, 1, by decide, by decide⟩

theorem number_epoch : epoch.number = 0 := by decide

end Date

theorem daysBefore_one (year : Int) : daysBefore year 1 = 0 := rfl

theorem daysBefore_succ (year : Int) {month : Nat} (isMonth : 1 ≤ month) :
    daysBefore year (month + 1) = daysBefore year month + monthLength year month := by
  obtain ⟨before, rfl⟩ : ∃ before, month = before + 1 := ⟨month - 1, by omega⟩
  simp [daysBefore, List.range_succ]

theorem yearStart_succ (year : Int) :
    yearStart (year + 1) = yearStart year + if isLeap year then 366 else 365 := by
  unfold yearStart isLeap
  split_ifs with leap
  · simp only [decide_eq_true_eq] at leap
    omega
  · simp only [decide_eq_true_eq] at leap
    omega

/-! ### Years that begin in March -/

/-- The days from the first of March of the year 0 to that of another year. -/
def marchStart (year : Int) : Int := 365 * year + year / 4 - year / 100 + year / 400

theorem marchStart_eq (year : Int) : marchStart year =
    year / 400 * 146097 + (year % 400 * 365 + year % 400 / 4 - year % 400 / 100) := by
  unfold marchStart
  omega

/-- The days of a year before the first of a month, counted from March on. -/
def monthStart (index : Nat) : Nat := (153 * index + 2) / 5

theorem daysBefore_eq (year : Int) {month : Nat} (isMonth : 1 ≤ month ∧ month ≤ 12) :
    daysBefore year month + (if month ≤ 2 then 306 else 0) = monthStart ((month + 9) % 12) +
      if month ≤ 2 then 0 else if isLeap year then 60 else 59 := by
  obtain ⟨first, last⟩ := isMonth
  cases leap : isLeap year <;> interval_cases month <;>
    simp [daysBefore, monthStart, monthLength, leap, List.range_succ]

theorem dayNumber_eq (year : Int) {month : Nat} (isMonth : 1 ≤ month ∧ month ≤ 12) (day : Nat) :
    dayNumber year month day =
      marchStart (if month ≤ 2 then year - 1 else year) + monthStart ((month + 9) % 12) + day - 1 -
        719468 := by
  have before := daysBefore_eq year isMonth
  have january : yearStart year = marchStart (year - 1) := rfl
  have march : marchStart year = yearStart (year + 1) := by
    rw [yearStart, marchStart, Int.add_sub_cancel]
  rw [yearStart_succ] at march
  unfold dayNumber
  split_ifs at * <;> omega

theorem marchStart_succ (year : Int) :
    marchStart year + 365 ≤ marchStart (year + 1) ∧ marchStart (year + 1) ≤ marchStart year + 366 := by
  unfold marchStart
  omega

theorem dayNumber_succ (year : Int) {month : Nat} (isMonth : 1 ≤ month ∧ month ≤ 12) (day : Nat) :
    dayNumber year month day + 365 ≤ dayNumber (year + 1) month day ∧
      dayNumber (year + 1) month day ≤ dayNumber year month day + 366 := by
  rw [dayNumber_eq year isMonth, dayNumber_eq (year + 1) isMonth]
  by_cases early : month ≤ 2
  · have next := marchStart_succ (year - 1)
    rw [Int.sub_add_cancel] at next
    simp only [if_pos early, Int.add_sub_cancel]
    omega
  · have next := marchStart_succ year
    simp only [if_neg early]
    omega

/-! ### The date of a day -/

/-- A place in a cycle of 400 years: the century, the group of four years in it, the
year of the group, and the day of the year. -/
structure CyclePlace where
  century : Nat
  group : Nat
  year : Nat
  day : Nat
  isCentury : century < 4
  isGroup : group < 25
  isYear : year < 4
  isDay : day < 365 ∨ day = 365 ∧ year = 3 ∧ (group < 24 ∨ century = 3)

namespace CyclePlace

variable (place : CyclePlace)

def yearOfEra : Nat := 100 * place.century + 4 * place.group + place.year

def dayOfEra : Nat :=
  36524 * place.century + 1461 * place.group + 365 * place.year + place.day

theorem dayOfEra_lt : place.dayOfEra < 146097 := by
  have := place.isCentury
  have := place.isGroup
  have := place.isYear
  have := place.isDay
  unfold dayOfEra
  omega

/-- The last century is a day longer, and so is the last year of a group. -/
def ofDay (dayOfEra : Nat) (inEra : dayOfEra < 146097) : CyclePlace :=
  let century := min 3 (dayOfEra / 36524)
  let inCentury := dayOfEra - 36524 * century
  let group := inCentury / 1461
  let inGroup := inCentury - 1461 * group
  let year := min 3 (inGroup / 365)
  { century, group, year
    day := inGroup - 365 * year
    isCentury := by omega
    isGroup := by omega
    isYear := by omega
    isDay := by omega }

theorem dayOfEra_ofDay {day : Nat} (inEra : day < 146097) : (ofDay day inEra).dayOfEra = day := by
  simp only [dayOfEra, ofDay]
  omega

theorem marchStart_add (era : Int) :
    marchStart (400 * era + place.yearOfEra) = 146097 * era + (place.dayOfEra - place.day) := by
  have := place.isCentury
  have := place.isGroup
  have := place.isYear
  simp only [marchStart, yearOfEra, dayOfEra]
  omega

theorem dayOfEra_div_group : place.dayOfEra / 1460 = 25 * place.century + place.group +
    if 1460 ≤ 24 * place.century + place.group + 365 * place.year + place.day then 1 else 0 := by
  have := place.isCentury
  have := place.isGroup
  have := place.isYear
  have := place.isDay
  simp only [dayOfEra]
  split_ifs <;> omega

theorem dayOfEra_div_century :
    place.dayOfEra / 36524 = place.century + place.dayOfEra / 146096 := by
  have := place.isCentury
  have := place.isGroup
  have := place.isYear
  have := place.isDay
  have inCentury : 1461 * place.group + 365 * place.year + place.day < 36524 ∨
      place.century = 3 ∧ 1461 * place.group + 365 * place.year + place.day = 36524 := by
    omega
  simp only [dayOfEra]
  rcases inCentury with short | ⟨isLast, isEnd⟩
  · omega
  · omega

theorem yearOfEra_eq : ((place.dayOfEra : Int) - place.dayOfEra / 1460 + place.dayOfEra / 36524 -
    place.dayOfEra / 146096) / 365 = place.yearOfEra := by
  have groups := place.dayOfEra_div_group
  have centuries := place.dayOfEra_div_century
  have := place.isCentury
  have := place.isGroup
  have := place.isYear
  have inYear := place.isDay
  generalize isLate :
    (if 1460 ≤ 24 * place.century + place.group + 365 * place.year + place.day then 1 else 0) = late
    at groups
  have short : late ≤ place.day ∧ place.day - late < 365 := by split_ifs at isLate <;> omega
  have isDay : place.dayOfEra = 36524 * place.century + 1461 * place.group + 365 * place.year +
    place.day := rfl
  have isYear : place.yearOfEra = 100 * place.century + 4 * place.group + place.year := rfl
  have days : (place.dayOfEra : Int) - place.dayOfEra / 1460 + place.dayOfEra / 36524 -
      place.dayOfEra / 146096 = place.yearOfEra * 365 + (place.day - late) := by
    omega
  rw [days]
  omega

theorem dayOfEra_sub : (place.dayOfEra : Int) -
    (365 * place.yearOfEra + place.yearOfEra / 4 - place.yearOfEra / 100) = place.day := by
  have := place.isCentury
  have := place.isGroup
  have := place.isYear
  simp only [yearOfEra, dayOfEra]
  omega

/-- The month, counted from March on. -/
def monthIndex : Nat := (5 * place.day + 2) / 153

def month : Nat := if place.monthIndex < 10 then place.monthIndex + 3 else place.monthIndex - 9

theorem isMonth : 1 ≤ place.month ∧ place.month ≤ 12 := by
  have := place.isDay
  unfold month monthIndex
  split_ifs <;> omega

theorem monthIndex_month : (place.month + 9) % 12 = place.monthIndex := by
  have := place.isDay
  unfold month monthIndex
  split_ifs <;> omega

/-- The year that a month is in ends in December. -/
def civilYear (era : Int) : Int :=
  400 * era + place.yearOfEra + if place.month ≤ 2 then 1 else 0

theorem isLeap_of_last (era : Int) (isLast : place.day = 365) :
    isLeap (400 * era + place.yearOfEra + 1) = true := by
  have := place.isCentury
  have inYear := place.isDay
  have isThird : place.year = 3 := by omega
  have notWhole : place.group < 24 ∨ place.group = 24 ∧ place.century = 3 := by
    have := place.isGroup
    omega
  simp only [isLeap, yearOfEra, isThird, decide_eq_true_eq]
  rcases notWhole with early | ⟨isLastGroup, isLastCentury⟩
  · omega
  · omega

theorem isDay_month (era : Int) : 1 ≤ place.day - monthStart place.monthIndex + 1 ∧
    place.day - monthStart place.monthIndex + 1 ≤ monthLength (place.civilYear era) place.month := by
  have inYear := place.isDay
  refine ⟨Nat.succ_pos _, ?_⟩
  by_cases isLast : place.day = 365
  · have leap := place.isLeap_of_last era isLast
    simp [monthLength, civilYear, month, monthIndex, monthStart, isLast, leap]
  · have inMonth : place.monthIndex < 12 := by unfold monthIndex; omega
    have isIndex : place.monthIndex = (5 * place.day + 2) / 153 := rfl
    unfold monthStart monthLength month
    interval_cases place.monthIndex <;> simp <;> (try split_ifs) <;> omega

end CyclePlace

/-- The cycle that a day is in, and the place of the day in it. -/
def cycleOf (days : Int) : Int × CyclePlace :=
  ((days + 719468) / 146097,
    .ofDay ((days + 719468) % 146097).toNat (by omega))

theorem cycleOf_day (days : Int) :
    146097 * (cycleOf days).1 + (cycleOf days).2.dayOfEra = days + 719468 := by
  simp only [cycleOf, CyclePlace.dayOfEra_ofDay]
  omega

namespace Date

/-- The date of a day. -/
def ofNumber (days : Int) : Date where
  year := (cycleOf days).2.civilYear (cycleOf days).1
  month := (cycleOf days).2.month
  day := (cycleOf days).2.day - monthStart (cycleOf days).2.monthIndex + 1
  isMonth := (cycleOf days).2.isMonth
  isDay := (cycleOf days).2.isDay_month _

theorem number_ofNumber (days : Int) : (ofNumber days).number = days := by
  have place := cycleOf_day days
  have start := (cycleOf days).2.marchStart_add (cycleOf days).1
  have inMonth : monthStart (cycleOf days).2.monthIndex ≤ (cycleOf days).2.day := by
    unfold monthStart CyclePlace.monthIndex
    omega
  have march : (if (cycleOf days).2.month ≤ 2 then (cycleOf days).2.civilYear (cycleOf days).1 - 1
      else (cycleOf days).2.civilYear (cycleOf days).1) =
      400 * (cycleOf days).1 + (cycleOf days).2.yearOfEra := by
    unfold CyclePlace.civilYear
    split_ifs <;> omega
  have number := dayNumber_eq ((cycleOf days).2.civilYear (cycleOf days).1)
    (cycleOf days).2.isMonth ((cycleOf days).2.day - monthStart (cycleOf days).2.monthIndex + 1)
  rw [march, start, CyclePlace.monthIndex_month] at number
  refine number.trans ?_
  omega

/-! ### The order of dates -/

theorem dayOfYear_lt (date : Date) : daysBefore date.year date.month + date.day ≤
    if isLeap date.year then 366 else 365 := by
  have before := daysBefore_eq date.year date.isMonth
  obtain ⟨first, last⟩ := date.isMonth
  have inMonth := date.isDay.2
  rw [monthLength] at inMonth
  generalize daysBefore date.year date.month = days at *
  generalize date.month = month at *
  cases leap : isLeap date.year <;> simp only [leap] at * <;> interval_cases month <;>
    simp [monthStart] at * <;> omega

theorem number_mem_year (date : Date) : yearStart date.year ≤ date.number + 719162 ∧
    date.number + 719162 < yearStart (date.year + 1) := by
  have inYear := date.dayOfYear_lt
  have := date.isDay
  rw [yearStart_succ]
  simp only [number, dayNumber]
  split_ifs at * <;> omega

end Date

theorem yearStart_mono {first second : Int} (before : first ≤ second) :
    yearStart first ≤ yearStart second := by
  unfold yearStart
  omega

theorem daysBefore_mono (year : Int) {first second : Nat} (isMonth : 1 ≤ first)
    (before : first ≤ second) : daysBefore year first ≤ daysBefore year second := by
  induction second, before using Nat.le_induction with
  | base => exact le_rfl
  | succ month after ih =>
    rw [daysBefore_succ year (isMonth.trans after)]
    exact ih.trans (Nat.le_add_right _ _)

namespace Date

theorem year_le {first second : Date} (before : first.number ≤ second.number) :
    first.year ≤ second.year := by
  by_contra after
  have later := yearStart_mono (show second.year + 1 ≤ first.year by omega)
  have := first.number_mem_year
  have := second.number_mem_year
  omega

theorem number_lt {first second : Date} (sameYear : first.year = second.year)
    (before : first.month < second.month) : first.number < second.number := by
  have days := daysBefore_mono second.year (Nat.succ_pos first.month) before
  rw [daysBefore_succ _ first.isMonth.1] at days
  have := first.isDay.2
  have := second.isDay.1
  simp only [number, dayNumber, sameYear] at *
  omega

theorem number_injective : Function.Injective number := by
  intro first second same
  have sameYear : first.year = second.year := by
    have := year_le same.le
    have := year_le same.ge
    omega
  have sameMonth : first.month = second.month := by
    rcases Nat.lt_trichotomy first.month second.month with before | isSame | after
    · exact absurd same (number_lt sameYear before).ne
    · exact isSame
    · exact absurd same (number_lt sameYear.symm after).ne'
  ext
  · exact sameYear
  · exact sameMonth
  · simp only [number, dayNumber, sameYear, sameMonth] at same
    omega

theorem ofNumber_number (date : Date) : ofNumber date.number = date :=
  number_injective (number_ofNumber date.number)

end Date

/-! ### Times -/

/-- The date in which a second lies. -/
def dateAt (seconds : Nat) : Date := .ofNumber (seconds / 86400 : Nat)

def hourAt (seconds : Nat) : Nat := seconds % 86400 / 3600

def minuteAt (seconds : Nat) : Nat := seconds % 3600 / 60

theorem hourAt_lt (seconds : Nat) : hourAt seconds < 24 := by
  unfold hourAt
  omega

theorem minuteAt_lt (seconds : Nat) : minuteAt seconds < 60 := by
  unfold minuteAt
  omega

theorem number_dateAt (seconds : Nat) : (dateAt seconds).number = (seconds / 86400 : Nat) :=
  Date.number_ofNumber _

theorem second_eq (seconds : Nat) : (dateAt seconds).number * 86400 + hourAt seconds * 3600 +
    minuteAt seconds * 60 + (seconds % 60 : Nat) = seconds := by
  rw [number_dateAt]
  unfold hourAt minuteAt
  omega

theorem le_year_dateAt (seconds : Nat) : 1970 ≤ (dateAt seconds).year := by
  have number := number_dateAt seconds
  have after : Date.epoch.number ≤ (dateAt seconds).number := by
    rw [Date.number_epoch]
    omega
  exact Date.year_le after

theorem year_dateAt_lt {seconds : Nat} {year : Int}
    (before : (seconds : Int) < (dayNumber year 1 1) * 86400) : (dateAt seconds).year < year := by
  have number := number_dateAt seconds
  have inYear := (dateAt seconds).number_mem_year.1
  by_contra notBefore
  have later := yearStart_mono (show year ≤ (dateAt seconds).year by omega)
  simp only [dayNumber, daysBefore_one] at before
  omega

end Calendar

end Porthmos
