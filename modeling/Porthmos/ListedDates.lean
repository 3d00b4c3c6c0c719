import Porthmos.FtpFacts
import Porthmos.S3Clock
import Porthmos.ScpListing

/-!
# Dates in listings

Three protocols count days on their own, and two of them guess the year of a
date.  All of them must agree with the calendar, and the guess must find the year
that was meant.
-/

namespace Porthmos

open TextFields Calendar

/-- The three ways to count days agree, and each of the ways back finds the date. -/
theorem calendars_agree :
    (∀ date : Date,
      ListLines.daysFromCivil date.year date.month date.day = date.number ∧
      S3Clock.daysFromCivil date.year date.month date.day = date.number ∧
      ScpListing.daysFromCivil date.year date.month date.day = date.number ∧
      S3Clock.civilFromDays date.number = (date.year, date.month, date.day) ∧
      ListLines.civilYearFromDays date.number = date.year) ∧
    (∀ days : Int, ∃ date : Date, date.number = days ∧
      S3Clock.civilFromDays days = (date.year, date.month, date.day) ∧
      S3Clock.daysFromCivil date.year date.month date.day = days) ∧
    (∀ seconds : Nat, ListLines.yearOf seconds = (dateAt seconds).year ∧
      ScpListing.yearOf seconds = (dateAt seconds).year) ∧
    ∀ seconds : Nat, (seconds : Int) < dayNumber 10000 1 1 * 86400 →
      S3Clock.parseIso8601 (S3Clock.isoText seconds) = some seconds ∧
      ∃ stamp, ListLines.mfmtStamp seconds = .ok stamp ∧
        ListLines.parseModify stamp = some seconds := by
  refine ⟨fun date => ?_, fun days => ?_, fun seconds => ?_, fun seconds inTime => ?_⟩
  · have same : Date.ofNumber date.number = date := date.ofNumber_number
    refine ⟨ListLines.daysFromCivil_eq _ date.isMonth _, S3Clock.daysFromCivil_eq _ date.isMonth _,
      ScpListing.daysFromCivil_eq _ date.isMonth _, ?_, ?_⟩
    · rw [S3Clock.civilFromDays_eq, same]
    · rw [ListLines.civilYearFromDays_eq, same]
  · refine ⟨.ofNumber days, Date.number_ofNumber days, S3Clock.civilFromDays_eq days, ?_⟩
    rw [S3Clock.daysFromCivil_eq _ (Date.ofNumber days).isMonth]
    exact Date.number_ofNumber days
  · exact ⟨ListLines.yearOf_eq seconds, ScpListing.yearOf_eq seconds⟩
  · exact ⟨S3Clock.parseIso8601_isoText inTime, _, ListLines.mfmtStamp_eq inTime,
      ListLines.parseModify_stampOf inTime⟩

/-! ### Dates without a year -/

def listedMonth (seconds : Nat) : List Char := ScpListing.months.getD ((dateAt seconds).month - 1) []

def listedDay (seconds : Nat) : List Char := Nat.toDigits 10 (dateAt seconds).day

def listedClock (seconds : Nat) : List Char :=
  ListLines.twoDigits (hourAt seconds) ++ ':' :: ListLines.twoDigits (minuteAt seconds)

/-- The second at which the minute of a time begins in another year. -/
def secondIn (seconds : Nat) (year : Int) : Int :=
  dayNumber year (dateAt seconds).month (dateAt seconds).day * 86400 + hourAt seconds * 3600 +
    minuteAt seconds * 60

/-- What both parsers do: a date that would lie ahead is last year's. -/
def placed (now seconds : Nat) : Int :=
  if (now : Int) + 86400 < secondIn seconds (dateAt now).year then
    secondIn seconds ((dateAt now).year - 1)
  else secondIn seconds (dateAt now).year

theorem secondIn_year (seconds : Nat) :
    secondIn seconds (dateAt seconds).year = (seconds - seconds % 60 : Nat) := by
  have isSecond := second_eq seconds
  unfold secondIn
  rw [← Date.number]
  omega

theorem secondIn_succ (seconds : Nat) (year : Int) :
    secondIn seconds year + 365 * 86400 ≤ secondIn seconds (year + 1) ∧
      secondIn seconds (year + 1) ≤ secondIn seconds year + 366 * 86400 := by
  have next := dayNumber_succ year (dateAt seconds).isMonth (dateAt seconds).day
  unfold secondIn
  omega

theorem yearStart_add {first second : Int} (before : first ≤ second) :
    yearStart first + 365 * (second - first) ≤ yearStart second := by
  induction second, before using Int.leInduction with
  | base => omega
  | succ year after ih =>
    have next := yearStart_succ year
    split_ifs at next <;> omega

section Recent

variable {now seconds : Nat} (recent : now < seconds + 183 * 86400) (soon : seconds ≤ now + 86400)

include recent soon

theorem year_near : (dateAt now).year - 1 ≤ (dateAt seconds).year ∧
    (dateAt seconds).year ≤ (dateAt now).year + 1 := by
  have days : (dateAt now).number ≤ (dateAt seconds).number + 184 ∧
      (dateAt seconds).number ≤ (dateAt now).number + 1 := by
    rw [number_dateAt, number_dateAt]
    omega
  obtain ⟨started, notEnded⟩ := (dateAt now).number_mem_year
  obtain ⟨secondStarted, secondNotEnded⟩ := (dateAt seconds).number_mem_year
  generalize (dateAt now).number = today at *
  generalize (dateAt seconds).number = day at *
  generalize (dateAt now).year = thisYear at *
  generalize (dateAt seconds).year = year at *
  constructor
  · by_contra tooEarly
    have := yearStart_add (show year + 1 ≤ thisYear by omega)
    omega
  · by_contra tooLate
    have := yearStart_add (show thisYear + 1 ≤ year by omega)
    omega

/-- The year is found, unless the time is of the next one. -/
theorem placed_iff : placed now seconds = (seconds - seconds % 60 : Nat) ↔
    (dateAt seconds).year ≤ (dateAt now).year := by
  have near := year_near recent soon
  have isSecond := secondIn_year seconds
  unfold placed
  rcases lt_trichotomy (dateAt seconds).year (dateAt now).year with before | same | after
  · have isLast : (dateAt now).year = (dateAt seconds).year + 1 := by omega
    have next := secondIn_succ seconds (dateAt seconds).year
    rw [isLast, Int.add_sub_cancel, if_pos (by omega), isSecond]
    simp
  · rw [← same, if_neg (by omega), isSecond]
    simp
  · have isNext : (dateAt seconds).year = (dateAt now).year + 1 := by omega
    have next := secondIn_succ seconds (dateAt now).year
    rw [isNext] at isSecond
    rw [if_neg (by omega), isNext]
    constructor
    · intro same
      omega
    · intro notLater
      omega

end Recent

/-! ### The parsers -/

theorem secondIn_nonneg (seconds : Nat) {year : Int} (since : 1970 ≤ year) :
    0 ≤ secondIn seconds year := by
  have start := yearStart_mono since
  have isDay := (dateAt seconds).isDay.1
  have epoch : yearStart 1970 = 719162 := by decide
  unfold secondIn dayNumber
  omega

theorem le_year_of_since {now : Nat} (since : 365 * 86400 ≤ now) : 1971 ≤ (dateAt now).year := by
  have number := number_dateAt now
  have first : (⟨1971, 1, 1, by decide, by decide⟩ : Date).number ≤ (dateAt now).number := by
    rw [number]
    have isFirst : (⟨1971, 1, 1, by decide, by decide⟩ : Date).number = 365 := by decide
    omega
  exact Date.year_le first

theorem toNat_placed {now seconds : Nat} (since : 365 * 86400 ≤ now) : (placed now seconds).toNat =
      if now + 86400 < (secondIn seconds (dateAt now).year).toNat then
        (secondIn seconds ((dateAt now).year - 1)).toNat
      else (secondIn seconds (dateAt now).year).toNat := by
  have year := le_year_of_since since
  have := secondIn_nonneg seconds (show 1970 ≤ (dateAt now).year by omega)
  unfold placed
  split_ifs <;> first | rfl | omega

theorem placed_toNat_iff {now seconds : Nat} (since : 365 * 86400 ≤ now)
    (recent : now < seconds + 183 * 86400) (soon : seconds ≤ now + 86400) :
    (placed now seconds).toNat = seconds - seconds % 60 ↔
      (dateAt seconds).year ≤ (dateAt now).year := by
  rw [← placed_iff recent soon]
  have year := le_year_of_since since
  have this := secondIn_nonneg seconds (show 1970 ≤ (dateAt now).year by omega)
  have last := secondIn_nonneg seconds (show 1970 ≤ (dateAt now).year - 1 by omega)
  have isPlaced : 0 ≤ placed now seconds := by
    unfold placed
    split_ifs <;> assumption
  omega

theorem getElem?_of_take_three {words : List (List Char)} {index : Nat}
    {first second third : List Char} (areThree : (words.drop index).take 3 = [first, second, third]) :
    words[index]? = some first ∧ words[index + 1]? = some second ∧ words[index + 2]? = some third := by
  have isFirst := congrArg (fun three => three[0]?) areThree
  have isSecond := congrArg (fun three => three[1]?) areThree
  have isThird := congrArg (fun three => three[2]?) areThree
  simp only [List.getElem?_take, List.getElem?_drop] at isFirst isSecond isThird
  exact ⟨isFirst, isSecond, isThird⟩

theorem clock_listedClock (seconds : Nat) : Splits.splitOnce [ ':'] (listedClock seconds) =
      some (ListLines.twoDigits (hourAt seconds), ListLines.twoDigits (minuteAt seconds)) ∧
    parseI64 (ListLines.twoDigits (hourAt seconds)) = some (hourAt seconds : Int) ∧
    parseI64 (ListLines.twoDigits (minuteAt seconds)) = some (minuteAt seconds : Int) := by
  have isHour := hourAt_lt seconds
  have isMinute := minuteAt_lt seconds
  have noColon : ∀ hour : Fin 24, ':' ∉ ListLines.twoDigits hour := by decide
  exact ⟨Splits.splitOnce_append_cons (noColon ⟨hourAt seconds, isHour⟩) _,
    ListLines.UnixEntry.parseI64_twoDigits (by omega), ListLines.UnixEntry.parseI64_twoDigits (by omega)⟩

namespace ListLines

/-- What `parse_unix` reads of a date. -/
def dateOf (month day timeOrYear : List Char) (now : Nat) : Option (Option Nat) := do
  let month ← monthNumber month
  let day ← parseI64 day
  modifiedOf now month day timeOrYear

theorem monthNumber_listedMonth (seconds : Nat) :
    monthNumber (listedMonth seconds) = some ((dateAt seconds).month : Int) := by
  have names : ∀ month : Fin 12,
      monthNumber (ScpListing.months.getD month []) = some ((month : Nat) + 1 : Int) := by
    decide
  have isMonth := (dateAt seconds).isMonth
  rw [listedMonth, names ⟨(dateAt seconds).month - 1, by omega⟩]
  simp only [Option.some_inj]
  omega

theorem unixSeconds_secondIn (seconds : Nat) {year : Int} (since : 1970 ≤ year) :
    unixSeconds year (dateAt seconds).month (dateAt seconds).day (hourAt seconds)
      (minuteAt seconds) 0 = some (secondIn seconds year).toNat := by
  have isMonth := (dateAt seconds).isMonth
  have isDay := (dateAt seconds).isDay
  have short := monthLength_bounds (dateAt seconds).year (dateAt seconds).month
  have isHour := hourAt_lt seconds
  have isMinute := minuteAt_lt seconds
  have notBefore := secondIn_nonneg seconds since
  rw [unixSeconds, if_pos (by omega), daysFromCivil_eq _ isMonth]
  simp only [Int.add_zero]
  rw [← secondIn, if_pos notBefore]

theorem dateOf_listed {now : Nat} (since : 365 * 86400 ≤ now) (seconds : Nat) :
    dateOf (listedMonth seconds) (listedDay seconds) (listedClock seconds) now =
      some (some (placed now seconds).toNat) := by
  have short := monthLength_bounds (dateAt seconds).year (dateAt seconds).month
  have isDay := (dateAt seconds).isDay
  have year := le_year_of_since since
  have dayEq : parseI64 (listedDay seconds) = some ((dateAt seconds).day : Int) :=
    parseI64_toDigits (by omega)
  obtain ⟨clock, hourEq, minuteEq⟩ := clock_listedClock seconds
  rw [dateOf, monthNumber_listedMonth, dayEq]
  simp only [Option.bind_eq_bind]
  rw [Option.bind_some, Option.bind_some, modifiedOf, clock]
  simp only [Option.bind_eq_bind, yearOf_eq]
  rw [hourEq, Option.bind_some, minuteEq, Option.bind_some,
    unixSeconds_secondIn seconds (by omega), unixSeconds_secondIn seconds (by omega),
    toNat_placed since]
  unfold secondsPerDay
  split_ifs with ahead
  · exact if_pos ahead
  · exact if_neg ahead

/-- The words of a line that `parse_unix` takes for a date. -/
def dateWords (line : List Char) : List (List Char) :=
  let fields := (splitWhitespace line).take unixLeadingFields
  ((findMonth fields).map fun index => (fields.drop index).take 3).getD []

theorem dateOf_of_parseUnix {line : List Char} {now : Nat} {item : ListedLine}
    (isRead : parseUnix line now = some item) {month day timeOrYear : List Char}
    (isDate : dateWords line = [month, day, timeOrYear]) :
    dateOf month day timeOrYear now = some item.item.metadata.modified := by
  unfold parseUnix at isRead
  simp only [Option.bind_eq_bind, Option.bind_eq_some_iff] at isRead
  obtain ⟨mode, -, kind, -, index, isMonth, rawName, -, isRead⟩ := isRead
  split_ifs at isRead with noName
  simp only [Option.bind_eq_some_iff, Option.some_inj] at isRead
  obtain ⟨monthNumber, monthEq, dayNumber, dayEq, modified, modifiedEq, rfl⟩ := isRead
  simp only [dateWords, isMonth, Option.map_some, Option.getD_some] at isDate
  obtain ⟨isFirst, isSecond, isThird⟩ := getElem?_of_take_three isDate
  rw [List.getD_eq_getElem?_getD, isFirst, Option.getD_some] at monthEq
  rw [List.getD_eq_getElem?_getD, isSecond, Option.getD_some] at dayEq
  rw [List.getD_eq_getElem?_getD, isThird, Option.getD_some] at modifiedEq
  rw [dateOf, monthEq, dayEq]
  exact modifiedEq

end ListLines

namespace ScpListing

theorem monthNumber_listedMonth (seconds : Nat) :
    monthNumber (listedMonth seconds) = some (dateAt seconds).month := by
  have names : ∀ month : Fin 12, monthNumber (months.getD month []) = some ((month : Nat) + 1) := by
    decide
  have isMonth := (dateAt seconds).isMonth
  rw [listedMonth, names ⟨(dateAt seconds).month - 1, by omega⟩]
  simp only [Option.some_inj]
  omega

theorem seconds_secondIn (seconds : Nat) {year : Int} (since : 1970 ≤ year) :
    ScpListing.seconds year (dateAt seconds).month (dateAt seconds).day
      (hourAt seconds * 60 + minuteAt seconds) = some (secondIn seconds year).toNat := by
  have isMonth := (dateAt seconds).isMonth
  have notBefore := secondIn_nonneg seconds since
  have isSecond : dayNumber year (dateAt seconds).month (dateAt seconds).day * (secondsPerDay : Nat) +
      (hourAt seconds * 60 + minuteAt seconds : Int) * 60 = secondIn seconds year := by
    unfold secondIn secondsPerDay
    omega
  rw [ScpListing.seconds, daysFromCivil_eq _ isMonth, isSecond, if_pos notBefore]

theorem modified_listed {now : Nat} (since : 365 * 86400 ≤ now) (seconds : Nat) :
    modified (listedMonth seconds) (listedDay seconds) (listedClock seconds) now =
      some (Porthmos.placed now seconds).toNat := by
  have short := monthLength_bounds (dateAt seconds).year (dateAt seconds).month
  have isDay := (dateAt seconds).isDay
  have year := le_year_of_since since
  have dayEq : parseU32 (listedDay seconds) = some (dateAt seconds).day :=
    parseU32_toDigits (by omega)
  have inMonth : ((some (dateAt seconds).day).filter fun day => 1 ≤ day ∧ day ≤ 31) =
      some (dateAt seconds).day := by
    rw [Option.filter_some, if_pos (by simp; omega)]
  obtain ⟨clock, hourEq, minuteEq⟩ := clock_listedClock seconds
  rw [modified, monthNumber_listedMonth, dayEq, inMonth, clock]
  simp only [Option.bind_eq_bind, yearOf_eq]
  rw [Option.bind_some, Option.bind_some, hourEq, Option.bind_some, minuteEq, Option.bind_some,
    seconds_secondIn seconds (by omega), seconds_secondIn seconds (by omega), Option.bind_some,
    toNat_placed since]
  unfold secondsPerDay
  split_ifs <;> rfl

/-- The date of a line stands behind its size, or behind the two numbers of a device. -/
def dateStart (line : List Char) : Nat :=
  if ((fields line)[4]?.any fun sizeOrMajor => isDevice sizeOrMajor.2) then 6 else 5

/-- The words of a line that `parse_line` takes for a date. -/
def dateWords (line : List Char) : List (List Char) :=
  (((fields line).map Prod.snd).drop (dateStart line)).take 3

theorem epoch_listedMonth (seconds : Nat) : epoch (listedMonth seconds) = none := by
  have names : ∀ month : Fin 12, epoch (months.getD month []) = none := by decide
  have isMonth := (dateAt seconds).isMonth
  exact names ⟨(dateAt seconds).month - 1, by omega⟩

theorem modified_of_parseLine {line : List Char} {now : Nat} {item : Line}
    (isRead : parseLine line now = some item) {month day timeOrYear : List Char}
    (isDate : dateWords line = [month, day, timeOrYear]) (noEpoch : epoch month = none) :
    item.metadata.modified = modified month day timeOrYear now := by
  obtain ⟨isFirst, isSecond, isThird⟩ := getElem?_of_take_three isDate
  rw [List.getElem?_map, Option.map_eq_some_iff] at isFirst isSecond isThird
  obtain ⟨first, firstEq, rfl⟩ := isFirst
  obtain ⟨second, secondEq, rfl⟩ := isSecond
  obtain ⟨third, thirdEq, rfl⟩ := isThird
  obtain ⟨mode, letter, sizeOrMajor, size, time, name, -, -, -, majorEq, -, timeEq, -, -, rfl⟩ :=
    parseLine_eq_some.mp isRead
  have start : dateStart line = if isDevice sizeOrMajor.2 then 6 else 5 := by
    rw [dateStart, majorEq, Option.any_some]
  simp only [← start, timeAndName, firstEq, secondEq, thirdEq, noEpoch, Option.bind_eq_bind,
    Option.bind_some, Option.bind_eq_some_iff, Option.some_inj] at timeEq
  obtain ⟨seconds, secondsEq, rfl⟩ := timeEq
  exact secondsEq.symm

end ScpListing

/-! ### Both of them -/

/-- A date without a year is read as its minute, unless it is of the year to come. -/
theorem listedDate_iff {now seconds : Nat} (since : 365 * 86400 ≤ now)
    (recent : now < seconds + 183 * 86400) (soon : seconds ≤ now + 86400) :
    (ListLines.dateOf (listedMonth seconds) (listedDay seconds) (listedClock seconds) now =
        some (some (seconds - seconds % 60)) ↔ (dateAt seconds).year ≤ (dateAt now).year) ∧
    (ScpListing.modified (listedMonth seconds) (listedDay seconds) (listedClock seconds) now =
        some (seconds - seconds % 60) ↔ (dateAt seconds).year ≤ (dateAt now).year) ∧
    (∀ line item, ListLines.parseUnix line now = some item →
      ListLines.dateWords line = [listedMonth seconds, listedDay seconds, listedClock seconds] →
      (item.item.metadata.modified = some (seconds - seconds % 60) ↔
        (dateAt seconds).year ≤ (dateAt now).year)) ∧
    ∀ line item, ScpListing.parseLine line now = some item →
      ScpListing.dateWords line = [listedMonth seconds, listedDay seconds, listedClock seconds] →
      (item.metadata.modified = some (seconds - seconds % 60) ↔
        (dateAt seconds).year ≤ (dateAt now).year) := by
  have found := placed_toNat_iff since recent soon
  have ftp := ListLines.dateOf_listed since seconds
  have scp := ScpListing.modified_listed since seconds
  refine ⟨?_, ?_, fun line item isRead isDate => ?_, fun line item isRead isDate => ?_⟩
  · rw [ftp, Option.some_inj, Option.some_inj, found]
  · rw [scp, Option.some_inj, found]
  · rw [ListLines.dateOf_of_parseUnix isRead isDate, Option.some_inj] at ftp
    rw [ftp, Option.some_inj, found]
  · rw [ScpListing.modified_of_parseLine isRead isDate (ScpListing.epoch_listedMonth seconds), scp,
      Option.some_inj, found]

/-- On the first of March 2024 the last half hour of the day before is found. -/
theorem listedDate_leapDay : listedMonth 1709249437 = "Feb".toList ∧ listedDay 1709249437 = "29".toList ∧
    listedClock 1709249437 = "23:30".toList ∧
    ListLines.dateOf (listedMonth 1709249437) (listedDay 1709249437) (listedClock 1709249437)
      1709251200 = some (some 1709249400) :=
  ⟨by decide, by decide, by decide,
    (listedDate_iff (by decide) (by decide) (by decide)).1.mpr (by decide)⟩

/-- At noon of the last day of 2023, the next morning is taken for that of the first
of January 2023. -/
theorem listedDate_newYear : 1704088800 ≤ 1704024000 + 86400 ∧
    ListLines.dateOf (listedMonth 1704088800) (listedDay 1704088800) (listedClock 1704088800)
      1704024000 = some (some 1672552800) ∧
    ScpListing.modified (listedMonth 1704088800) (listedDay 1704088800) (listedClock 1704088800)
      1704024000 = some 1672552800 := by
  rw [ListLines.dateOf_listed (by decide), ScpListing.modified_listed (by decide)]
  exact ⟨by decide, by decide, by decide⟩

end Porthmos
