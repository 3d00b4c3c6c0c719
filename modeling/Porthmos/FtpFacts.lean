import Porthmos.Calendar
import Porthmos.FtpListing

/-!
# Lines with facts

A newer FTP server answers a listing with lines of facts: names and values with
semicolons behind them, in any order, and then the name of the entry.
-/

namespace Porthmos

namespace ListLines

open Splits TextFields Calendar
open StateFiles (isWhitespace isWhitespace_of_isDigit)

/-- The metadata that the facts of a line tell. -/
structure Facts where
  metadata : Metadata
  permissions : Option Nat
  deriving DecidableEq, Repr

def digits (text : List Char) (first last : Nat) : Option Int :=
  (byteRange text first last).bind parseI64

def parseModify (value : List Char) : Option Nat := do
  let stamp := value.takeWhile (· ≠ '.')
  if byteLength stamp ≠ 14 then none
  else
    let year ← digits stamp 0 4
    let month ← digits stamp 4 6
    let day ← digits stamp 6 8
    let hour ← digits stamp 8 10
    let minute ← digits stamp 10 12
    let second ← digits stamp 12 14
    unixSeconds year month day hour minute second

/-- `u32::from_str_radix` of base 8 -/
def parseOctal (text : List Char) : Option Nat :=
  let digits := if text.head? = some '+' then text.tail else text
  let value := Nat.ofDigitChars 8 digits 0
  if digits ≠ [] ∧ (digits.all fun digit => '0' ≤ digit ∧ digit ≤ '7') ∧ value < 2 ^ 32 then
    some value
  else none

/-- The kind of a type; the folder that is listed and its parent may be left out. -/
def kindOfType (skipDirectoryMarkers : Bool) (value : List Char) : Option FileKind :=
  let value := value.map Char.toLower
  if value = "cdir".toList ∨ value = "pdir".toList then
    if skipDirectoryMarkers then none else some .dir
  else if value = "dir".toList then some .dir
  else if value = "file".toList then some .file
  else if "symlink".toList <:+: value ∨ "slink".toList <:+: value then some .symlink
  else some .file

/-- The names of facts are compared without case and without white space around them. -/
def factKey (name : List Char) : List Char := (trimMatches isWhitespace name).map Char.toLower

def takeFact (skipDirectoryMarkers : Bool) (sofar : Facts) (key value : List Char) : Option Facts :=
  if key = "type".toList then
    (kindOfType skipDirectoryMarkers value).map fun kind =>
      { sofar with metadata := { sofar.metadata with kind } }
  else if key = "size".toList ∨ key = "sizd".toList then
    some { sofar with metadata := { sofar.metadata with size := (parseU64 value).getD 0 } }
  else if key = "modify".toList then
    some { sofar with metadata := { sofar.metadata with modified := parseModify value } }
  else if key = "unix.mode".toList then
    some { sofar with permissions := parseOctal (value.dropWhile (· = '0')) }
  else some sofar

def readFact (skipDirectoryMarkers : Bool) (sofar : Facts) (fact : List Char) : Option Facts := do
  let (name, value) ← splitOnce ['='] fact
  takeFact skipDirectoryMarkers sofar (factKey name) value

def noFacts : Facts := ⟨⟨0, none, .file⟩, none⟩

def metadataFromFacts (facts : List Char) (skipDirectoryMarkers : Bool) : Option Facts :=
  ((facts.splitOn ';').filter (· ≠ [])).foldlM (readFact skipDirectoryMarkers) noFacts

def parseMlsdLine (line : List Char) : Option ListedLine := do
  let (facts, name) ← splitOnce [' '] line
  if name = [] ∨ name = ['.'] ∨ name = ['.', '.'] then none
  else
    let told ← metadataFromFacts facts true
    some {
      item := { name := String.ofList name, metadata := told.metadata, linkTarget := none }
      permissions := told.permissions }

/-- The stamp of a time, as the calendar of the standard has it. -/
def stampOf (seconds : Nat) : List (List Char) :=
  [padded 4 (dateAt seconds).year.toNat, padded 2 (dateAt seconds).month,
    padded 2 (dateAt seconds).day, padded 2 (hourAt seconds), padded 2 (minuteAt seconds),
    padded 2 (seconds % 60)]

def lastMfmtYear : Int := 9999

def mfmtStamp (seconds : Nat) : Except ProtocolError (List Char) :=
  if (dateAt seconds).year ≤ lastMfmtYear then .ok (stampOf seconds).flatten
  else .error ⟨.other, "a modification time of " ++ seconds.repr ++
    " seconds is beyond year 9999, which FTP can't express"⟩

/-! ### Dates -/

theorem daysFromCivil_eq (year : Int) {month : Nat} (isMonth : 1 ≤ month ∧ month ≤ 12) (day : Nat) :
    daysFromCivil year month day = dayNumber year month day := by
  rw [dayNumber_eq year isMonth, marchStart_eq]
  unfold daysFromCivil monthStart
  have early : (month : Int) ≤ 2 ↔ month ≤ 2 := by omega
  simp only [early]
  omega

theorem civilYearFromDays_eq (days : Int) : civilYearFromDays days = (Date.ofNumber days).year := by
  obtain ⟨era, place, cycle⟩ : ∃ era place, cycleOf days = (era, place) := ⟨_, _, rfl⟩
  have isDay := cycleOf_day days
  simp only [cycle] at isDay
  have inEra := place.dayOfEra_lt
  have isEra : (days + 719468) / 146097 = era := by omega
  have isDayOfEra : days + 719468 - era * 146097 = place.dayOfEra := by omega
  have isEarly : 10 ≤ (5 * (place.day : Int) + 2) / 153 ↔ place.month ≤ 2 := by
    have := place.isDay
    unfold CyclePlace.month CyclePlace.monthIndex
    split_ifs <;> omega
  simp only [civilYearFromDays, isEra, isDayOfEra, place.yearOfEra_eq, place.dayOfEra_sub,
    Date.ofNumber, cycle, isEarly, CyclePlace.civilYear]
  rw [Int.add_comm (place.yearOfEra : Int), Int.mul_comm era]

theorem yearOf_eq (seconds : Nat) : yearOf seconds = (dateAt seconds).year :=
  civilYearFromDays_eq _

/-! ### Times -/

theorem unixSeconds_dateAt (seconds : Nat) :
    unixSeconds (dateAt seconds).year (dateAt seconds).month (dateAt seconds).day (hourAt seconds)
      (minuteAt seconds) (seconds % 60 : Nat) = some seconds := by
  have isSecond := second_eq seconds
  have isMonth := (dateAt seconds).isMonth
  have isDay := (dateAt seconds).isDay
  have short := monthLength_bounds (dateAt seconds).year (dateAt seconds).month
  have isHour := hourAt_lt seconds
  have isMinute := minuteAt_lt seconds
  rw [Date.number, ← daysFromCivil_eq _ isMonth] at isSecond
  unfold unixSeconds
  rw [if_pos (by omega), isSecond, if_pos (Int.natCast_nonneg _), Int.toNat_natCast]

theorem digits_flatten {fields : List (List Char)} (index : Nat) {width value first last : Nat}
    (isField : fields[index]? = some (padded width value))
    (fits : 0 < width ∧ value < 10 ^ width ∧ value < 2 ^ 63) (start : startOf fields index = first)
    (stop : first + width = last) : digits fields.flatten first last = some (value : Int) := by
  have field := byteRange_flatten isField
  rw [byteLength_padded fits.1 fits.2.1, start, stop] at field
  rw [digits, field, Option.bind_some, parseI64_padded fits.2.2]

theorem isDigit_of_mem_stampOf {seconds : Nat} {character : Char}
    (member : character ∈ (stampOf seconds).flatten) : character.isDigit = true := by
  obtain ⟨field, isField, inField⟩ := List.mem_flatten.mp member
  have areDigits : isDigits field = true := by
    simp only [stampOf, List.mem_cons, List.not_mem_nil, or_false] at isField
    rcases isField with rfl | rfl | rfl | rfl | rfl | rfl <;> exact isDigits_padded _ _
  exact isDigit_of_isDigits areDigits inField

/-- A second before the year 10000 is read as the calendar prints it. -/
theorem parseModify_stampOf {seconds : Nat}
    (inTime : (seconds : Int) < dayNumber 10000 1 1 * 86400) :
    parseModify (stampOf seconds).flatten = some seconds := by
  have since := le_year_dateAt seconds
  have before := year_dateAt_lt inTime
  have isSecond := unixSeconds_dateAt seconds
  have isStamp : stampOf seconds = [padded 4 (dateAt seconds).year.toNat,
    padded 2 (dateAt seconds).month, padded 2 (dateAt seconds).day, padded 2 (hourAt seconds),
    padded 2 (minuteAt seconds), padded 2 (seconds % 60)] := rfl
  generalize dateAt seconds = date at *
  have isMonth := date.isMonth
  have isDay := date.isDay
  have short := monthLength_bounds date.year date.month
  have isHour := hourAt_lt seconds
  have isMinute := minuteAt_lt seconds
  obtain ⟨year, isYear⟩ : ∃ year : Nat, date.year = year := ⟨date.year.toNat, by omega⟩
  have four : byteLength (padded 4 year) = 4 := byteLength_padded (by decide) (by omega)
  have two {value : Nat} (small : value < 100) : byteLength (padded 2 value) = 2 :=
    byteLength_padded (by decide) small
  rw [isYear, Int.toNat_natCast] at isStamp
  have lengths : (stampOf seconds).map byteLength = [4, 2, 2, 2, 2, 2] := by
    simp only [isStamp, List.map_cons, List.map_nil, four, two (show date.month < 100 by omega),
      two (show date.day < 100 by omega), two (show hourAt seconds < 100 by omega),
      two (show minuteAt seconds < 100 by omega), two (show seconds % 60 < 100 by omega)]
  have start (index : Nat) :
      startOf (stampOf seconds) index = ([4, 2, 2, 2, 2, 2].take index).sum := by
    rw [startOf, lengths]
  have length : byteLength (stampOf seconds).flatten = 14 := by
    rw [byteLength_flatten, lengths]
    rfl
  have noPoint : (stampOf seconds).flatten.takeWhile (· ≠ '.') = (stampOf seconds).flatten := by
    rw [List.takeWhile_eq_self_iff]
    intro character member
    have isDigit := isDigit_of_mem_stampOf member
    rw [decide_eq_true_eq]
    rintro rfl
    cases isDigit
  have yearRead : digits (stampOf seconds).flatten 0 4 = some (year : Int) :=
    digits_flatten 0 (by rw [isStamp]; rfl) (by omega) (start 0) rfl
  have monthRead : digits (stampOf seconds).flatten 4 6 = some (date.month : Int) :=
    digits_flatten 1 (by rw [isStamp]; rfl) (by omega) (start 1) rfl
  have dayRead : digits (stampOf seconds).flatten 6 8 = some (date.day : Int) :=
    digits_flatten 2 (by rw [isStamp]; rfl) (by omega) (start 2) rfl
  have hourRead : digits (stampOf seconds).flatten 8 10 = some (hourAt seconds : Int) :=
    digits_flatten 3 (by rw [isStamp]; rfl) (by omega) (start 3) rfl
  have minuteRead : digits (stampOf seconds).flatten 10 12 = some (minuteAt seconds : Int) :=
    digits_flatten 4 (by rw [isStamp]; rfl) (by omega) (start 4) rfl
  have secondRead : digits (stampOf seconds).flatten 12 14 = some ((seconds % 60 : Nat) : Int) :=
    digits_flatten 5 (by rw [isStamp]; rfl) (by omega) (start 5) rfl
  rw [parseModify]
  simp only [noPoint, length, Option.bind_eq_bind]
  rw [if_neg (by simp), yearRead, Option.bind_some, monthRead, Option.bind_some, dayRead,
    Option.bind_some, hourRead, Option.bind_some, minuteRead, Option.bind_some, secondRead,
    Option.bind_some, ← isYear, isSecond]

theorem mfmtStamp_eq {seconds : Nat} (inTime : (seconds : Int) < dayNumber 10000 1 1 * 86400) :
    mfmtStamp seconds = .ok (stampOf seconds).flatten := by
  have before := year_dateAt_lt inTime
  rw [mfmtStamp, if_pos]
  unfold lastMfmtYear
  omega

/-! ### Entries -/

/-- A fact about an entry, with its name as a server may spell it. -/
inductive Fact
  | type (name : List Char) (folder : Bool)
  | size (name : List Char) (bytes : Nat)
  | modify (name : List Char) (seconds : Nat)
  | mode (name : List Char) (zeros bits : Nat)
  | other (name value : List Char)

namespace Fact

def name : Fact → List Char
  | type name _ | size name _ | modify name _ | mode name _ _ | other name _ => name

def value : Fact → List Char
  | type _ folder => if folder then "dir".toList else "file".toList
  | size _ bytes => Nat.toDigits 10 bytes
  | modify _ seconds => (stampOf seconds).flatten
  | mode _ zeros bits => List.replicate zeros '0' ++ Nat.toDigits 8 bits
  | other _ value => value

def text (fact : Fact) : List Char := fact.name ++ '=' :: fact.value

/-- The names are spelled in any case; another fact is none of them. -/
def IsNamed : Fact → Prop
  | type name _ => name.map Char.toLower = "type".toList
  | size name _ => name.map Char.toLower = "size".toList
  | modify name _ => name.map Char.toLower = "modify".toList
  | mode name _ _ => name.map Char.toLower = "unix.mode".toList
  | other name value => '=' ∉ name ∧ (∀ character ∈ name ++ value, character ≠ ';' ∧ character ≠ ' ') ∧
      factKey name ∉ ["type".toList, "size".toList, "modify".toList, "unix.mode".toList]

/-- The fact of the size has a second name, which servers use for folders. -/
def toldSize : Fact → Option Nat
  | size _ bytes => some bytes
  | other name value =>
    if factKey name = "sizd".toList then some ((parseU64 value).getD 0) else none
  | _ => none

end Fact

/-- An entry as an answer to `MLSD` has it. -/
structure MlsdEntry where
  name : List Char
  notEmpty : name ≠ []
  notCurrent : name ≠ ['.']
  notParent : name ≠ ['.', '.']
  folder : Bool
  size : Nat
  sizeFits : size < 2 ^ 64
  modified : Option Nat
  inTime : ∀ seconds, modified = some seconds → (seconds : Int) < dayNumber 10000 1 1 * 86400
  permissions : Option Nat
  isMode : ∀ bits, permissions = some bits → bits < 8 ^ 4
  typeName : List Char
  sizeName : List Char
  modifyName : List Char
  modeName : List Char
  zeros : Nat
  others : List (List Char × List Char)
  facts : List Fact
  areNamed : ∀ fact ∈ facts, fact.IsNamed
  anyOrder : facts.Perm
    ([.type typeName folder, .size sizeName size] ++ (modified.map (.modify modifyName)).toList ++
      (permissions.map (.mode modeName zeros)).toList ++
      others.map fun other => .other other.1 other.2)

namespace MlsdEntry

variable (entry : MlsdEntry)

def render : List Char :=
  entry.facts.flatMap (fun fact => fact.text ++ [';']) ++ ' ' :: entry.name

def line : ListedLine where
  item := {
    name := String.ofList entry.name
    metadata := {
      size := entry.size
      modified := entry.modified
      kind := if entry.folder then .dir else .file }
    linkTarget := none }
  permissions := entry.permissions

/-- The line of an entry is read as the entry. -/
def ReadBack : Prop := parseMlsdLine entry.render = some entry.line

/-- The last fact that tells a size tells that of the entry. -/
def SizeLast : Prop := (entry.facts.filterMap Fact.toldSize).getLast? = some entry.size

end MlsdEntry

/-! ### Reading the facts -/

/-- What a fact changes. -/
def Fact.apply (sofar : Facts) : Fact → Facts
  | .type _ folder =>
    { sofar with metadata := { sofar.metadata with kind := if folder then .dir else .file } }
  | .size _ bytes => { sofar with metadata := { sofar.metadata with size := bytes } }
  | .modify _ seconds => { sofar with metadata := { sofar.metadata with modified := some seconds } }
  | .mode _ _ bits => { sofar with permissions := if bits = 0 then none else some bits }
  | .other name value =>
    if factKey name = "sizd".toList then
      { sofar with metadata := { sofar.metadata with size := (parseU64 value).getD 0 } }
    else sofar

/-- The numbers of a fact are in the ranges of the metadata. -/
def Fact.IsInRange : Fact → Prop
  | .size _ bytes => bytes < 2 ^ 64
  | .modify _ seconds => (seconds : Int) < dayNumber 10000 1 1 * 86400
  | .mode _ _ bits => bits < 8 ^ 4
  | _ => True

theorem ofDigitChars_dropWhile (base : Nat) (digits : List Char) :
    Nat.ofDigitChars base (digits.dropWhile (· = '0')) 0 = Nat.ofDigitChars base digits 0 := by
  induction digits with
  | nil => rfl
  | cons digit digits ih =>
    rw [List.dropWhile_cons]
    split_ifs with isZero
    · rw [decide_eq_true_eq] at isZero
      rw [ih, isZero, Nat.ofDigitChars_cons]
      simp
    · rfl

theorem le_ofDigitChars {base : Nat} (positive : 0 < base) (digits : List Char) (value : Nat) :
    value ≤ Nat.ofDigitChars base digits value := by
  induction digits generalizing value with
  | nil => simp
  | cons digit digits ih =>
    rw [Nat.ofDigitChars_cons]
    exact (Nat.le_mul_of_pos_left value positive).trans ((Nat.le_add_right _ _).trans (ih _))

theorem isOctal_of_mem_toDigits {bits : Nat} {digit : Char} (member : digit ∈ Nat.toDigits 8 bits) :
    '0' ≤ digit ∧ digit ≤ '7' := by
  have small : ∀ value : Fin 8, '0' ≤ value.val.digitChar ∧ value.val.digitChar ≤ '7' := by decide
  induction bits using Nat.strongRecOn with
  | _ bits ih =>
    rw [Nat.toDigits_eq_if (by decide)] at member
    split_ifs at member with isSmall
    · rw [List.mem_singleton] at member
      exact member ▸ small ⟨bits, isSmall⟩
    · rcases List.mem_append.mp member with inFront | isLast
      · exact ih _ (by omega) inFront
      · rw [List.mem_singleton] at isLast
        exact isLast ▸ small ⟨bits % 8, by omega⟩

/-- A mode is read, unless all its digits are zeros. -/
theorem parseOctal_mode {zeros bits : Nat} (inRange : bits < 8 ^ 4) :
    parseOctal ((List.replicate zeros '0' ++ Nat.toDigits 8 bits).dropWhile (· = '0')) =
      if bits = 0 then none else some bits := by
  have value := ofDigitChars_dropWhile 8 (List.replicate zeros '0' ++ Nat.toDigits 8 bits)
  rw [Nat.ofDigitChars_append, Nat.ofDigitChars_replicate_zero, Nat.mul_zero,
    Nat.ofDigitChars_toDigits (by decide) (by decide)] at value
  have octal : ∀ digit ∈ (List.replicate zeros '0' ++ Nat.toDigits 8 bits).dropWhile (· = '0'),
      '0' ≤ digit ∧ digit ≤ '7' := by
    intro digit member
    rcases List.mem_append.mp ((List.dropWhile_sublist _).mem member) with isZero | isDigit
    · rw [List.eq_of_mem_replicate isZero]
      decide
    · exact isOctal_of_mem_toDigits isDigit
  generalize isText : (List.replicate zeros '0' ++ Nat.toDigits 8 bits).dropWhile (· = '0') = text
    at *
  have noPlus : text.head? ≠ some '+' := by
    intro isHead
    exact absurd (octal '+' (List.mem_of_mem_head? isHead)) (by decide)
  have areOctal : (text.all fun digit => '0' ≤ digit ∧ digit ≤ '7') = true := by
    rw [List.all_eq_true]
    exact fun digit member => decide_eq_true (octal digit member)
  have fits : bits < 2 ^ 32 := by omega
  simp only [parseOctal, if_neg noPlus, value, areOctal, fits, and_self, and_true]
  cases text with
  | nil =>
    have isZero : bits = 0 := value.symm
    simp [isZero]
  | cons digit rest =>
    have notZero : digit ≠ '0' := by
      have isFirst := List.head?_dropWhile_not (· = '0')
        (List.replicate zeros '0' ++ Nat.toDigits 8 bits)
      simpa [isText] using isFirst
    have isDigit := (octal digit List.mem_cons_self).1
    have above : 48 < digit.toNat := Nat.lt_of_le_of_ne isDigit fun isZero =>
      notZero (Char.toNat_inj.mp isZero.symm)
    have atLeast := le_ofDigitChars (by decide : 0 < 8) rest (digit.toNat - 48)
    rw [Nat.ofDigitChars_cons] at value
    have positive : bits ≠ 0 := by
      simp at value
      omega
    simp [positive]

theorem toLower_of_isWhitespace {character : Char} (isBlank : isWhitespace character = true) :
    character.toLower = character := by
  unfold Char.toLower
  rw [dif_neg]
  rintro ⟨lower, upper⟩
  have atLeast : 65 ≤ character.toNat := lower
  have atMost : character.toNat ≤ 90 := upper
  unfold isWhitespace at isBlank
  generalize character.toNat = code at *
  simp at isBlank
  omega

theorem factKey_of_name {name key : List Char} (isName : name.map Char.toLower = key)
    (solid : (key.all fun character => !isWhitespace character) = true) : factKey name = key := by
  have nameSolid : ∀ character ∈ name, isWhitespace character = false := by
    intro character member
    by_contra isBlank
    rw [Bool.not_eq_false] at isBlank
    have inKey : character.toLower ∈ key := isName ▸ List.mem_map_of_mem member
    rw [toLower_of_isWhitespace isBlank] at inKey
    have isSolid := List.all_eq_true.mp solid character inKey
    rw [isBlank] at isSolid
    cases isSolid
  rw [factKey, trimMatches_eq_self, isName]
  · exact fun character isFirst => nameSolid character (List.mem_of_mem_head? isFirst)
  · exact fun character isLast => nameSolid character (List.mem_of_getLast? isLast)

theorem readFact_append {name : List Char} (noEquals : '=' ∉ name) (value : List Char)
    (skipDirectoryMarkers : Bool) (sofar : Facts) :
    readFact skipDirectoryMarkers sofar (name ++ '=' :: value) =
      takeFact skipDirectoryMarkers sofar (factKey name) value := by
  rw [readFact, splitOnce_append_cons noEquals]
  rfl

theorem not_mem_of_name {name key : List Char} (isName : name.map Char.toLower = key)
    {character : Char} (same : character.toLower = character) (absent : character ∉ key) :
    character ∉ name := by
  intro member
  exact absent (isName ▸ same ▸ List.mem_map_of_mem member)

theorem readFact_text {fact : Fact} (isNamed : fact.IsNamed) (inRange : fact.IsInRange)
    (sofar : Facts) : readFact true sofar fact.text = some (fact.apply sofar) := by
  have noEquals : '=' ∉ fact.name := by
    cases fact with
    | type name _ => exact not_mem_of_name isNamed rfl (by decide)
    | size name _ => exact not_mem_of_name isNamed rfl (by decide)
    | modify name _ => exact not_mem_of_name isNamed rfl (by decide)
    | mode name _ _ => exact not_mem_of_name isNamed rfl (by decide)
    | other name _ => exact isNamed.1
  rw [Fact.text, readFact_append noEquals]
  cases fact with
  | type name folder =>
    rw [Fact.name, factKey_of_name isNamed (by decide)]
    cases folder <;> rfl
  | size name bytes =>
    rw [Fact.name, factKey_of_name isNamed (by decide), Fact.value, takeFact,
      if_neg (by decide), if_pos (by decide), parseU64_toDigits inRange]
    rfl
  | modify name seconds =>
    rw [Fact.name, factKey_of_name isNamed (by decide), Fact.value, takeFact,
      if_neg (by decide), if_neg (by decide), if_pos (by decide), parseModify_stampOf inRange]
    rfl
  | mode name zeros bits =>
    rw [Fact.name, factKey_of_name isNamed (by decide), Fact.value, takeFact,
      if_neg (by decide), if_neg (by decide), if_neg (by decide), if_pos (by decide),
      parseOctal_mode inRange]
    rfl
  | other name value =>
    obtain ⟨-, -, isOther⟩ := isNamed
    simp only [List.mem_cons, List.not_mem_nil, or_false, not_or] at isOther
    obtain ⟨noType, noSize, noModify, noMode⟩ := isOther
    rw [Fact.name, Fact.value, takeFact, if_neg noType]
    by_cases isSecond : factKey name = "sizd".toList
    · rw [if_pos (.inr isSecond), Fact.apply, if_pos isSecond]
    · rw [if_neg (not_or.mpr ⟨noSize, isSecond⟩), if_neg noModify, if_neg noMode, Fact.apply,
        if_neg isSecond]

/-! ### Reading the line -/

theorem foldl_eq_getLast {σ β γ : Type} {apply : σ → β → σ} {told : β → Option γ} (get : σ → γ)
    (step : ∀ sofar fact, get (apply sofar fact) = (told fact).getD (get sofar)) (sofar : σ)
    (facts : List β) :
    get (facts.foldl apply sofar) = (facts.filterMap told).getLast?.getD (get sofar) := by
  induction facts generalizing sofar with
  | nil => rfl
  | cons fact facts ih =>
    rw [List.foldl_cons, ih, step]
    cases isTold : told fact with
    | none => rw [List.filterMap_cons_none isTold]; rfl
    | some value =>
      rw [List.filterMap_cons_some isTold, List.getLast?_cons]
      cases (facts.filterMap told).getLast? <;> rfl

theorem foldlM_readFact {facts : List Fact} (areNamed : ∀ fact ∈ facts, fact.IsNamed)
    (inRange : ∀ fact ∈ facts, fact.IsInRange) (sofar : Facts) :
    (facts.map Fact.text).foldlM (readFact true) sofar = some (facts.foldl Fact.apply sofar) := by
  induction facts generalizing sofar with
  | nil => rfl
  | cons fact facts ih =>
    rw [List.map_cons, List.foldlM_cons, readFact_text (areNamed fact List.mem_cons_self)
      (inRange fact List.mem_cons_self)]
    exact ih (fun other member => areNamed other (List.mem_cons_of_mem _ member))
      (fun other member => inRange other (List.mem_cons_of_mem _ member)) _

/-- No fact has a separator in it. -/
theorem not_mem_text {fact : Fact} (isNamed : fact.IsNamed) {separator : Char}
    (isSeparator : separator = ';' ∨ separator = ' ') : separator ∉ fact.text := by
  have notDigit : separator.isDigit = false := by rcases isSeparator with rfl | rfl <;> rfl
  have notOctal : ¬ ('0' ≤ separator ∧ separator ≤ '7') := by
    rcases isSeparator with rfl | rfl <;> decide
  have same : separator.toLower = separator := by rcases isSeparator with rfl | rfl <;> rfl
  have notEquals : separator ≠ '=' := by rcases isSeparator with rfl | rfl <;> decide
  suffices apart : separator ∉ fact.name ∧ separator ∉ fact.value by
    simp [Fact.text, apart, notEquals]
  cases fact with
  | type name folder =>
    have absent : ∀ folder : Bool, separator ∉ if folder then "dir".toList else "file".toList := by
      rcases isSeparator with rfl | rfl <;> decide
    refine ⟨not_mem_of_name isNamed same ?_, absent folder⟩
    rcases isSeparator with rfl | rfl <;> decide
  | size name bytes =>
    refine ⟨not_mem_of_name isNamed same ?_, fun member => ?_⟩
    · rcases isSeparator with rfl | rfl <;> decide
    · rw [Nat.isDigit_of_mem_toDigits (by decide) (by decide) member] at notDigit
      cases notDigit
  | modify name seconds =>
    refine ⟨not_mem_of_name isNamed same ?_, fun member => ?_⟩
    · rcases isSeparator with rfl | rfl <;> decide
    · rw [isDigit_of_mem_stampOf member] at notDigit
      cases notDigit
  | mode name zeros bits =>
    refine ⟨not_mem_of_name isNamed same ?_, fun member => ?_⟩
    · rcases isSeparator with rfl | rfl <;> decide
    · rcases List.mem_append.mp member with isZero | isOctal
      · rw [List.eq_of_mem_replicate isZero] at notOctal
        exact notOctal (by decide)
      · exact notOctal (isOctal_of_mem_toDigits isOctal)
  | other name value =>
    have solid := isNamed.2.1
    refine ⟨fun member => ?_, fun member => ?_⟩
    · have apart := solid separator (List.mem_append_left _ member)
      exact isSeparator.elim apart.1 apart.2
    · have apart := solid separator (List.mem_append_right _ member)
      exact isSeparator.elim apart.1 apart.2

theorem splitOn_flatMap {pieces : List (List Char)} {separator : Char}
    (absent : ∀ piece ∈ pieces, separator ∉ piece) :
    (pieces.flatMap fun piece => piece ++ [separator]).splitOn separator = pieces ++ [[]] := by
  induction pieces with
  | nil => rfl
  | cons piece pieces ih =>
    have noSeparator : ∀ character ∈ piece, (character == separator) = false := by
      intro character member
      rw [beq_eq_false_iff_ne]
      rintro rfl
      exact absent piece List.mem_cons_self member
    rw [List.flatMap_cons, List.append_assoc, List.singleton_append,
      List.splitOn_append_cons_of_forall_mem_beq_eq_false noSeparator _ (beq_self_eq_true _),
      ih fun other member => absent other (List.mem_cons_of_mem _ member), List.cons_append]

namespace MlsdEntry

variable (entry : MlsdEntry)

theorem inRange_facts : ∀ fact ∈ entry.facts, fact.IsInRange := by
  intro fact member
  have known := entry.anyOrder.mem_iff.mp member
  simp only [List.mem_append, List.mem_cons, List.not_mem_nil, or_false, Option.mem_toList,
    Option.map_eq_some_iff, List.mem_map] at known
  rcases known with ((((rfl | rfl) | ⟨seconds, isTime, rfl⟩) | ⟨bits, isMode, rfl⟩) | ⟨other, -, rfl⟩)
  · trivial
  · exact entry.sizeFits
  · exact entry.inTime seconds isTime
  · exact entry.isMode bits isMode
  · trivial

theorem metadataFromFacts_render :
    metadataFromFacts (entry.facts.flatMap fun fact => fact.text ++ [';']) true =
      some (entry.facts.foldl Fact.apply noFacts) := by
  have pieces := @splitOn_flatMap (entry.facts.map Fact.text) ';' (by
    intro piece member
    obtain ⟨fact, isFact, rfl⟩ := List.mem_map.mp member
    exact not_mem_text (entry.areNamed fact isFact) (.inl rfl))
  have notEmpty : ∀ piece ∈ entry.facts.map Fact.text, decide (piece ≠ []) = true := by
    intro piece member
    obtain ⟨fact, -, rfl⟩ := List.mem_map.mp member
    simp [Fact.text]
  rw [List.flatMap_map] at pieces
  rw [metadataFromFacts, pieces, List.filter_append, List.filter_eq_self.mpr notEmpty]
  simpa using foldlM_readFact entry.areNamed entry.inRange_facts noFacts

end MlsdEntry

namespace Fact

def toldKind : Fact → Option FileKind
  | .type _ folder => some (if folder then .dir else .file)
  | _ => none

def toldModified : Fact → Option (Option Nat)
  | .modify _ seconds => some (some seconds)
  | _ => none

def toldPermissions : Fact → Option (Option Nat)
  | .mode _ _ bits => some (if bits = 0 then none else some bits)
  | _ => none

theorem kind_apply (sofar : Facts) (fact : Fact) :
    (fact.apply sofar).metadata.kind = fact.toldKind.getD sofar.metadata.kind := by
  cases fact <;> simp only [apply, toldKind] <;> (try split_ifs) <;> rfl

theorem size_apply (sofar : Facts) (fact : Fact) :
    (fact.apply sofar).metadata.size = fact.toldSize.getD sofar.metadata.size := by
  cases fact <;> simp only [apply, toldSize] <;> (try split_ifs) <;> rfl

theorem modified_apply (sofar : Facts) (fact : Fact) :
    (fact.apply sofar).metadata.modified = fact.toldModified.getD sofar.metadata.modified := by
  cases fact <;> simp only [apply, toldModified] <;> (try split_ifs) <;> rfl

theorem permissions_apply (sofar : Facts) (fact : Fact) :
    (fact.apply sofar).permissions = fact.toldPermissions.getD sofar.permissions := by
  cases fact <;> simp only [apply, toldPermissions] <;> (try split_ifs) <;> rfl

end Fact

namespace MlsdEntry

variable (entry : MlsdEntry)

theorem filterMap_facts {γ : Type} {told : Fact → Option γ}
    (others : ∀ name value, told (.other name value) = none) {values : List γ}
    (known : ([.type entry.typeName entry.folder, .size entry.sizeName entry.size] ++
      (entry.modified.map (.modify entry.modifyName)).toList ++
      (entry.permissions.map (.mode entry.modeName entry.zeros)).toList : List Fact).filterMap told =
        values)
    (single : values.length ≤ 1) : entry.facts.filterMap told = values := by
  have inOrder := entry.anyOrder.filterMap told
  have noOthers : (entry.others.map fun other => Fact.other other.1 other.2).filterMap told = [] := by
    rw [List.filterMap_map, List.filterMap_eq_nil_iff]
    exact fun other _ => others other.1 other.2
  rw [List.filterMap_append, known, noOthers, List.append_nil] at inOrder
  match values, single with
  | [], _ => exact inOrder.eq_nil
  | [_], _ => exact List.perm_singleton.mp inOrder

/-- The facts tell what is known of the entry, a mode of zeros aside. -/
theorem foldl_facts : entry.facts.foldl Fact.apply noFacts = {
    metadata := {
      size := ((entry.facts.filterMap Fact.toldSize).getLast?).getD 0
      modified := entry.modified
      kind := if entry.folder then .dir else .file }
    permissions := if entry.permissions = some 0 then none else entry.permissions } := by
  have kinds : entry.facts.filterMap Fact.toldKind = [if entry.folder then .dir else .file] := by
    apply entry.filterMap_facts (fun _ _ => rfl) _ le_rfl
    cases entry.modified <;> cases entry.permissions <;> rfl
  have modified : entry.facts.filterMap Fact.toldModified = (entry.modified.map some).toList := by
    apply entry.filterMap_facts (fun _ _ => rfl)
    · cases entry.modified <;> cases entry.permissions <;> rfl
    · cases entry.modified <;> simp
  have modes : entry.facts.filterMap Fact.toldPermissions =
      (entry.permissions.map fun bits => if bits = 0 then none else some bits).toList := by
    apply entry.filterMap_facts (fun _ _ => rfl)
    · cases entry.modified <;> cases entry.permissions <;> rfl
    · cases entry.permissions <;> simp
  have kind := foldl_eq_getLast (fun sofar : Facts => sofar.metadata.kind) Fact.kind_apply noFacts
    entry.facts
  have size := foldl_eq_getLast (fun sofar : Facts => sofar.metadata.size) Fact.size_apply noFacts
    entry.facts
  have time := foldl_eq_getLast (fun sofar : Facts => sofar.metadata.modified) Fact.modified_apply
    noFacts entry.facts
  have mode := foldl_eq_getLast Facts.permissions Fact.permissions_apply noFacts entry.facts
  rw [kinds] at kind
  rw [modified] at time
  rw [modes] at mode
  generalize entry.facts.foldl Fact.apply noFacts = told at *
  obtain ⟨⟨toldSize, toldTime, toldKind⟩, toldMode⟩ := told
  have isTime : toldTime = entry.modified := by
    rw [show toldTime = _ from time]
    cases entry.modified <;> rfl
  have isMode : toldMode = if entry.permissions = some 0 then none else entry.permissions := by
    rw [show toldMode = _ from mode]
    cases entry.permissions with
    | none => rfl
    | some bits => simp
  rw [show toldKind = _ from kind, show toldSize = _ from size, isTime, isMode]
  rfl

/-- The line of an entry is read as the entry, exactly when its mode is not zero and
no second size contradicts the first. -/
theorem readBack_iff : entry.ReadBack ↔ entry.permissions ≠ some 0 ∧ entry.SizeLast := by
  have noSpace : ' ' ∉ entry.facts.flatMap fun fact => fact.text ++ [';'] := by
    intro member
    obtain ⟨fact, isFact, inFact⟩ := List.mem_flatMap.mp member
    rcases List.mem_append.mp inFact with inText | isEnd
    · exact not_mem_text (entry.areNamed fact isFact) (.inr rfl) inText
    · exact absurd (List.mem_singleton.mp isEnd) (by decide)
  have named : ¬ (entry.name = [] ∨ entry.name = ['.'] ∨ entry.name = ['.', '.']) := by
    rintro (empty | current | parent)
    · exact entry.notEmpty empty
    · exact entry.notCurrent current
    · exact entry.notParent parent
  have read : parseMlsdLine entry.render = some {
      item := {
        name := String.ofList entry.name
        metadata := {
          size := ((entry.facts.filterMap Fact.toldSize).getLast?).getD 0
          modified := entry.modified
          kind := if entry.folder then .dir else .file }
        linkTarget := none }
      permissions := if entry.permissions = some 0 then none else entry.permissions } := by
    rw [parseMlsdLine, render, splitOnce_append_cons noSpace]
    simp only [Option.bind_eq_bind, Option.bind_some, if_neg named, metadataFromFacts_render,
      foldl_facts]
  obtain ⟨bytes, last⟩ : ∃ bytes, (entry.facts.filterMap Fact.toldSize).getLast? = some bytes := by
    have member : Fact.size entry.sizeName entry.size ∈ entry.facts :=
      entry.anyOrder.mem_iff.mpr (by simp)
    have inSizes : entry.size ∈ entry.facts.filterMap Fact.toldSize :=
      List.mem_filterMap.mpr ⟨_, member, rfl⟩
    exact ⟨_, List.getLast?_eq_some_getLast (List.ne_nil_of_mem inSizes)⟩
  rw [ReadBack, read, SizeLast, last, line]
  simp only [Option.some_inj, ListedLine.mk.injEq, ListedItem.mk.injEq, Metadata.mk.injEq,
    Option.getD_some, true_and, and_true]
  rw [and_comm]
  refine and_congr_left fun _ => ?_
  split_ifs with isZero
  · simp [isZero]
  · simp [isZero]

/-- A file that nobody may read, write or run: `Type=file;Size=5;UNIX.mode=0000; a`. -/
def lockedAway : MlsdEntry where
  name := ['a']
  notEmpty := by decide
  notCurrent := by decide
  notParent := by decide
  folder := false
  size := 5
  sizeFits := by decide
  modified := none
  inTime := nofun
  permissions := some 0
  isMode := by decide
  typeName := "Type".toList
  sizeName := "Size".toList
  modifyName := "Modify".toList
  modeName := "UNIX.mode".toList
  zeros := 3
  others := []
  facts := [.type "Type".toList false, .size "Size".toList 5, .mode "UNIX.mode".toList 3 0]
  areNamed := by
    simp only [List.forall_mem_cons, Fact.IsNamed]
    exact ⟨rfl, rfl, rfl, by simp⟩
  anyOrder := .refl _

/-- A mode of zeros is lost. -/
theorem not_readBack_lockedAway : ¬ lockedAway.ReadBack ∧
    (parseMlsdLine lockedAway.render).map ListedLine.permissions = some none := by
  unfold ReadBack
  decide

end MlsdEntry

end ListLines

end Porthmos
