import Porthmos.Calendar
import Porthmos.FileSystem
import Porthmos.OutputLines
import Porthmos.Splits
import Porthmos.TextFields

/-!
# Listings over a shell

A server without a protocol for files lists a folder with `ls`.  It is asked for
numbers in place of names and for seconds in place of dates, and a server that
does not know how to print these prints dates.
-/

namespace Porthmos

namespace ScpListing

open OutputLines Splits TextFields Calendar

structure Line where
  name : String
  metadata : Metadata
  permissions : Option Nat
  deriving DecidableEq, Repr

def months : List (List Char) :=
  ["Jan", "Feb", "Mar", "Apr", "May", "Jun", "Jul", "Aug", "Sep", "Oct", "Nov", "Dec"].map
    String.toList

def secondsPerDay : Nat := 86400

/-! ### Dates -/

def daysFromCivil (year : Int) (month day : Nat) : Int :=
  let year := year - if month ≤ 2 then 1 else 0
  let era := year / 400
  let yearOfEra := year % 400
  let month : Int := month
  let dayOfYear := (153 * (if month > 2 then month - 3 else month + 9) + 2) / 5 + day - 1
  era * 146097 + yearOfEra * 365 + yearOfEra / 4 - yearOfEra / 100 + dayOfYear - 719468

theorem daysFromCivil_eq (year : Int) {month : Nat} (isMonth : 1 ≤ month ∧ month ≤ 12) (day : Nat) :
    daysFromCivil year month day = dayNumber year month day := by
  rw [dayNumber_eq year isMonth, marchStart_eq]
  unfold daysFromCivil monthStart
  by_cases early : month ≤ 2
  · have late : ¬ ((month : Int) > 2) := by omega
    have index : (month + 9) % 12 = month + 9 := by omega
    simp only [if_pos early, if_neg late, index]
    omega
  · have late : (month : Int) > 2 := by omega
    have index : (month + 9) % 12 = month - 3 := by omega
    simp only [if_neg early, if_pos late, index]
    omega

theorem daysFromCivil_january (year : Int) : daysFromCivil year 1 1 = yearStart year - 719162 := by
  rw [daysFromCivil_eq year (by decide), dayNumber, daysBefore_one]
  omega

theorem daysFromCivil_lt (year : Int) : daysFromCivil year 1 1 < daysFromCivil (year + 1) 1 1 := by
  have next := yearStart_succ year
  rw [daysFromCivil_january, daysFromCivil_january]
  split_ifs at next <;> omega

/-- The first loop of `year_of`. -/
def yearDown (days year : Int) : Int :=
  if days < daysFromCivil year 1 1 then yearDown days (year - 1) else year
termination_by (daysFromCivil year 1 1 - days).toNat
decreasing_by
  have earlier := daysFromCivil_lt (year - 1)
  rw [Int.sub_add_cancel] at earlier
  omega

/-- The second loop of `year_of`. -/
def yearUp (days year : Int) : Int :=
  if daysFromCivil (year + 1) 1 1 ≤ days then yearUp days (year + 1) else year
termination_by (days - daysFromCivil year 1 1).toNat
decreasing_by
  have later := daysFromCivil_lt year
  omega

/-- The loops end, since the first days of the years follow each other. -/
def yearOf (unix : Nat) : Int :=
  let days : Int := (unix / secondsPerDay : Nat)
  yearUp days (yearDown days (1970 + days / 365))

def seconds (year : Int) (month day : Nat) (minutes : Int) : Option Nat :=
  let seconds := daysFromCivil year month day * secondsPerDay + minutes * 60
  if 0 ≤ seconds then some seconds.toNat else none

def monthNumber (month : List Char) : Option Nat :=
  (months.findIdx? fun name => name = month).map fun index => index + 1

def modified (month day timeOrYear : List Char) (now : Nat) : Option Nat := do
  let month ← monthNumber month
  let day ← (parseU32 day).filter fun day => 1 ≤ day ∧ day ≤ 31
  match splitOnce [ ':'] timeOrYear with
  | some (hours, minutes) => do
      let hours ← parseI64 hours
      let minutes ← parseI64 minutes
      let thisYear ← seconds (yearOf now) month day (hours * 60 + minutes)
      if thisYear > now + secondsPerDay then
        seconds (yearOf now - 1) month day (hours * 60 + minutes)
      else some thisYear
  | none => do
      let year ← parseI64 timeOrYear
      seconds year month day 0

/-! ### Columns -/

/-- A time as a number of seconds; a time before 1970 is the first one. -/
def epoch (token : List Char) : Option Nat :=
  let digits := if token.head? = some '-' then token.tail else token
  if isDigits digits then if digits.length ≠ token.length then some 0 else parseU64 token
  else none

def permissionBit (index : Nat) (character : Char) : Nat :=
  if character = 'r' ∨ character = 'w' ∨ character = 'x' then 2 ^ (8 - index)
  else if (character = 's' ∨ character = 't') ∧ index % 3 = 2 then 2 ^ (8 - index)
  else 0

def special (bits : List Char) (index flag : Nat) : Nat :=
  if (bits[index]?.any fun bit => bit = 's' ∨ bit = 'S' ∨ bit = 't' ∨ bit = 'T') then flag else 0

def permissions (mode : List Char) : Option Nat :=
  let bits := mode.drop 1
  if bits.length < 9 then none
  else
    let value := (bits.take 9).zipIdx.foldl (fun value bit => value ||| permissionBit bit.2 bit.1) 0
    some (value ||| special bits 2 0o4000 ||| special bits 5 0o2000 ||| special bits 8 0o1000)

/-- The words of a line from a place on, each with its place; `begun` is the word
that the place is in. -/
def fieldsFrom (index : Nat) (begun : Option (Nat × List Char)) :
    List Char → List (Nat × List Char)
  | [] => begun.toList
  | character :: rest =>
    if character = ' ' then begun.toList ++ fieldsFrom (index + character.utf8Size) none rest
    else
      let word := begun.getD (index, [])
      fieldsFrom (index + character.utf8Size) (some (word.1, word.2 ++ [character])) rest

def fields (line : List Char) : List (Nat × List Char) := fieldsFrom 0 none line

/-- A device has two numbers, the first one with a comma, and no size. -/
def isDevice (sizeOrMajor : List Char) : Bool := sizeOrMajor.getLast? = some ','

def sizeOf (sizeOrMajor : List Char) : Option Nat :=
  if isDevice sizeOrMajor then some 0 else parseU64 sizeOrMajor

/-- The time of a line, and the place where its name begins. -/
def timeAndName (words : List (Nat × List Char)) (dateStart now : Nat) : Option (Nat × Nat) := do
  let first ← words[dateStart]?
  match epoch first.2 with
  | some seconds => some (seconds, first.1 + byteLength first.2 + 1)
  | none => do
      let day ← words[dateStart + 1]?
      let timeOrYear ← words[dateStart + 2]?
      let mtime ← modified first.2 day.2 timeOrYear.2 now
      some (mtime, timeOrYear.1 + byteLength timeOrYear.2 + 1)

def parseLine (line : List Char) (now : Nat) : Option Line := do
  let words := fields line
  let mode ← words.head?
  let letter ← mode.2.head?
  if letter ∉ "-dlcbps".toList then none
  else
    let sizeOrMajor ← words[4]?
    let size ← sizeOf sizeOrMajor.2
    let (mtime, nameStart) ← timeAndName words (if isDevice sizeOrMajor.2 then 6 else 5) now
    let name ← dropBytes nameStart line
    if name = [] then none
    else some {
      name := String.ofList name
      metadata := {
        size
        modified := some mtime
        kind := if letter = 'd' then .dir else .file }
      permissions := permissions mode.2 }

def totalMark : List Char := "total ".toList

def parse (output : List Char) (now : Nat) : List Line :=
  (((linesFrom [] output).filter fun line => !totalMark.isPrefixOf line).filterMap
    fun line => parseLine line now).filter fun line => line.name ≠ "." ∧ line.name ≠ ".."

/-- What a line that is read must say. -/
theorem parseLine_eq_some {line : List Char} {now : Nat} {item : Line} :
    parseLine line now = some item ↔ ∃ mode letter sizeOrMajor size time name,
      (fields line).head? = some mode ∧ mode.2.head? = some letter ∧ letter ∈ "-dlcbps".toList ∧
      (fields line)[4]? = some sizeOrMajor ∧
      sizeOf sizeOrMajor.2 = some size ∧
      timeAndName (fields line) (if isDevice sizeOrMajor.2 then 6 else 5) now = some time ∧
      dropBytes time.2 line = some name ∧ name ≠ [] ∧
      item = {
        name := String.ofList name
        metadata := {
          size
          modified := some time.1
          kind := if letter = 'd' then .dir else .file }
        permissions := permissions mode.2 } := by
  simp only [parseLine, Option.bind_eq_bind, Option.bind_eq_some_iff, Option.ite_none_left_eq_some,
    Option.some_inj, not_not]
  constructor
  · rintro ⟨mode, isMode, letter, isLetter, isKind, sizeOrMajor, isSize, size, sizeEq, time, timeEq,
      name, nameEq, notEmpty, isItem⟩
    exact ⟨mode, letter, sizeOrMajor, size, time, name, isMode, isLetter, isKind, isSize, sizeEq,
      timeEq, nameEq, notEmpty, isItem.symm⟩
  · rintro ⟨mode, letter, sizeOrMajor, size, time, name, isMode, isLetter, isKind, isSize, sizeEq,
      timeEq, nameEq, notEmpty, isItem⟩
    exact ⟨mode, isMode, letter, isLetter, isKind, sizeOrMajor, isSize, size, sizeEq, time, timeEq,
      name, nameEq, notEmpty, isItem.symm⟩

/-! ### Years -/

theorem yearDown_spec (days year : Int) : daysFromCivil (yearDown days year) 1 1 ≤ days := by
  induction year using yearDown.induct days with
  | case1 year late ih =>
    rw [yearDown, if_pos late]
    exact ih
  | case2 year notLate =>
    rw [yearDown, if_neg notLate]
    exact not_lt.mp notLate

theorem yearUp_spec (days : Int) {year : Int} (started : daysFromCivil year 1 1 ≤ days) :
    daysFromCivil (yearUp days year) 1 1 ≤ days ∧ days < daysFromCivil (yearUp days year + 1) 1 1 := by
  induction year using yearUp.induct days with
  | case1 year early ih =>
    rw [yearUp, if_pos early]
    exact ih early
  | case2 year notEarly =>
    rw [yearUp, if_neg notEarly]
    exact ⟨started, not_le.mp notEarly⟩

theorem year_eq {date : Date} {year : Int} (started : daysFromCivil year 1 1 ≤ date.number)
    (notEnded : date.number < daysFromCivil (year + 1) 1 1) : date.year = year := by
  rw [daysFromCivil_january] at started notEnded
  have inYear := date.number_mem_year
  by_contra other
  rcases lt_or_gt_of_ne other with before | after
  · have := yearStart_mono (show date.year + 1 ≤ year by omega)
    omega
  · have := yearStart_mono (show year + 1 ≤ date.year by omega)
    omega

theorem yearOf_eq (unix : Nat) : yearOf unix = (dateAt unix).year := by
  have found := yearUp_spec (unix / secondsPerDay : Nat)
    (yearDown_spec (unix / secondsPerDay : Nat) (1970 + (unix / secondsPerDay : Nat) / 365))
  have number : (dateAt unix).number = (unix / secondsPerDay : Nat) := number_dateAt unix
  rw [← number] at found
  rw [yearOf, ← number]
  exact (year_eq found.1 found.2).symm

/-! ### Words -/

/-- The columns of a line with the places where they begin. -/
def placed (pad : Nat → Nat) (index : Nat) : List (List Char) → List (Nat × List Char)
  | [] => []
  | [last] => [(index, last)]
  | column :: columns =>
    (index, column) :: placed pad (index + byteLength column + 1 + pad columns.length) columns

theorem placed_cons_cons (pad : Nat → Nat) (index : Nat) (column next : List Char)
    (columns : List (List Char)) : placed pad index (column :: next :: columns) = (index, column) ::
        placed pad (index + byteLength column + 1 + pad (columns.length + 1)) (next :: columns) :=
  rfl

theorem map_snd_placed (pad : Nat → Nat) (index : Nat) (columns : List (List Char)) :
    (placed pad index columns).map Prod.snd = columns := by
  induction columns generalizing index with
  | nil => rfl
  | cons column columns ih =>
    cases columns with
    | nil => rfl
    | cons next columns => rw [placed, List.map_cons, ih]; simp

/-- A column is a text without spaces. -/
def IsColumn (column : List Char) : Prop := column ≠ [] ∧ ' ' ∉ column

theorem fieldsFrom_word {word : List Char} (solid : ' ' ∉ word) (index start : Nat)
    (before rest : List Char) :
    fieldsFrom index (some (start, before)) (word ++ ' ' :: rest) =
      (start, before ++ word) :: fieldsFrom (index + byteLength word + 1) none rest := by
  induction word generalizing index before with
  | nil => simp [fieldsFrom, byteLength]; rfl
  | cons character word ih =>
    rw [List.mem_cons, not_or] at solid
    have notSpace : character ≠ ' ' := fun isSpace => solid.1 isSpace.symm
    rw [List.cons_append, fieldsFrom, if_neg notSpace, Option.getD_some, ih solid.2]
    simp [byteLength, Nat.add_assoc]

theorem fieldsFrom_column {column : List Char} (isColumn : IsColumn column) (index : Nat)
    (rest : List Char) :
    fieldsFrom index none (column ++ ' ' :: rest) =
      (index, column) :: fieldsFrom (index + byteLength column + 1) none rest := by
  obtain ⟨notEmpty, solid⟩ := isColumn
  cases column with
  | nil => exact absurd rfl notEmpty
  | cons character column =>
    rw [List.mem_cons, not_or] at solid
    have notSpace : character ≠ ' ' := fun isSpace => solid.1 isSpace.symm
    rw [List.cons_append, fieldsFrom, if_neg notSpace, Option.getD_none, fieldsFrom_word solid.2]
    simp [byteLength, Nat.add_assoc]

theorem fieldsFrom_spaces (index count : Nat) (rest : List Char) :
    fieldsFrom index none (List.replicate count ' ' ++ rest) =
      fieldsFrom (index + count) none rest := by
  induction count generalizing index with
  | zero => rfl
  | succ count ih =>
    have size : ' '.utf8Size = 1 := rfl
    rw [List.replicate_succ, List.cons_append, fieldsFrom, if_pos rfl, ih, size,
      Nat.add_assoc, Nat.add_comm 1]
    rfl

theorem fieldsFrom_layOut (pad : Nat → Nat) {columns : List (List Char)}
    (areColumns : ∀ column ∈ columns, IsColumn column) (index : Nat) (rest : List Char) :
    ∃ next, fieldsFrom index none (layOut pad columns rest) =
      placed pad index columns ++ fieldsFrom next none rest := by
  induction columns generalizing index with
  | nil => exact ⟨index, rfl⟩
  | cons column columns ih =>
    have isColumn := areColumns column List.mem_cons_self
    cases columns with
    | nil => exact ⟨_, fieldsFrom_column isColumn index rest⟩
    | cons other columns =>
      obtain ⟨next, others⟩ := ih (fun other member => areColumns other (List.mem_cons_of_mem _ member))
        (index + byteLength column + 1 + pad (columns.length + 1))
      refine ⟨next, ?_⟩
      rw [layOut_cons_cons, fieldsFrom_column isColumn, fieldsFrom_spaces, others, placed_cons_cons]
      rfl

theorem byteLength_layOut (pad : Nat → Nat) {columns : List (List Char)} {index : Nat}
    {last : Nat × List Char} (isLast : (placed pad index columns).getLast? = some last) :
    last.1 + byteLength last.2 + 1 = index + byteLength (layOut pad columns []) := by
  have space : ' '.utf8Size = 1 := rfl
  induction columns generalizing index with
  | nil => cases isLast
  | cons column columns ih =>
    cases columns with
    | nil =>
      cases isLast
      rw [layOut, byteLength_append, byteLength_cons, space]
      rfl
    | cons next columns =>
      have notEmpty (index : Nat) : placed pad index (next :: columns) ≠ [] := by
        cases columns <;> exact List.cons_ne_nil _ _
      rw [placed_cons_cons, List.getLast?_cons_of_ne_nil (notEmpty _)] at isLast
      rw [ih isLast, layOut_cons_cons, byteLength_append, byteLength_cons, byteLength_append,
        byteLength_spaces, space]
      omega

theorem dropBytes_layOut (pad : Nat → Nat) {columns : List (List Char)} {last : Nat × List Char}
    (isLast : (placed pad 0 columns).getLast? = some last) (rest : List Char) :
    dropBytes (last.1 + byteLength last.2 + 1) (layOut pad columns rest) = some rest := by
  rw [byteLength_layOut pad isLast, Nat.zero_add, layOut_append pad columns rest, dropBytes_append]

theorem word_layOut (pad : Nat → Nat) {columns : List (List Char)}
    (areColumns : ∀ column ∈ columns, IsColumn column) (name : List Char) {index : Nat}
    {column : List Char} (isColumn : columns[index]? = some column) :
    ∃ start, (fields (layOut pad columns name))[index]? = some (start, column) ∧
      (index + 1 = columns.length →
        dropBytes (start + byteLength column + 1) (layOut pad columns name) = some name) := by
  obtain ⟨next, fieldsEq⟩ := fieldsFrom_layOut pad areColumns 0 name
  have words := map_snd_placed pad 0 columns
  have length : (placed pad 0 columns).length = columns.length := by
    rw [← List.length_map Prod.snd, words]
  rw [← words, List.getElem?_map, Option.map_eq_some_iff] at isColumn
  obtain ⟨⟨start, column⟩, isWord, rfl⟩ := isColumn
  have inColumns := (List.getElem?_eq_some_iff.mp isWord).1
  refine ⟨start, ?_, fun isLast => ?_⟩
  · rw [fields, fieldsEq, List.getElem?_append_left inColumns, isWord]
  · have last : (placed pad 0 columns).getLast? = some (start, column) := by
      rw [List.getLast?_eq_getElem?, length, ← isLast, Nat.add_sub_cancel, isWord]
    exact dropBytes_layOut pad last name

/-! ### Entries of a folder -/

inductive Content
  | file (size : Nat)
  | folder (size : Nat)
  | device (block : Bool) (major minor : Nat)

namespace Content

def letter : Content → Char
  | file _ => '-'
  | folder _ => 'd'
  | device true _ _ => 'b'
  | device false _ _ => 'c'

theorem letter_mem (content : Content) : content.letter ∈ ['-', 'd', 'b', 'c'] := by
  match content with
  | file _ | folder _ | device true _ _ | device false _ _ => simp [letter]

def kind : Content → FileKind
  | folder _ => .dir
  | _ => .file

/-- The size of an entry, which a device has none of. -/
def size : Content → Nat
  | file bytes | folder bytes => bytes
  | device _ _ _ => 0

def sizeColumns : Content → List (List Char)
  | file bytes | folder bytes => [Nat.toDigits 10 bytes]
  | device _ major minor => [Nat.toDigits 10 major ++ [','], Nat.toDigits 10 minor]

end Content

/-- An entry as `ls -lanL` prints it when it is asked for seconds. -/
structure Entry where
  content : Content
  sizeFits : content.size < 2 ^ 64
  bits : List Char
  bitsSolid : ' ' ∉ bits
  links : List Char
  linksColumn : IsColumn links
  owner : List Char
  ownerColumn : IsColumn owner
  group : List Char
  groupColumn : IsColumn group
  modified : Nat
  timeFits : modified < 2 ^ 64
  pad : Nat → Nat
  name : List Char
  notEmpty : name ≠ []
  noBreak : ∀ text ∈ [bits, links, owner, group, name], '\n' ∉ text

namespace Entry

variable (entry : Entry)

def columns : List (List Char) :=
  [entry.content.letter :: entry.bits, entry.links, entry.owner, entry.group] ++
    entry.content.sizeColumns ++ [Nat.toDigits 10 entry.modified]

def render : List Char := layOut entry.pad entry.columns entry.name

/-- What is to be read of an entry, under a name. -/
def line (name : List Char) : Line where
  name := String.ofList name
  metadata := {
    size := entry.content.size
    modified := some entry.modified
    kind := entry.content.kind }
  permissions := permissions (entry.content.letter :: entry.bits)

/-- The folder itself and its parent. -/
def IsDots : Prop := entry.name = ['.'] ∨ entry.name = ['.', '.']

instance : Decidable entry.IsDots := inferInstanceAs (Decidable (_ ∨ _))

end Entry

/-- The output of `ls` for the entries of a folder, itself and its parent among them. -/
def printed (total : Nat) (entries : List Entry) : List Char :=
  totalMark ++ Nat.toDigits 10 total ++ '\n' ::
    entries.flatMap fun entry => entry.render ++ ['\n']

/-! ### Reading the entries -/

theorem isColumn_of_isDigits {digits : List Char} (areDigits : isDigits digits = true) :
    IsColumn digits := by
  constructor
  · rintro rfl
    cases areDigits
  · intro member
    cases isDigit_of_isDigits areDigits member

theorem isColumn_columns (entry : Entry) : ∀ column ∈ entry.columns, IsColumn column := by
  have isMode : IsColumn (entry.content.letter :: entry.bits) := by
    refine ⟨List.cons_ne_nil _ _, ?_⟩
    rw [List.mem_cons, not_or]
    have notSpace : ∀ letter ∈ ['-', 'd', 'b', 'c'], ' ' ≠ letter := by simp
    exact ⟨notSpace _ entry.content.letter_mem, entry.bitsSolid⟩
  have areSizes : ∀ column ∈ entry.content.sizeColumns, IsColumn column := by
    match entry.content with
    | .file bytes | .folder bytes =>
      simpa [Content.sizeColumns] using isColumn_of_isDigits (isDigits_toDigits bytes)
    | .device _ major minor =>
      have isMajor := (isColumn_of_isDigits (isDigits_toDigits major)).2
      have isMinor := isColumn_of_isDigits (isDigits_toDigits minor)
      simp [Content.sizeColumns, IsColumn, isMajor, isMinor.2]
  intro column member
  simp only [Entry.columns, List.mem_append, List.mem_cons, List.not_mem_nil, or_false] at member
  rcases member with ((rfl | rfl | rfl | rfl) | isSize) | rfl
  · exact isMode
  · exact entry.linksColumn
  · exact entry.ownerColumn
  · exact entry.groupColumn
  · exact areSizes column isSize
  · exact isColumn_of_isDigits (isDigits_toDigits _)

theorem epoch_toDigits {value : Nat} (fits : value < 2 ^ 64) :
    epoch (Nat.toDigits 10 value) = some value := by
  have areDigits := isDigits_toDigits value
  have noMinus : (Nat.toDigits 10 value).head? ≠ some '-' := head_ne_of_isDigits areDigits (by decide)
  rw [epoch, if_neg noMinus]
  simp only [areDigits, if_true, ne_eq, not_true_eq_false, if_false, parseU64_toDigits fits]

theorem timeAndName_of_epoch {words : List (Nat × List Char)} {dateStart start seconds : Nat}
    {first : List Char} (isFirst : words[dateStart]? = some (start, first))
    (isEpoch : epoch first = some seconds) (now : Nat) :
    timeAndName words dateStart now = some (seconds, start + byteLength first + 1) := by
  simp only [timeAndName, isFirst, isEpoch, Option.bind_eq_bind, Option.bind_some]

theorem isDevice_toDigits (value : Nat) : isDevice (Nat.toDigits 10 value) = false := by
  rw [isDevice, decide_eq_false_iff_not]
  intro isLast
  cases Nat.isDigit_of_mem_toDigits (by decide) (by decide) (List.mem_of_getLast? isLast)

/-- What stands in the columns of the size and the time. -/
theorem columns_spec (entry : Entry) : ∃ sizeOrMajor, entry.columns[4]? = some sizeOrMajor ∧
    sizeOf sizeOrMajor = some entry.content.size ∧
    entry.columns[if isDevice sizeOrMajor then 6 else 5]? = some (Nat.toDigits 10 entry.modified) ∧
    (if isDevice sizeOrMajor then 6 else 5) + 1 = entry.columns.length := by
  have fits := entry.sizeFits
  unfold Entry.columns
  cases content : entry.content with
  | file bytes =>
    rw [content] at fits
    have notDevice := isDevice_toDigits bytes
    refine ⟨Nat.toDigits 10 bytes, rfl, ?_, ?_, ?_⟩
    · rw [sizeOf, notDevice]
      exact parseU64_toDigits fits
    · simp [notDevice, Content.sizeColumns]
    · simp [notDevice, Content.sizeColumns]
  | folder bytes =>
    rw [content] at fits
    have notDevice := isDevice_toDigits bytes
    refine ⟨Nat.toDigits 10 bytes, rfl, ?_, ?_, ?_⟩
    · rw [sizeOf, notDevice]
      exact parseU64_toDigits fits
    · simp [notDevice, Content.sizeColumns]
    · simp [notDevice, Content.sizeColumns]
  | device block major minor =>
    have device : isDevice (Nat.toDigits 10 major ++ [',']) = true := by simp [isDevice]
    refine ⟨Nat.toDigits 10 major ++ [','], rfl, ?_, ?_, ?_⟩
    · rw [sizeOf, device]
      rfl
    · simp [device, Content.sizeColumns]
    · simp [device, Content.sizeColumns]

/-- A line is read with the name that stands behind its columns. -/
theorem parseLine_layOut (entry : Entry) (name : List Char) (now : Nat) :
    parseLine (layOut entry.pad entry.columns name) now =
      if name = [] then none else some (entry.line name) := by
  have word {index : Nat} {column : List Char} :=
    @word_layOut entry.pad entry.columns (isColumn_columns entry) name index column
  obtain ⟨_, modeEq, -⟩ := word (show entry.columns[0]? = _ from rfl)
  have isKind : ¬ entry.content.letter ∉ "-dlcbps".toList := by
    have letters : ∀ letter ∈ ['-', 'd', 'b', 'c'], letter ∈ "-dlcbps".toList := by simp
    exact not_not.mpr (letters _ entry.content.letter_mem)
  have isDir : (if entry.content.letter = 'd' then FileKind.dir else .file) = entry.content.kind := by
    match entry.content with
    | .file _ | .folder _ | .device true _ _ | .device false _ _ => rfl
  obtain ⟨sizeOrMajor, isSize, sizeEq, isTime, isLast⟩ := columns_spec entry
  obtain ⟨_, majorEq, -⟩ := word isSize
  obtain ⟨start, firstEq, nameEq⟩ := word isTime
  have timeEq := timeAndName_of_epoch firstEq (epoch_toDigits entry.timeFits) now
  rw [parseLine]
  simp only [Option.bind_eq_bind, List.head?_eq_getElem?]
  rw [modeEq, Option.bind_some, List.getElem?_cons_zero, Option.bind_some, if_neg isKind, majorEq,
    Option.bind_some, sizeEq, Option.bind_some, timeEq, Option.bind_some, nameEq isLast,
    Option.bind_some, isDir]
  rfl

/-! ### Reading the output -/

theorem chomp_append {before text : List Char} (notEmpty : text ≠ []) :
    chomp (before ++ text) = before ++ chomp text := by
  have last : (before ++ text).getLast? = text.getLast? := by
    rw [List.getLast?_append_of_ne_nil _ notEmpty]
  rw [chomp, chomp, last]
  split_ifs
  · rw [List.dropLast_append_of_ne_nil notEmpty]
  · rfl

theorem mem_layOut {pad : Nat → Nat} {columns : List (List Char)} {rest : List Char}
    {character : Char} (member : character ∈ layOut pad columns rest) :
    character = ' ' ∨ character ∈ rest ∨ ∃ column ∈ columns, character ∈ column := by
  induction columns with
  | nil => exact .inr (.inl member)
  | cons column columns ih =>
    cases columns with
    | nil =>
      simp only [layOut, List.mem_append, List.mem_cons] at member
      rcases member with inColumn | isSpace | inRest
      · exact .inr (.inr ⟨column, List.mem_cons_self, inColumn⟩)
      · exact .inl isSpace
      · exact .inr (.inl inRest)
    | cons next columns =>
      simp only [layOut_cons_cons, List.mem_append, List.mem_cons] at member
      rcases member with inColumn | isSpace | isPad | inOthers
      · exact .inr (.inr ⟨column, List.mem_cons_self, inColumn⟩)
      · exact .inl isSpace
      · exact .inl (List.eq_of_mem_replicate isPad)
      · rcases ih inOthers with isSpace | inRest | ⟨other, isOther, inOther⟩
        · exact .inl isSpace
        · exact .inr (.inl inRest)
        · exact .inr (.inr ⟨other, List.mem_cons_of_mem _ isOther, inOther⟩)

theorem noBreak_toDigits (value : Nat) : '\n' ∉ Nat.toDigits 10 value := by
  intro member
  cases Nat.isDigit_of_mem_toDigits (by decide) (by decide) member

namespace Entry

variable (entry : Entry)

theorem noBreak_columns : ∀ column ∈ entry.columns, '\n' ∉ column := by
  have letters : ∀ letter ∈ ['-', 'd', 'b', 'c'], '\n' ≠ letter := by simp
  have areSizes : ∀ column ∈ entry.content.sizeColumns, '\n' ∉ column := by
    match entry.content with
    | .file bytes | .folder bytes => simpa [Content.sizeColumns] using noBreak_toDigits bytes
    | .device _ major minor =>
      simp [Content.sizeColumns, noBreak_toDigits major, noBreak_toDigits minor]
  have others := entry.noBreak
  simp only [List.forall_mem_cons] at others
  intro column member
  simp only [columns, List.mem_append, List.mem_cons, List.not_mem_nil, or_false] at member
  rcases member with ((rfl | rfl | rfl | rfl) | isSize) | rfl
  · exact List.not_mem_cons_of_ne_of_not_mem (letters _ entry.content.letter_mem) others.1
  · exact others.2.1
  · exact others.2.2.1
  · exact others.2.2.2.1
  · exact areSizes column isSize
  · exact noBreak_toDigits _

theorem noBreak_render : '\n' ∉ entry.render := by
  intro member
  rcases mem_layOut member with isSpace | inName | ⟨column, isColumn, inColumn⟩
  · cases isSpace
  · exact entry.noBreak entry.name (by simp) inName
  · exact entry.noBreak_columns column isColumn inColumn

theorem chomp_render : chomp entry.render = layOut entry.pad entry.columns (chomp entry.name) := by
  rw [render, layOut_append, chomp_append entry.notEmpty, ← layOut_append]

theorem not_total (name : List Char) :
    totalMark.isPrefixOf (layOut entry.pad entry.columns name) = false := by
  have letters : ∀ letter ∈ ['-', 'd', 'b', 'c'], ('t' == letter) = false := by simp
  have first : ∃ rest, layOut entry.pad entry.columns name = entry.content.letter :: rest :=
    ⟨_, rfl⟩
  obtain ⟨rest, first⟩ := first
  rw [first, totalMark]
  simp [List.isPrefixOf, letters _ entry.content.letter_mem]

/-- What is read of an entry, or nothing. -/
def read : Option Line :=
  if chomp entry.name ∈ [[], ['.'], ['.', '.']] then none else some (entry.line (chomp entry.name))

end Entry

theorem linesFrom_printed (total : Nat) (entries : List Entry) :
    linesFrom [] (printed total entries) = (totalMark ++ Nat.toDigits 10 total) ::
        entries.map fun entry => layOut entry.pad entry.columns (chomp entry.name) := by
  have texts : printed total entries =
      ((totalMark ++ Nat.toDigits 10 total) :: entries.map Entry.render).flatMap
        fun line => line ++ ['\n'] := by
    simp only [printed, List.flatMap_cons, List.flatMap_map, List.append_assoc,
      List.singleton_append]
  have noBreak : ∀ line ∈ (totalMark ++ Nat.toDigits 10 total) :: entries.map Entry.render,
      '\n' ∉ line := by
    rw [List.forall_mem_cons, List.forall_mem_map]
    refine ⟨?_, fun entry _ => entry.noBreak_render⟩
    rw [List.mem_append, not_or]
    exact ⟨(by decide : '\n' ∉ totalMark), noBreak_toDigits total⟩
  have noReturn : chomp (Nat.toDigits 10 total) = Nat.toDigits 10 total := by
    rw [chomp, if_neg]
    intro isLast
    cases Nat.isDigit_of_mem_toDigits (by decide) (by decide) (List.mem_of_getLast? isLast)
  rw [texts, linesFrom_flatMap noBreak, List.map_cons, List.map_map,
    chomp_append Nat.toDigits_ne_nil, noReturn]
  exact congrArg _ (List.map_congr_left fun entry _ => entry.chomp_render)

/-- The output is read entry by entry. -/
theorem parse_printed (total : Nat) (entries : List Entry) (now : Nat) :
    parse (printed total entries) now = entries.filterMap Entry.read := by
  have isTotal : totalMark.isPrefixOf (totalMark ++ Nat.toDigits 10 total) = true :=
    List.isPrefixOf_iff_prefix.mpr (List.prefix_append _ _)
  have notTotals : (entries.map fun entry =>
      layOut entry.pad entry.columns (chomp entry.name)).filter
        (fun line => !totalMark.isPrefixOf line) =
      entries.map fun entry => layOut entry.pad entry.columns (chomp entry.name) := by
    rw [List.filter_eq_self, List.forall_mem_map]
    intro entry _
    rw [entry.not_total, Bool.not_false]
  rw [parse, linesFrom_printed, List.filter_cons_of_neg (by rw [isTotal]; decide), notTotals,
    List.filterMap_map, List.filter_filterMap]
  apply List.filterMap_congr
  intro entry _
  have dot (text : List Char) : String.ofList text = "." ↔ text = ['.'] :=
    @String.ofList_inj text ['.']
  have dots (text : List Char) : String.ofList text = ".." ↔ text = ['.', '.'] :=
    @String.ofList_inj text ['.', '.']
  rw [Function.comp_apply, parseLine_layOut, Entry.read]
  by_cases empty : chomp entry.name = []
  · simp [empty]
  · rw [if_neg empty, Option.filter_some]
    simp only [Entry.line, ne_eq, dot, dots, decide_eq_true_eq, List.mem_cons, List.not_mem_nil,
      or_false, empty, false_or]
    split_ifs <;> first | rfl | simp_all

/-- Where a list says as much as another of each of its members, it says the same. -/
theorem forall_eq_of_filterMap_eq {α β : Type} {first second : α → Option β}
    (less : ∀ member, second member = none → first member = none) {members : List α}
    (same : members.filterMap first = members.filterMap second) :
    ∀ member ∈ members, first member = second member := by
  have shorter (members : List α) :
      (members.filterMap first).length ≤ (members.filterMap second).length := by
    induction members with
    | nil => exact le_rfl
    | cons member members ih =>
      cases isSecond : second member with
      | none =>
        rw [List.filterMap_cons_none (less member isSecond), List.filterMap_cons_none isSecond]
        exact ih
      | some value =>
        rw [List.filterMap_cons_some isSecond]
        cases isFirst : first member with
        | none =>
          rw [List.filterMap_cons_none isFirst]
          exact ih.trans (Nat.le_succ _)
        | some other =>
          rw [List.filterMap_cons_some isFirst]
          exact Nat.succ_le_succ ih
  induction members with
  | nil => simp
  | cons member members ih =>
    rw [List.forall_mem_cons]
    cases isSecond : second member with
    | none =>
      have isFirst := less member isSecond
      rw [List.filterMap_cons_none isFirst, List.filterMap_cons_none isSecond] at same
      exact ⟨isFirst, ih same⟩
    | some value =>
      rw [List.filterMap_cons_some isSecond] at same
      cases isFirst : first member with
      | none =>
        rw [List.filterMap_cons_none isFirst] at same
        have longer := congrArg List.length same
        rw [List.length_cons] at longer
        have := shorter members
        omega
      | some other =>
        rw [List.filterMap_cons_some isFirst, List.cons_eq_cons] at same
        exact ⟨congrArg some same.1, ih same.2⟩

theorem chomp_eq_self_iff {text : List Char} (notEmpty : text ≠ []) :
    chomp text = text ↔ text.getLast? ≠ some '\r' := by
  unfold chomp
  split_ifs with isReturn
  · have shorter : text.dropLast ≠ text := by
      intro same
      have length := congrArg List.length same
      have positive := List.length_pos_of_ne_nil notEmpty
      rw [List.length_dropLast] at length
      omega
    simp [shorter, isReturn]
  · simp [isReturn]

namespace Entry

variable (entry : Entry)

/-- What is to be read of an entry, or nothing. -/
def listed : Option Line := if entry.IsDots then none else some (entry.line entry.name)

theorem read_of_dots (isDots : entry.IsDots) : entry.read = none := by
  rcases isDots with isName | isName <;> simp [read, isName, chomp]

theorem read_eq_listed_iff : entry.read = entry.listed ↔ entry.name.getLast? ≠ some '\r' := by
  rw [← chomp_eq_self_iff entry.notEmpty]
  by_cases isDots : entry.IsDots
  · have same : chomp entry.name = entry.name := by
      rcases isDots with isName | isName <;> simp [isName, chomp]
    simp [entry.read_of_dots isDots, listed, isDots, same]
  · rw [listed, if_neg isDots, read]
    constructor
    · intro isListed
      split_ifs at isListed with noName
      have names := congrArg Line.name (Option.some_inj.mp isListed)
      exact String.ofList_injective names
    · intro same
      have noName : entry.name ∉ [[], ['.'], ['.', '.']] := by
        simpa [entry.notEmpty, IsDots] using isDots
      rw [same, if_neg noName]

end Entry

/-- A listing is read entry by entry, exactly when no name ends with a carriage
return, which is taken for a part of the end of its line. -/
theorem parse_printed_iff (total : Nat) (entries : List Entry) (now : Nat) :
    parse (printed total entries) now =
        (entries.filter fun entry => ¬ entry.IsDots).map (fun entry => entry.line entry.name) ↔
      ∀ entry ∈ entries, entry.name.getLast? ≠ some '\r' := by
  have expected : (entries.filter fun entry => ¬ entry.IsDots).map
      (fun entry => entry.line entry.name) = entries.filterMap Entry.listed := by
    rw [← List.filterMap_eq_map, List.filterMap_filter]
    apply List.filterMap_congr
    intro entry _
    by_cases isDots : entry.IsDots <;> simp [Entry.listed, isDots]
  rw [parse_printed, expected]
  constructor
  · intro same entry member
    rw [← entry.read_eq_listed_iff]
    apply forall_eq_of_filterMap_eq _ same entry member
    intro other isDots
    apply other.read_of_dots
    by_contra notDots
    rw [Entry.listed, if_neg notDots] at isDots
    cases isDots
  · intro noReturn
    apply List.filterMap_congr
    intro entry member
    exact entry.read_eq_listed_iff.mpr (noReturn entry member)

/-- A file whose name is an `a` and a carriage return. -/
def returning : Entry where
  content := .file 5
  sizeFits := by decide
  bits := "rw-r--r--".toList
  bitsSolid := by decide
  links := ['1']
  linksColumn := ⟨by decide, by decide⟩
  owner := ['0']
  ownerColumn := ⟨by decide, by decide⟩
  group := ['0']
  groupColumn := ⟨by decide, by decide⟩
  modified := 86400
  timeFits := by decide
  pad := fun _ => 0
  name := ['a', '\r']
  notEmpty := by decide
  noBreak := by decide

/-- The carriage return is lost. -/
theorem parse_printed_returning : (parse (printed 4 [returning]) 0).map Line.name = ["a"] ∧
    parse (printed 4 [returning]) 0 ≠ [returning.line returning.name] := by
  decide

end ScpListing

end Porthmos
