import Porthmos.FtpFs
import Porthmos.Splits
import Porthmos.StateFiles
import Porthmos.TextFields

/-!
# Lines of a directory listing

An FTP server that knows no better command answers a listing with lines as
`ls -l` prints them, or as a Windows server does.  The columns of the first kind
are not fixed, so the reader looks for the first month behind a number, and the
name is what stands behind the third column from there.
-/

namespace Porthmos

namespace ListLines

open Splits TextFields
open StateFiles (isWhitespace isWhitespace_of_isDigit)

/-- What a line says: an item, with the permissions of its metadata. -/
structure ListedLine where
  item : ListedItem
  permissions : Option Nat
  deriving DecidableEq, Repr

def monthNames : List (List Char) :=
  ["jan", "feb", "mar", "apr", "may", "jun", "jul", "aug", "sep", "oct", "nov", "dec"].map
    String.toList

def unixLeadingFields : Nat := 8

def secondsPerDay : Nat := 86400

/-! ### Dates -/

def daysFromCivil (year month day : Int) : Int :=
  let year := if month ≤ 2 then year - 1 else year
  let era := year / 400
  let yearOfEra := year - era * 400
  let monthIndex := (month + 9) % 12
  let dayOfYear := (153 * monthIndex + 2) / 5 + day - 1
  let dayOfEra := yearOfEra * 365 + yearOfEra / 4 - yearOfEra / 100 + dayOfYear
  era * 146097 + dayOfEra - 719468

def unixSeconds (year month day hour minute second : Int) : Option Nat :=
  if (1 ≤ month ∧ month ≤ 12) ∧ (1 ≤ day ∧ day ≤ 31) ∧ (0 ≤ hour ∧ hour < 24) ∧
      (0 ≤ minute ∧ minute < 60) ∧ (0 ≤ second ∧ second ≤ 60) then
    let seconds := daysFromCivil year month day * 86400 + hour * 3600 + minute * 60 + second
    if 0 ≤ seconds then some seconds.toNat else none
  else none

def civilYearFromDays (days : Int) : Int :=
  let shifted := days + 719468
  let era := shifted / 146097
  let dayOfEra := shifted - era * 146097
  let yearOfEra := (dayOfEra - dayOfEra / 1460 + dayOfEra / 36524 - dayOfEra / 146096) / 365
  let dayOfYear := dayOfEra - (365 * yearOfEra + yearOfEra / 4 - yearOfEra / 100)
  let monthIndex := (5 * dayOfYear + 2) / 153
  yearOfEra + era * 400 + if 10 ≤ monthIndex then 1 else 0

def yearOf (seconds : Nat) : Int := civilYearFromDays (seconds / secondsPerDay : Nat)

/-! ### Fields -/

/-- `str::split_whitespace` -/
def splitWhitespace (line : List Char) : List (List Char) :=
  (line.splitOnP isWhitespace).filter fun field => field ≠ []

def monthNumber (name : List Char) : Option Int :=
  (monthNames.findIdx? fun month => month = name.map Char.toLower).map fun index : Nat =>
    (index : Int) + 1

/-- The line from the end of one of its words on, counted from 1; the word ends
where white space follows. -/
def tokenRest (inToken : Bool) (count : Nat) : List Char → Option (List Char)
  | [] => none
  | character :: rest =>
    if isWhitespace character then
      if inToken then
        if count = 1 then some (character :: rest) else tokenRest false (count - 1) rest
      else tokenRest false count rest
    else tokenRest true count rest

/-- The text behind its first byte, which there is none of inside a character. -/
def skipByte : List Char → Option (List Char)
  | [] => none
  | character :: rest => if character.utf8Size = 1 then some rest else none

/-- The bits of a mode, each one that is not a dash; its first character is one
byte long. -/
def permissionsFromMode (mode : List Char) : Option Nat :=
  (takeBytes 9 mode.tail).map fun bits =>
    bits.foldl (fun value bit => 2 * value + if bit ≠ '-' then 1 else 0) 0

/-! ### Lines as `ls -l` prints them -/

def kindOf (mode : List Char) : Option FileKind :=
  match mode.head? with
  | some 'd' => some .dir
  | some 'l' => some .symlink
  | some '-' => some .file
  | _ => none

/-- The first month behind a number. -/
def findMonth (fields : List (List Char)) : Option Nat :=
  (List.range' 3 (fields.length - 2 - 3)).find? fun index =>
    (monthNumber (fields.getD index [])).isSome ∧ (parseU64 (fields.getD (index - 1) [])).isSome

/-- The name of an item, and the target of a link behind an arrow. -/
def nameOf (kind : FileKind) (rawName : List Char) : List Char × Option (List Char) :=
  match kind, splitOnce " -> ".toList rawName with
  | .symlink, some (name, target) => (name, some target)
  | _, _ => (rawName, none)

/-- The time of a line: a date without a year is this year's, or last year's
where it would lie ahead. -/
def modifiedOf (now : Nat) (month day : Int) (timeOrYear : List Char) : Option (Option Nat) :=
  match splitOnce [ ':'] timeOrYear with
  | some (hourText, minuteText) => do
      let hour ← parseI64 hourText
      let minute ← parseI64 minuteText
      match unixSeconds (yearOf now) month day hour minute 0 with
      | some stamp =>
        if now + secondsPerDay < stamp then
          some (unixSeconds (yearOf now - 1) month day hour minute 0)
        else some (some stamp)
      | none => some none
  | none => do
      let year ← parseI64 timeOrYear
      some (unixSeconds year month day 0 0 0)

def parseUnix (line : List Char) (now : Nat) : Option ListedLine := do
  let fields := (splitWhitespace line).take unixLeadingFields
  let mode ← fields.head?
  let kind ← kindOf mode
  let monthAt ← findMonth fields
  let rawName ← (tokenRest false (monthAt + 3) line).bind skipByte
  let named := nameOf kind rawName
  if named.1 = [] ∨ named.1 = ['.'] ∨ named.1 = ['.', '.'] then none
  else do
    let month ← monthNumber (fields.getD monthAt [])
    let day ← parseI64 (fields.getD (monthAt + 1) [])
    let modified ← modifiedOf now month day (fields.getD (monthAt + 2) [])
    some {
      item := {
        name := String.ofList named.1
        metadata := {
          size := (parseU64 (fields.getD (monthAt - 1) [])).getD 0
          modified
          kind }
        linkTarget := named.2.map String.ofList }
      permissions := permissionsFromMode mode }

/-! ### Lines of a Windows server -/

def stripSuffix (ending text : List Char) : Option (List Char) :=
  if ending.isSuffixOf text then some (text.take (text.length - ending.length)) else none

def windowsHour (meridiem : List Char) (hour : Int) : Int :=
  if meridiem = "AM".toList ∧ hour = 12 then 0
  else if meridiem = "PM".toList ∧ hour = 12 then 12
  else if meridiem = "PM".toList then hour + 12
  else hour

def parseWindows (line : List Char) : Option ListedLine :=
  match (splitWhitespace line).take 3 with
  | [date, time, sizeOrDir] =>
    match date.splitOn '-' with
    | monthText :: dayText :: yearText :: _ => do
        let year ← parseI64 yearText
        let year := if year < 100 then if year < 70 then 2000 + year else 1900 + year else year
        let upper := time.map Char.toUpper
        let clock := ((stripSuffix "AM".toList upper).or (stripSuffix "PM".toList upper)).getD upper
        let meridiem := upper.drop clock.length
        let (hourText, minuteText) ← splitOnce [ ':'] clock
        let hour ← parseI64 hourText
        let hour := windowsHour meridiem hour
        let month ← parseI64 monthText
        let day ← parseI64 dayText
        let minute ← parseI64 minuteText
        let rest ← tokenRest false 3 line
        let name := rest.dropWhile isWhitespace
        let (kind, size) ←
          if sizeOrDir = "<DIR>".toList then some (FileKind.dir, 0)
          else (parseU64 sizeOrDir).map fun size => (FileKind.file, size)
        if name = [] then none
        else some {
          item := {
            name := String.ofList name
            metadata := { size, modified := unixSeconds year month day hour minute 0, kind }
            linkTarget := none }
          permissions := none }
    | _ => none
  | _ => none

def isWindowsDate (token : List Char) : Bool :=
  (token.splitOn '-').length = 3 ∧ (token.splitOn '-').all isDigits

def parseListLine (line : List Char) (now : Nat) : Option ListedLine := do
  let first ← (splitWhitespace line).head?
  if isWindowsDate first then parseWindows line else parseUnix line now

/-! ### Numbers in columns -/

/-- A number is no month. -/
theorem monthNumber_toDigits (value : Nat) : monthNumber (Nat.toDigits 10 value) = none := by
  have noDigit : ∀ month ∈ monthNames, (month.all fun character => !character.isDigit) = true := by
    decide
  unfold monthNumber
  rw [Option.map_eq_none_iff, List.findIdx?_eq_none_iff]
  intro month member
  rw [decide_eq_false_iff_not]
  rintro rfl
  obtain ⟨digit, rest, digits⟩ : ∃ digit rest, Nat.toDigits 10 value = digit :: rest := by
    have positive := @Nat.length_toDigits_pos 10 value
    cases digits : Nat.toDigits 10 value with
    | nil => simp [digits] at positive
    | cons digit rest => exact ⟨digit, rest, rfl⟩
  have isDigit : digit.isDigit = true :=
    Nat.isDigit_of_mem_toDigits (by decide) (by decide) (digits ▸ List.mem_cons_self)
  have lower := noDigit _ member
  have noUpper : digit.toLower = digit := by
    unfold Char.toLower
    rw [dif_neg]
    rintro ⟨isUpper, -⟩
    simp only [Char.isDigit, Bool.and_eq_true, decide_eq_true_eq] at isDigit
    exact absurd (UInt32.le_trans isUpper isDigit.2) (by decide)
  simp [digits, noUpper, isDigit] at lower

/-! ### Columns -/

/-- A column is a text without white space. -/
def IsColumn (column : List Char) : Prop :=
  column ≠ [] ∧ ∀ character ∈ column, isWhitespace character = false

@[simp]
theorem isWhitespace_space : isWhitespace ' ' = true := by
  decide

theorem splitWhitespace_blank {blank : Char} (isBlank : isWhitespace blank = true)
    (rest : List Char) : splitWhitespace (blank :: rest) = splitWhitespace rest := by
  simp [splitWhitespace, List.splitOnP_cons_eq_if_modifyHead, isBlank]

theorem splitWhitespace_column {column : List Char} (isColumn : IsColumn column)
    (rest : List Char) :
    splitWhitespace (column ++ ' ' :: rest) = column :: splitWhitespace rest := by
  rw [splitWhitespace, List.splitOnP_append_cons_of_forall_mem isColumn.2 _ isWhitespace_space]
  simp [splitWhitespace, isColumn.1]

theorem splitWhitespace_spaces (count : Nat) (rest : List Char) :
    splitWhitespace (List.replicate count ' ' ++ rest) = splitWhitespace rest := by
  induction count with
  | zero => rfl
  | succ count ih =>
    rw [List.replicate_succ, List.cons_append, splitWhitespace_blank isWhitespace_space, ih]

theorem splitWhitespace_layOut (pad : Nat → Nat) {columns : List (List Char)}
    (areColumns : ∀ column ∈ columns, IsColumn column) (rest : List Char) :
    splitWhitespace (layOut pad columns rest) = columns ++ splitWhitespace rest := by
  induction columns with
  | nil => rfl
  | cons column columns ih =>
    have isColumn := areColumns column List.mem_cons_self
    have others := ih fun other member => areColumns other (List.mem_cons_of_mem _ member)
    cases columns with
    | nil => simp [layOut, splitWhitespace_column isColumn]
    | cons next columns =>
      rw [layOut, List.append_assoc, List.cons_append, splitWhitespace_column isColumn,
        splitWhitespace_spaces, others]
      · rfl
      · simp

theorem tokenRest_solid {column : List Char}
    (solid : ∀ character ∈ column, isWhitespace character = false) (count : Nat)
    (rest : List Char) : tokenRest true count (column ++ rest) = tokenRest true count rest := by
  induction column with
  | nil => rfl
  | cons character column ih =>
    have isSolid := solid character List.mem_cons_self
    rw [List.cons_append, tokenRest]
    simp only [isSolid, Bool.false_eq_true, if_false]
    exact ih fun other member => solid other (List.mem_cons_of_mem _ member)

theorem tokenRest_column {column : List Char} (isColumn : IsColumn column) (count : Nat)
    (rest : List Char) :
    tokenRest false count (column ++ ' ' :: rest) =
      if count = 1 then some (' ' :: rest) else tokenRest false (count - 1) rest := by
  obtain ⟨notEmpty, solid⟩ := isColumn
  cases column with
  | nil => exact absurd rfl notEmpty
  | cons character column =>
    have isSolid := solid character List.mem_cons_self
    rw [List.cons_append, tokenRest]
    simp only [isSolid, Bool.false_eq_true, if_false]
    rw [tokenRest_solid fun other member => solid other (List.mem_cons_of_mem _ member)]
    simp [tokenRest]

theorem tokenRest_spaces (count spaces : Nat) (rest : List Char) :
    tokenRest false count (List.replicate spaces ' ' ++ rest) = tokenRest false count rest := by
  induction spaces with
  | zero => rfl
  | succ spaces ih => simp [List.replicate_succ, tokenRest, ih]

theorem tokenRest_layOut (pad : Nat → Nat) {columns : List (List Char)} (notEmpty : columns ≠ [])
    (areColumns : ∀ column ∈ columns, IsColumn column) (rest : List Char) :
    tokenRest false columns.length (layOut pad columns rest) = some (' ' :: rest) := by
  induction columns with
  | nil => exact absurd rfl notEmpty
  | cons column columns ih =>
    have isColumn := areColumns column List.mem_cons_self
    cases columns with
    | nil => simp [layOut, tokenRest_column isColumn]
    | cons next columns =>
      have others := ih (by simp) fun other member =>
        areColumns other (List.mem_cons_of_mem _ member)
      rw [layOut, List.append_assoc, List.cons_append, tokenRest_column isColumn, tokenRest_spaces]
      · simpa using others
      · simp

/-! ### Entries of a directory -/

def arrow : List Char := " -> ".toList

inductive Content
  | file
  | folder
  | link (target : List Char)
  deriving DecidableEq, Repr

def Content.kind : Content → FileKind
  | .file => .file
  | .folder => .dir
  | .link _ => .symlink

def Content.letter : Content → Char
  | .file => '-'
  | .folder => 'd'
  | .link _ => 'l'

def Content.target : Content → Option (List Char)
  | .link target => some target
  | _ => none

/-- The last column of a date: a time of this year, or a year whose seconds fit
into 64 bits. -/
inductive Moment
  | clock (hour : Fin 24) (minute : Fin 60)
  | year (number : Nat) (fits : daysFromCivil number 12 31 * 86400 < 2 ^ 63)

def twoDigits (value : Nat) : List Char :=
  [Nat.digitChar (value / 10), Nat.digitChar (value % 10)]

def Moment.text : Moment → List Char
  | .clock hour minute => twoDigits hour ++ ':' :: twoDigits minute
  | .year number _ => Nat.toDigits 10 number

/-- The month as it is printed. -/
def monthText (month : Fin 12) : List Char := ["Jan", "Feb", "Mar", "Apr", "May", "Jun", "Jul",
  "Aug", "Sep", "Oct", "Nov", "Dec"][month].toList

/-- An entry as `ls -l` prints it. -/
structure UnixEntry where
  content : Content
  name : List Char
  bits : List Char
  bitsSolid : ∀ character ∈ bits, isWhitespace character = false
  links : List Char
  linksColumn : IsColumn links
  owner : List Char
  ownerColumn : IsColumn owner
  group : List Char
  groupColumn : IsColumn group
  size : Nat
  sizeFits : size < 2 ^ 64
  month : Fin 12
  day : Fin 31
  moment : Moment
  notEmpty : name ≠ []
  notCurrent : name ≠ ['.']
  notParent : name ≠ ['.', '.']
  noArrow : content.kind = .symlink → ¬ arrow <:+: name

namespace UnixEntry

variable (entry : UnixEntry)

def columns : List (List Char) :=
  [entry.content.letter :: entry.bits, entry.links, entry.owner, entry.group,
    Nat.toDigits 10 entry.size, monthText entry.month, Nat.toDigits 10 (entry.day + 1),
    entry.moment.text]

def rawName : List Char :=
  match entry.content with
  | .link target => entry.name ++ arrow ++ target
  | _ => entry.name

/-- The line of an entry, with at least one space between its columns. -/
def render (pad : Nat → Nat) : List Char := layOut pad entry.columns entry.rawName

/-- The owner is a number and the group is called like a month. -/
def GroupLikeMonth : Prop :=
  (parseU64 entry.owner).isSome ∧ (monthNumber entry.group).isSome

/-- The name of a link ends with the beginning of an arrow. -/
def EndsLikeArrow : Prop := entry.content.kind = .symlink ∧ " ->".toList <:+ entry.name

instance : Decidable entry.GroupLikeMonth := inferInstanceAs (Decidable (_ ∧ _))

instance : Decidable entry.EndsLikeArrow := inferInstanceAs (Decidable (_ ∧ _))

/-- What is read from the line of an entry. -/
def ReadBack (pad : Nat → Nat) (now : Nat) : Prop :=
  ∃ line, parseListLine (entry.render pad) now = some line ∧
    line.item.metadata.kind = entry.content.kind ∧ line.item.metadata.size = entry.size ∧
    line.item.name = String.ofList entry.name ∧
    line.item.linkTarget = entry.content.target.map String.ofList

variable {entry}

theorem isColumn_toDigits (value : Nat) : IsColumn (Nat.toDigits 10 value) := by
  constructor
  · intro empty
    have positive := @Nat.length_toDigits_pos 10 value
    simp [empty] at positive
  · intro character member
    exact isWhitespace_of_isDigit (Nat.isDigit_of_mem_toDigits (by decide) (by decide) member)

theorem isColumn_iff {column : List Char} :
    IsColumn column ↔ column ≠ [] ∧ (column.all fun character => !isWhitespace character) = true := by
  simp [IsColumn]

theorem isColumn_monthText (month : Fin 12) : IsColumn (monthText month) := by
  rw [isColumn_iff]
  revert month
  decide

theorem isColumn_moment (moment : Moment) : IsColumn moment.text := by
  cases moment with
  | clock hour minute =>
    have solidHour : ∀ hour : Fin 24,
        ((twoDigits hour).all fun character => !isWhitespace character) = true := by
      decide
    have solidMinute : ∀ minute : Fin 60,
        ((twoDigits minute).all fun character => !isWhitespace character) = true := by
      decide
    have solidColon : isWhitespace ':' = false := by decide
    rw [isColumn_iff]
    simp only [Moment.text, List.all_append, List.all_cons, solidHour, solidMinute, solidColon]
    simp
  | year number _ => exact isColumn_toDigits number

theorem isColumn_columns : ∀ column ∈ entry.columns, IsColumn column := by
  have isMode : IsColumn (entry.content.letter :: entry.bits) := by
    constructor
    · simp
    · intro character member
      rcases List.mem_cons.mp member with rfl | inBits
      · cases entry.content with
        | file => decide
        | folder => decide
        | link _ => exact (by decide : isWhitespace 'l' = false)
      · exact entry.bitsSolid character inBits
  simp only [columns, List.forall_mem_cons]
  exact ⟨isMode, entry.linksColumn, entry.ownerColumn, entry.groupColumn, isColumn_toDigits _,
    isColumn_monthText _, isColumn_toDigits _, isColumn_moment _, by simp⟩

/-! ### Reading the columns -/

theorem monthNumber_monthText (month : Fin 12) :
    monthNumber (monthText month) = some ((month : Int) + 1) := by
  revert month
  decide

theorem parseI64_twoDigits {value : Nat} (small : value < 100) :
    parseI64 (twoDigits value) = some (value : Int) := by
  revert value
  decide

theorem isSome_modifiedOf (moment : Moment) (now : Nat) (month day : Int) :
    (modifiedOf now month day moment.text).isSome := by
  cases moment with
  | clock hour minute =>
    have noColon : ∀ hour : Fin 24, ':' ∉ twoDigits hour := by decide
    have hourEq := parseI64_twoDigits (show hour.val < 100 by omega)
    have minuteEq := parseI64_twoDigits (show minute.val < 100 by omega)
    rw [modifiedOf, Moment.text, splitOnce_append_cons (noColon hour)]
    simp only [hourEq, minuteEq, Option.bind_eq_bind, Option.bind_some]
    split
    · split_ifs <;> simp
    · simp
  | year number fits =>
    have noColon : ¬ [ ':'] <:+: Nat.toDigits 10 number := by
      intro isInfix
      have member := isInfix.subset (List.mem_singleton_self ':')
      exact absurd (Nat.isDigit_of_mem_toDigits (by decide) (by decide) member) (by decide)
    have small : number < 2 ^ 63 := by
      simp only [daysFromCivil] at fits
      omega
    rw [modifiedOf, Moment.text, splitOnce_eq_none (by simp) noColon]
    simp [parseI64_toDigits small]

theorem findMonth_columns : findMonth entry.columns =
    [3, 4, 5].find? fun index => (monthNumber (entry.columns.getD index [])).isSome ∧
      (parseU64 (entry.columns.getD (index - 1) [])).isSome :=
  rfl

/-- The month is found behind the size, unless the group looks like a month behind
a number. -/
theorem findMonth_of_clear (clear : ¬ entry.GroupLikeMonth) : findMonth entry.columns = some 5 := by
  have notThird : ¬ ((monthNumber entry.group).isSome ∧ (parseU64 entry.owner).isSome) :=
    fun like => clear ⟨like.2, like.1⟩
  rw [findMonth_columns]
  simp [columns, notThird, monthNumber_toDigits, monthNumber_monthText,
    parseU64_toDigits entry.sizeFits]

theorem findMonth_of_groupLikeMonth (like : entry.GroupLikeMonth) :
    findMonth entry.columns = some 3 := by
  rw [findMonth_columns]
  simp [columns, like.1, like.2]

theorem splitOnce_arrow {name : List Char} (noArrow : ¬ arrow <:+: name)
    (notLike : ¬ " ->".toList <:+ name) (target : List Char) :
    splitOnce arrow (name ++ arrow ++ target) = some (name, target) := by
  apply splitOnce_append (by decide)
  intro ending isSuffix notEmpty isPrefix
  match ending with
  | [] => exact notEmpty rfl
  | [_] => simp [arrow] at isPrefix
  | [_, _] => simp [arrow] at isPrefix
  | [first, second, third] =>
    apply notLike
    simp [arrow] at isPrefix
    obtain ⟨rfl, rfl, rfl⟩ := isPrefix
    exact isSuffix
  | first :: second :: third :: fourth :: ending =>
    apply noArrow
    simp [arrow] at isPrefix
    obtain ⟨rfl, rfl, rfl, rfl⟩ := isPrefix
    exact List.IsInfix.trans ⟨[], ending, rfl⟩ isSuffix.isInfix

/-- An entry without the beginning of an arrow at the end of a link has its name
and its target back. -/
theorem nameOf_rawName (notLike : ¬ entry.EndsLikeArrow) :
    nameOf entry.content.kind entry.rawName = (entry.name, entry.content.target) := by
  cases content : entry.content with
  | file => simp [rawName, content, nameOf, Content.kind, Content.target]
  | folder => simp [rawName, content, nameOf, Content.kind, Content.target]
  | link target =>
    have isLink : entry.content.kind = .symlink := by rw [content, Content.kind]
    have split := splitOnce_arrow (entry.noArrow isLink) (fun like => notLike ⟨isLink, like⟩) target
    rw [rawName, content]
    simp only [nameOf, Content.kind, Content.target]
    rw [← arrow, split]

theorem isWindowsDate_mode : isWindowsDate (entry.content.letter :: entry.bits) = false := by
  have firstField : ∃ field rest, (entry.content.letter :: entry.bits).splitOn '-' = field :: rest ∧
      isDigits field = false := by
    rw [List.splitOn_cons_eq_if_modifyHead]
    cases split : entry.bits.splitOn '-' with
    | nil => exact absurd split (List.splitOn_ne_nil _ _)
    | cons field rest =>
      cases entry.content with
      | file => exact ⟨[], field :: rest, rfl, rfl⟩
      | folder => exact ⟨'d' :: field, rest, rfl, rfl⟩
      | link _ => exact ⟨'l' :: field, rest, rfl, rfl⟩
  obtain ⟨field, rest, splitEq, notDigits⟩ := firstField
  simp [isWindowsDate, splitEq, notDigits]

theorem kindOf_mode : kindOf (entry.content.letter :: entry.bits) = some entry.content.kind := by
  cases entry.content <;> rfl

theorem fields_render (pad : Nat → Nat) :
    (splitWhitespace (entry.render pad)).take unixLeadingFields = entry.columns := by
  rw [render, splitWhitespace_layOut pad isColumn_columns]
  exact List.take_left' rfl

theorem rawName_render (pad : Nat → Nat) :
    (tokenRest false (5 + 3) (entry.render pad)).bind skipByte = some entry.rawName := by
  have rest : tokenRest false (5 + 3) (entry.render pad) = some (' ' :: entry.rawName) :=
    tokenRest_layOut pad (by simp [columns]) isColumn_columns entry.rawName
  rw [rest]
  rfl

theorem parseListLine_eq_parseUnix (pad : Nat → Nat) (now : Nat) :
    parseListLine (entry.render pad) now = parseUnix (entry.render pad) now := by
  have first : (splitWhitespace (entry.render pad)).head? =
      some (entry.content.letter :: entry.bits) := by
    rw [render, splitWhitespace_layOut pad isColumn_columns]
    rfl
  simp [parseListLine, first, isWindowsDate_mode]

/-- The line of an entry is read as the entry, unless its group or the end of its
name looks like what comes next. -/
theorem readBack (clear : ¬ entry.GroupLikeMonth) (notLike : ¬ entry.EndsLikeArrow)
    (pad : Nat → Nat) (now : Nat) : entry.ReadBack pad now := by
  have monthEq : monthNumber (entry.columns.getD 5 []) = some ((entry.month : Int) + 1) :=
    monthNumber_monthText entry.month
  have dayEq : parseI64 (entry.columns.getD 6 []) = some (((entry.day + 1 : Nat)) : Int) :=
    parseI64_toDigits (by omega)
  have sizeEq : parseU64 (entry.columns.getD 4 []) = some entry.size :=
    parseU64_toDigits entry.sizeFits
  have headEq : entry.columns.head? = some (entry.content.letter :: entry.bits) := rfl
  obtain ⟨modified, modifiedEq⟩ := Option.isSome_iff_exists.mp
    (isSome_modifiedOf entry.moment now ((entry.month : Int) + 1) (entry.day + 1 : Nat))
  have modifiedEq : modifiedOf now ((entry.month : Int) + 1) (entry.day + 1 : Nat)
    (entry.columns.getD 7 []) = some modified := modifiedEq
  have named : ¬ (entry.name = [] ∨ entry.name = ['.'] ∨ entry.name = ['.', '.']) := by
    rintro (empty | current | parent)
    · exact entry.notEmpty empty
    · exact entry.notCurrent current
    · exact entry.notParent parent
  unfold ReadBack
  rw [parseListLine_eq_parseUnix]
  simp only [parseUnix, fields_render, headEq, kindOf_mode, findMonth_of_clear clear,
    rawName_render, nameOf_rawName notLike, if_neg named, monthEq, dayEq, sizeEq, modifiedEq,
    Option.bind_eq_bind, Option.bind_some]
  exact ⟨_, rfl, rfl, rfl, rfl, rfl⟩

/-- A line whose group looks like a month is left out: the size is taken for the
day and the month for the time. -/
theorem parseListLine_of_groupLikeMonth (like : entry.GroupLikeMonth) (pad : Nat → Nat)
    (now : Nat) : parseListLine (entry.render pad) now = none := by
  have noColon : ∀ month : Fin 12, splitOnce [ ':'] (monthText month) = none := by decide
  have noNumber : ∀ month : Fin 12, parseI64 (monthText month) = none := by decide
  have noMoment (month day : Int) : modifiedOf now month day (entry.columns.getD 5 []) = none := by
    simp [modifiedOf, columns, noColon, noNumber]
  have headEq : entry.columns.head? = some (entry.content.letter :: entry.bits) := rfl
  rw [parseListLine_eq_parseUnix]
  simp only [parseUnix, fields_render, headEq, findMonth_of_groupLikeMonth like,
    noMoment, Option.bind_eq_bind, Option.bind_some, Option.bind_none, Option.bind_fun_none,
    ite_self]

/-- An entry of the owner 1000. -/
def sample (content : Content) (name group : List Char)
    (named : name ≠ [] ∧ name ≠ ['.'] ∧ name ≠ ['.', '.'] ∧ ¬ arrow <:+: name)
    (isGroup : IsColumn group) : UnixEntry where
  content := content
  name := name
  bits := "rw-r--r--".toList
  bitsSolid := (isColumn_iff.mpr (by decide) : IsColumn "rw-r--r--".toList).2
  links := ['1']
  linksColumn := isColumn_iff.mpr (by decide)
  owner := "1000".toList
  ownerColumn := isColumn_iff.mpr (by decide)
  group := group
  groupColumn := isGroup
  size := 4096
  sizeFits := by decide
  month := 2
  day := 0
  moment := .clock 12 34
  notEmpty := named.1
  notCurrent := named.2.1
  notParent := named.2.2.1
  noArrow := fun _ => named.2.2.2

theorem readBack_notes :
    (sample .file "notes 2".toList "users".toList (by decide) (isColumn_iff.mpr (by decide))).ReadBack
      (fun _ => 0) 0 :=
  readBack (by decide) (by decide) _ _

/-- A group called `may` behind a numeric owner, and a link called `a ->`. -/
theorem not_readBack_may :
    ¬ (sample .file "notes".toList "may".toList (by decide) (isColumn_iff.mpr (by decide))).ReadBack
      (fun _ => 0) 0 ∧
    ¬ (sample (.link ['t']) "a ->".toList "users".toList (by decide)
      (isColumn_iff.mpr (by decide))).ReadBack (fun _ => 0) 0 := by
  constructor
  · rintro ⟨line, isRead, -⟩
    rw [parseListLine_of_groupLikeMonth (by decide)] at isRead
    cases isRead
  · rintro ⟨line, isRead, -, -, nameEq, -⟩
    have names : (parseListLine ((sample (.link ['t']) "a ->".toList "users".toList (by decide)
        (isColumn_iff.mpr (by decide))).render fun _ => 0) 0).map (fun line => line.item.name) =
        some "a" := by
      decide
    rw [isRead, Option.map_some, nameEq] at names
    revert names
    decide

end UnixEntry

end ListLines

end Porthmos
