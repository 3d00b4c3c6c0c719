import Mathlib.Algebra.BigOperators.Group.List.Basic
import Mathlib.Algebra.GroupWithZero.Nat
import Mathlib.Data.List.DropRight
import Mathlib.Data.List.Infix

/-!
# Fields of a text

Numbers that are written with digits, fields that are found by the place of their
bytes, and columns with spaces between them.
-/

namespace TextFields

/-! ### Numbers -/

def isDigits (digits : List Char) : Bool := digits ≠ [] ∧ digits.all Char.isDigit

/-- `str::parse::<u64>` -/
def parseU64 (text : List Char) : Option Nat :=
  let digits := if text.head? = some '+' then text.tail else text
  let value := Nat.ofDigitChars 10 digits 0
  if isDigits digits ∧ value < 2 ^ 64 then some value else none

/-- `str::parse::<u32>` -/
def parseU32 (text : List Char) : Option Nat := (parseU64 text).filter fun value => value < 2 ^ 32

/-- `str::parse::<i64>` -/
def parseI64 (text : List Char) : Option Int :=
  let digits := if text.head? = some '+' ∨ text.head? = some '-' then text.tail else text
  let size : Int := Nat.ofDigitChars 10 digits 0
  let value := if text.head? = some '-' then -size else size
  if isDigits digits ∧ -2 ^ 63 ≤ value ∧ value < 2 ^ 63 then some value else none

theorem isDigit_of_isDigits {digits : List Char} (areDigits : isDigits digits = true)
    {character : Char} (member : character ∈ digits) : character.isDigit = true := by
  simp only [isDigits, decide_eq_true_eq] at areDigits
  exact List.all_eq_true.mp areDigits.2 character member

theorem head_ne_of_isDigits {digits : List Char} (areDigits : isDigits digits = true)
    {character : Char} (other : character.isDigit = false) : digits.head? ≠ some character := by
  intro isHead
  rw [isDigit_of_isDigits areDigits (List.mem_of_mem_head? isHead)] at other
  cases other

theorem parseU64_of_isDigits {digits : List Char} (areDigits : isDigits digits = true) :
    parseU64 digits = if Nat.ofDigitChars 10 digits 0 < 2 ^ 64 then
      some (Nat.ofDigitChars 10 digits 0) else none := by
  have noPlus : digits.head? ≠ some '+' := head_ne_of_isDigits areDigits (by decide)
  simp only [parseU64, if_neg noPlus, areDigits, true_and]

theorem parseI64_of_isDigits {digits : List Char} (areDigits : isDigits digits = true) :
    parseI64 digits = if Nat.ofDigitChars 10 digits 0 < 2 ^ 63 then
      some (Nat.ofDigitChars 10 digits 0 : Int) else none := by
  have noPlus : digits.head? ≠ some '+' := head_ne_of_isDigits areDigits (by decide)
  have noMinus : digits.head? ≠ some '-' := head_ne_of_isDigits areDigits (by decide)
  have noSign := not_or.mpr ⟨noPlus, noMinus⟩
  have bounds : (-2 ^ 63 ≤ (Nat.ofDigitChars 10 digits 0 : Int) ∧
      (Nat.ofDigitChars 10 digits 0 : Int) < 2 ^ 63) ↔ Nat.ofDigitChars 10 digits 0 < 2 ^ 63 := by
    omega
  simp only [parseI64, if_neg noSign, if_neg noMinus, areDigits, true_and, bounds]

theorem isDigits_toDigits (value : Nat) : isDigits (Nat.toDigits 10 value) = true := by
  have digits : (Nat.toDigits 10 value).all Char.isDigit = true := by
    rw [List.all_eq_true]
    intro character member
    exact Nat.isDigit_of_mem_toDigits (by decide) (by decide) member
  simp [isDigits, digits]

theorem parseU64_toDigits {value : Nat} (fits : value < 2 ^ 64) :
    parseU64 (Nat.toDigits 10 value) = some value := by
  rw [parseU64_of_isDigits (isDigits_toDigits value), Nat.ofDigitChars_ten_toDigits, if_pos fits]

theorem parseU32_toDigits {value : Nat} (fits : value < 2 ^ 32) :
    parseU32 (Nat.toDigits 10 value) = some value := by
  rw [parseU32, parseU64_toDigits (by omega), Option.filter_some, if_pos (by simpa using fits)]

theorem parseI64_toDigits {value : Nat} (fits : value < 2 ^ 63) :
    parseI64 (Nat.toDigits 10 value) = some (value : Int) := by
  rw [parseI64_of_isDigits (isDigits_toDigits value), Nat.ofDigitChars_ten_toDigits, if_pos fits]

/-- A number with zeros before it, as `{:0width}` prints it. -/
def padded (width value : Nat) : List Char :=
  List.replicate (width - (Nat.toDigits 10 value).length) '0' ++ Nat.toDigits 10 value

theorem length_padded {width value : Nat} (positive : 0 < width) (fits : value < 10 ^ width) :
    (padded width value).length = width := by
  have short := (Nat.length_toDigits_le_iff (by decide : 1 < 10) positive).mpr fits
  simp [padded, short]

theorem isDigits_padded (width value : Nat) : isDigits (padded width value) = true := by
  have digits : (padded width value).all Char.isDigit = true := by
    rw [List.all_eq_true]
    intro character member
    rcases List.mem_append.mp member with isZero | isDigit
    · rw [List.eq_of_mem_replicate isZero]
      decide
    · exact Nat.isDigit_of_mem_toDigits (by decide) (by decide) isDigit
  have notEmpty : padded width value ≠ [] := by simp [padded]
  simp [isDigits, digits, notEmpty]

theorem ofDigitChars_padded (width value : Nat) :
    Nat.ofDigitChars 10 (padded width value) 0 = value := by
  rw [padded, Nat.ofDigitChars_append, Nat.ofDigitChars_replicate_zero, Nat.mul_zero,
    Nat.ofDigitChars_ten_toDigits]

theorem parseU32_padded {width value : Nat} (fits : value < 2 ^ 32) :
    parseU32 (padded width value) = some value := by
  rw [parseU32, parseU64_of_isDigits (isDigits_padded width value), ofDigitChars_padded,
    if_pos (by omega), Option.filter_some, if_pos (by simpa using fits)]

theorem parseI64_padded {width value : Nat} (fits : value < 2 ^ 63) :
    parseI64 (padded width value) = some (value : Int) := by
  rw [parseI64_of_isDigits (isDigits_padded width value), ofDigitChars_padded, if_pos fits]

/-! ### Places of bytes -/

def byteLength (text : List Char) : Nat := (text.map Char.utf8Size).sum

/-- The characters of the first bytes, if these end with a character. -/
def takeBytes : Nat → List Char → Option (List Char)
  | 0, _ => some []
  | _, [] => none
  | bytes, character :: rest =>
    if character.utf8Size ≤ bytes then
      (takeBytes (bytes - character.utf8Size) rest).map (character :: ·)
    else none

/-- The text behind its first bytes, if these end with a character. -/
def dropBytes : Nat → List Char → Option (List Char)
  | 0, text => some text
  | _, [] => none
  | bytes, character :: rest =>
    if character.utf8Size ≤ bytes then dropBytes (bytes - character.utf8Size) rest else none

/-- `str::get` of a range of bytes -/
def byteRange (text : List Char) (first last : Nat) : Option (List Char) :=
  (dropBytes first text).bind (takeBytes (last - first))

theorem takeBytes_zero (text : List Char) : takeBytes 0 text = some [] := by
  cases text <;> rfl

theorem dropBytes_zero (text : List Char) : dropBytes 0 text = some text := by
  cases text <;> rfl

theorem takeBytes_cons (bytes : Nat) (character : Char) (rest : List Char) :
    takeBytes (character.utf8Size + bytes) (character :: rest) =
      (takeBytes bytes rest).map (character :: ·) := by
  have positive := character.utf8Size_pos
  obtain ⟨before, isSucc⟩ : ∃ before, character.utf8Size + bytes = before + 1 :=
    ⟨character.utf8Size + bytes - 1, by omega⟩
  rw [isSucc, takeBytes, ← isSucc, if_pos (Nat.le_add_right _ _), Nat.add_sub_cancel_left]
  nofun

theorem dropBytes_cons (bytes : Nat) (character : Char) (rest : List Char) :
    dropBytes (character.utf8Size + bytes) (character :: rest) = dropBytes bytes rest := by
  have positive := character.utf8Size_pos
  obtain ⟨before, isSucc⟩ : ∃ before, character.utf8Size + bytes = before + 1 :=
    ⟨character.utf8Size + bytes - 1, by omega⟩
  rw [isSucc, dropBytes, ← isSucc, if_pos (Nat.le_add_right _ _), Nat.add_sub_cancel_left]
  nofun

theorem takeBytes_append (text rest : List Char) :
    takeBytes (byteLength text) (text ++ rest) = some text := by
  induction text with
  | nil => exact takeBytes_zero rest
  | cons character text ih =>
    rw [byteLength, List.map_cons, List.sum_cons, List.cons_append, takeBytes_cons,
      ← byteLength, ih]
    rfl

theorem dropBytes_append (text rest : List Char) :
    dropBytes (byteLength text) (text ++ rest) = some rest := by
  induction text with
  | nil => exact dropBytes_zero rest
  | cons character text ih =>
    rw [byteLength, List.map_cons, List.sum_cons, List.cons_append, dropBytes_cons,
      ← byteLength, ih]

theorem byteLength_append (first second : List Char) :
    byteLength (first ++ second) = byteLength first + byteLength second := by
  simp [byteLength]

theorem byteLength_cons (character : Char) (text : List Char) :
    byteLength (character :: text) = character.utf8Size + byteLength text := rfl

theorem byteLength_spaces (count : Nat) : byteLength (List.replicate count ' ') = count := by
  have size : ' '.utf8Size = 1 := rfl
  simp [byteLength, size]

theorem utf8Size_of_isDigit {character : Char} (isDigit : character.isDigit = true) :
    character.utf8Size = 1 := by
  simp only [Char.isDigit, Bool.and_eq_true, decide_eq_true_eq] at isDigit
  exact Char.utf8Size_eq_one_iff.mpr (UInt32.le_trans isDigit.2 (by decide))

theorem byteLength_of_isDigits {digits : List Char} (areDigits : isDigits digits = true) :
    byteLength digits = digits.length := by
  have sizes : digits.map Char.utf8Size = digits.map fun _ => 1 :=
    List.map_congr_left fun character member =>
      utf8Size_of_isDigit (isDigit_of_isDigits areDigits member)
  simp [byteLength, sizes]

theorem byteLength_padded {width value : Nat} (positive : 0 < width) (fits : value < 10 ^ width) :
    byteLength (padded width value) = width := by
  rw [byteLength_of_isDigits (isDigits_padded width value), length_padded positive fits]

/-- The place where a field begins. -/
def startOf (fields : List (List Char)) (index : Nat) : Nat :=
  ((fields.map byteLength).take index).sum

theorem byteLength_flatten (fields : List (List Char)) :
    byteLength fields.flatten = (fields.map byteLength).sum := by
  induction fields with
  | nil => rfl
  | cons field fields ih =>
    rw [List.flatten_cons, byteLength_append, ih, List.map_cons, List.sum_cons]

theorem dropBytes_flatten (fields : List (List Char)) (index : Nat) :
    dropBytes (startOf fields index) fields.flatten = some (fields.drop index).flatten := by
  have start : startOf fields index = byteLength (fields.take index).flatten := by
    rw [startOf, ← List.map_take, byteLength_flatten]
  calc dropBytes (startOf fields index) fields.flatten
      = dropBytes (byteLength (fields.take index).flatten)
          ((fields.take index).flatten ++ (fields.drop index).flatten) := by
        rw [start, ← List.flatten_append, List.take_append_drop]
    _ = some (fields.drop index).flatten := dropBytes_append _ _

theorem byteRange_flatten {fields : List (List Char)} {index : Nat} {field : List Char}
    (isField : fields[index]? = some field) :
    byteRange fields.flatten (startOf fields index) (startOf fields index + byteLength field) =
      some field := by
  obtain ⟨inFields, rfl⟩ := List.getElem?_eq_some_iff.mp isField
  rw [byteRange, dropBytes_flatten, List.drop_eq_getElem_cons inFields, List.flatten_cons,
    Option.bind_some, Nat.add_sub_cancel_left, takeBytes_append]

/-! ### Ends -/

/-- `str::trim_matches` -/
def trimMatches (cut : Char → Bool) (text : List Char) : List Char :=
  (text.dropWhile cut).rdropWhile cut

theorem trimMatches_eq_self {cut : Char → Bool} {text : List Char}
    (first : ∀ character, text.head? = some character → cut character = false)
    (last : ∀ character, text.getLast? = some character → cut character = false) :
    trimMatches cut text = text := by
  have noFirst : text.dropWhile cut = text := by
    rw [List.dropWhile_eq_self_iff]
    intro notEmpty
    have isHead : text.head? = some text[0] := by rw [List.head?_eq_getElem?, List.getElem?_eq_getElem]
    simp [first _ isHead]
  rw [trimMatches, noFirst, List.rdropWhile_eq_self_iff]
  intro notEmpty
  simp [last _ (List.getLast?_eq_some_getLast notEmpty)]

theorem rdropWhile_append_of_all {cut : Char → Bool} (text : List Char) {after : List Char}
    (cutAfter : ∀ character ∈ after, cut character = true) :
    (text ++ after).rdropWhile cut = text.rdropWhile cut := by
  rw [List.rdropWhile, List.rdropWhile, List.reverse_append, List.dropWhile_append_of_pos]
  intro character member
  exact cutAfter character (List.mem_reverse.mp member)

theorem trimMatches_append {cut : Char → Bool} {before after : List Char} (text : List Char)
    (cutBefore : ∀ character ∈ before, cut character = true)
    (cutAfter : ∀ character ∈ after, cut character = true) :
    trimMatches cut (before ++ (text ++ after)) = trimMatches cut text := by
  rw [trimMatches, List.dropWhile_append_of_pos cutBefore, List.dropWhile_append]
  split_ifs with noText
  · rw [List.isEmpty_iff] at noText
    rw [trimMatches, noText, List.dropWhile_eq_nil_iff.mpr cutAfter]
  · rw [rdropWhile_append_of_all _ cutAfter, trimMatches]

/-! ### Columns -/

/-- Columns with spaces between them, one space behind the last, and what
follows it. -/
def layOut (pad : Nat → Nat) : List (List Char) → List Char → List Char
  | [], rest => rest
  | [last], rest => last ++ ' ' :: rest
  | column :: columns, rest =>
    column ++ ' ' :: List.replicate (pad columns.length) ' ' ++ layOut pad columns rest

theorem layOut_cons_cons (pad : Nat → Nat) (column next : List Char) (columns : List (List Char))
    (rest : List Char) : layOut pad (column :: next :: columns) rest =
      column ++ ' ' :: (List.replicate (pad (columns.length + 1)) ' ' ++
        layOut pad (next :: columns) rest) := by
  simp [layOut]

theorem layOut_append (pad : Nat → Nat) (columns : List (List Char)) (rest : List Char) :
    layOut pad columns rest = layOut pad columns [] ++ rest := by
  induction columns with
  | nil => rfl
  | cons column columns ih =>
    cases columns with
    | nil => simp [layOut]
    | cons next columns =>
      rw [layOut_cons_cons, layOut_cons_cons, ih]
      simp

end TextFields
