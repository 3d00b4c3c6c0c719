import Mathlib.Data.List.Infix

/-!
# Percent encoding

A text is written for an address by writing the bytes of its UTF-8 form, each
as itself or as a percent sign with two hexadecimal digits.  Reading goes the
other way: percent signs with two digits become bytes, and the bytes become a
text again, with a replacement character for what is not UTF-8.
-/

namespace Percent

/-- The bytes of a text in UTF-8. -/
def utf8 (text : List Char) : List UInt8 := text.flatMap String.utf8EncodeChar

/-! ### Texts from bytes -/

/-- For the first byte of a longer character: how many bytes follow it, and the
bounds of the first of them. -/
def followers (byte : UInt8) : Option (Nat × UInt8 × UInt8) :=
  if 0xC2 ≤ byte ∧ byte ≤ 0xDF then some (1, 0x80, 0xBF)
  else if byte = 0xE0 then some (2, 0xA0, 0xBF)
  else if byte = 0xED then some (2, 0x80, 0x9F)
  else if 0xE1 ≤ byte ∧ byte ≤ 0xEF then some (2, 0x80, 0xBF)
  else if byte = 0xF0 then some (3, 0x90, 0xBF)
  else if 0xF1 ≤ byte ∧ byte ≤ 0xF3 then some (3, 0x80, 0xBF)
  else if byte = 0xF4 then some (3, 0x80, 0x8F)
  else none

/-- How many bytes one replacement character stands for: the longest start of
`bytes` that could have begun a character. -/
def invalidLength : List UInt8 → Nat
  | [] => 0
  | [_] => 1
  | first :: second :: rest =>
    match followers first with
    | none => 1
    | some (count, low, high) =>
      if low ≤ second ∧ second ≤ high then
        2 + ((rest.take (count - 1)).takeWhile fun byte => 0x80 ≤ byte ∧ byte ≤ 0xBF).length
      else 1

def replacementCharacter : Char := Char.ofNat 0xFFFD

/-- Read at most `fuel` characters. -/
def fromUtf8LossyWithin : Nat → List UInt8 → List Char
  | 0, _ => []
  | _, [] => []
  | fuel + 1, bytes =>
    match bytes.toByteArray.utf8DecodeChar? 0 with
    | some character => character :: fromUtf8LossyWithin fuel (bytes.drop character.utf8Size)
    | none => replacementCharacter :: fromUtf8LossyWithin fuel (bytes.drop (invalidLength bytes))

/-- `String::from_utf8_lossy` -/
def fromUtf8Lossy (bytes : List UInt8) : List Char := fromUtf8LossyWithin bytes.length bytes

@[simp]
theorem utf8_nil : utf8 [] = [] :=
  rfl

@[simp]
theorem utf8_cons (character : Char) (text : List Char) :
    utf8 (character :: text) = String.utf8EncodeChar character ++ utf8 text := by
  simp [utf8]

@[simp]
theorem utf8_append (first second : List Char) :
    utf8 (first ++ second) = utf8 first ++ utf8 second := by
  simp [utf8]

@[simp]
theorem fromUtf8Lossy_nil : fromUtf8Lossy [] = [] :=
  rfl

theorem length_le_utf8 (text : List Char) : text.length ≤ (utf8 text).length := by
  induction text with
  | nil => simp
  | cons character text ih =>
    have positive := character.utf8Size_pos
    simp only [utf8_cons, List.length_cons, List.length_append, String.length_utf8EncodeChar]
    omega

theorem utf8_eq_nil_iff {text : List Char} : utf8 text = [] ↔ text = [] := by
  cases text with
  | nil => simp
  | cons character text => simp

theorem decode_utf8_cons (character : Char) (rest : List UInt8) :
    (String.utf8EncodeChar character ++ rest).toByteArray.utf8DecodeChar? 0 = some character := by
  rw [List.toByteArray_append]
  exact ByteArray.utf8DecodeChar?_utf8EncodeChar_append

theorem fromUtf8LossyWithin_utf8 {text : List Char} {fuel : Nat} (enough : text.length ≤ fuel) :
    fromUtf8LossyWithin fuel (utf8 text) = text := by
  induction text generalizing fuel with
  | nil => cases fuel <;> rfl
  | cons character text ih =>
    obtain ⟨fuel, rfl⟩ : ∃ less, fuel = less + 1 := ⟨fuel - 1, by simp at enough; omega⟩
    have notEmpty : utf8 (character :: text) ≠ [] := by
      rw [ne_eq, utf8_eq_nil_iff]
      simp
    rw [fromUtf8LossyWithin.eq_3 _ _ notEmpty, utf8_cons, decode_utf8_cons]
    have dropped : (String.utf8EncodeChar character ++ utf8 text).drop character.utf8Size =
        utf8 text := by
      rw [← String.length_utf8EncodeChar character, List.drop_left]
    simp only [dropped]
    rw [ih (by simpa using enough)]

@[simp]
theorem fromUtf8Lossy_utf8 (text : List Char) : fromUtf8Lossy (utf8 text) = text :=
  fromUtf8LossyWithin_utf8 (length_le_utf8 text)

theorem fromUtf8Lossy_eq_nil_iff {bytes : List UInt8} : fromUtf8Lossy bytes = [] ↔ bytes = [] := by
  cases bytes with
  | nil => simp
  | cons byte bytes =>
    simp only [fromUtf8Lossy, List.length_cons, fromUtf8LossyWithin]
    split <;> simp

/-! ### Hexadecimal digits -/

def hexDigit (value : Nat) : Char := Char.ofNat (if value < 10 then 48 + value else 55 + value)

/-- The value of a hexadecimal digit of either case, given as a byte. -/
def hexValue (byte : UInt8) : Option Nat :=
  if 48 ≤ byte ∧ byte ≤ 57 then some (byte.toNat - 48)
  else if 65 ≤ byte ∧ byte ≤ 70 then some (byte.toNat - 55)
  else if 97 ≤ byte ∧ byte ≤ 102 then some (byte.toNat - 87)
  else none

/-! ### Encoding and decoding -/

/-- The bytes that are written as themselves: ASCII, and not the percent sign. -/
structure Unreserved where
  kept : UInt8 → Bool
  ascii : ∀ byte, kept byte = true → byte < 0x80
  percent : kept 0x25 = false

section Encoding

variable (unreserved : Unreserved)

def encodeByte (byte : UInt8) : List Char :=
  if unreserved.kept byte then [Char.ofNat byte.toNat]
  else ['%', hexDigit (byte.toNat / 16), hexDigit (byte.toNat % 16)]

def encode (text : List Char) : List Char := (utf8 text).flatMap (encodeByte unreserved)

end Encoding

/-- Read the escapes in the bytes of a text; a percent sign without two digits
stands for itself. -/
def decodeBytes : List UInt8 → List UInt8
  | 0x25 :: high :: low :: rest =>
    match hexValue high, hexValue low with
    | some highValue, some lowValue =>
      UInt8.ofNat (16 * highValue + lowValue) :: decodeBytes rest
    | _, _ => 0x25 :: decodeBytes (high :: low :: rest)
  | byte :: rest => byte :: decodeBytes rest
  | [] => []

@[simp]
theorem decodeBytes_nil : decodeBytes [] = [] :=
  rfl

/-- `percent_decode_str(text).decode_utf8_lossy()` -/
def decode (text : List Char) : List Char := fromUtf8Lossy (decodeBytes (utf8 text))

theorem utf8EncodeChar_ascii :
    ∀ value < 128, String.utf8EncodeChar (Char.ofNat value) = [UInt8.ofNat value] := by
  decide

theorem utf8EncodeChar_percent : String.utf8EncodeChar '%' = [0x25] := by
  decide

theorem utf8EncodeChar_hexDigit : ∀ value < 16, String.utf8EncodeChar (hexDigit value) =
      [UInt8.ofNat (hexDigit value).toNat] := by
  decide

theorem hexValue_hexDigit :
    ∀ value < 16, hexValue (UInt8.ofNat (hexDigit value).toNat) = some value := by
  decide

theorem decodeBytes_of_ne {byte : UInt8} (notPercent : byte ≠ 0x25) (rest : List UInt8) :
    decodeBytes (byte :: rest) = byte :: decodeBytes rest := by
  rw [decodeBytes.eq_2]
  rintro high low rest rfl
  exact absurd rfl notPercent

theorem decodeBytes_escape {high low : UInt8} {highValue lowValue : Nat}
    (highEq : hexValue high = some highValue) (lowEq : hexValue low = some lowValue)
    (rest : List UInt8) :
    decodeBytes (0x25 :: high :: low :: rest) =
      UInt8.ofNat (16 * highValue + lowValue) :: decodeBytes rest := by
  simp [decodeBytes, highEq, lowEq]

theorem decodeBytes_eq_nil_iff {bytes : List UInt8} : decodeBytes bytes = [] ↔ bytes = [] := by
  constructor
  · intro empty
    cases bytes with
    | nil => exact empty
    | cons byte bytes =>
      unfold decodeBytes at empty
      split at empty
      · split at empty <;> cases empty
      · cases empty
      · assumption
  · rintro rfl
    simp

section Encoding

variable {unreserved : Unreserved}

/-- One encoded byte is read back, whatever follows it. -/
theorem decodeBytes_encodeByte (byte : UInt8) (rest : List UInt8) :
    decodeBytes (utf8 (encodeByte unreserved byte) ++ rest) = byte :: decodeBytes rest := by
  unfold encodeByte
  split
  case isTrue isKept =>
    have isAscii : byte.toNat < 128 := UInt8.lt_iff_toNat_lt.mp (unreserved.ascii byte isKept)
    have notPercent : byte ≠ 0x25 := by
      rintro rfl
      rw [unreserved.percent] at isKept
      cases isKept
    simp only [utf8_cons, utf8_nil, List.append_nil, utf8EncodeChar_ascii _ isAscii,
      UInt8.ofNat_toNat, List.cons_append, List.nil_append]
    exact decodeBytes_of_ne notPercent rest
  case isFalse isEscaped =>
    have highLt : byte.toNat / 16 < 16 := by
      have byteLt := byte.toNat_lt
      omega
    have lowLt : byte.toNat % 16 < 16 := Nat.mod_lt _ (by decide)
    simp only [utf8_cons, utf8_nil, List.append_nil, utf8EncodeChar_percent,
      utf8EncodeChar_hexDigit _ highLt, utf8EncodeChar_hexDigit _ lowLt, List.cons_append,
      List.nil_append]
    rw [decodeBytes_escape (hexValue_hexDigit _ highLt) (hexValue_hexDigit _ lowLt),
      Nat.div_add_mod, UInt8.ofNat_toNat]

theorem decodeBytes_encode (bytes : List UInt8) :
    decodeBytes (utf8 (bytes.flatMap (encodeByte unreserved))) = bytes := by
  induction bytes with
  | nil => simp
  | cons byte bytes ih => rw [List.flatMap_cons, utf8_append, decodeBytes_encodeByte, ih]

@[simp]
theorem decode_encode (text : List Char) : decode (encode unreserved text) = text := by
  rw [decode, encode, decodeBytes_encode, fromUtf8Lossy_utf8]

theorem mem_encode {text : List Char} {character : Char} (mem : character ∈ encode unreserved text) :
    character = '%' ∨ (∃ value < 16, character = hexDigit value) ∨
      ∃ byte, unreserved.kept byte = true ∧ character = Char.ofNat byte.toNat := by
  obtain ⟨byte, -, mem⟩ := List.mem_flatMap.mp mem
  unfold encodeByte at mem
  split at mem
  case isTrue isKept =>
    simp only [List.mem_singleton] at mem
    exact .inr (.inr ⟨byte, isKept, mem⟩)
  case isFalse isEscaped =>
    have byteLt := byte.toNat_lt
    simp only [List.mem_cons, List.not_mem_nil, or_false] at mem
    rcases mem with rfl | rfl | rfl
    · exact .inl rfl
    · exact .inr (.inl ⟨_, by omega, rfl⟩)
    · exact .inr (.inl ⟨_, Nat.mod_lt _ (by decide), rfl⟩)

theorem encode_eq_nil_iff {text : List Char} : encode unreserved text = [] ↔ text = [] := by
  constructor
  · intro empty
    have decoded : decode (encode unreserved text) = text := decode_encode text
    rw [← decoded, empty]
    simp [decode]
  · rintro rfl
    simp [encode]

end Encoding

theorem decode_eq_nil_iff {text : List Char} : decode text = [] ↔ text = [] := by
  rw [decode, fromUtf8Lossy_eq_nil_iff, decodeBytes_eq_nil_iff, utf8_eq_nil_iff]

end Percent
