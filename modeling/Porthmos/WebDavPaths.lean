import Porthmos.PathNames
import Porthmos.Percent
import Mathlib.Data.List.TakeWhile

/-!
# Addresses on a WebDAV server

A path of a WebDAV connection is addressed by its names, percent-encoded one by
one below the root of the connection.  The server answers with addresses of its
own, complete or without the origin, and the names in them are decoded again.
What the connection addresses is read back as the path it was made from.
-/

namespace Porthmos

namespace WebDav

/-- The characters of an address that are written as they are. -/
def segmentSet : Percent.Unreserved where
  kept byte := (48 ≤ byte ∧ byte ≤ 57) ∨ (65 ≤ byte ∧ byte ≤ 90) ∨ (97 ≤ byte ∧ byte ≤ 122) ∨
    byte = 45 ∨ byte = 46 ∨ byte = 95 ∨ byte = 126
  ascii byte kept := by
    simp only [decide_eq_true_eq, UInt8.le_iff_toNat_le, UInt8.lt_iff_toNat_lt,
      ← UInt8.toNat_inj] at kept ⊢
    simp at kept ⊢
    omega
  percent := by decide

/-- Where the files of a connection are: the origin of the server and the names
of the root below it. -/
structure Locator where
  origin : String
  root : List String
  deriving DecidableEq, Repr

/-- The names between the slashes of an address, decoded. -/
def decodedSegments (text : List Char) : List String :=
  ((text.splitOn '/').filter fun segment => segment ≠ []).map fun segment =>
    String.ofList (Percent.decode segment)

def pushSegment (segments : List String) : Component → List String
  | .normal name => segments ++ [name]
  | .parentDir => segments.dropLast
  | .rootDir | .curDir => segments

def segments (path : Path) : List String := path.components.foldl pushSegment []

def toPath (segments : List String) : Path :=
  segments.foldl (fun path segment => path.join ⟨segment⟩) ⟨"/"⟩

def normalize (path : Path) : Path := toPath (segments path)

/-- What follows the first `://` of a text. -/
def afterScheme : List Char → Option (List Char)
  | ':' :: '/' :: '/' :: rest => some rest
  | _ :: rest => afterScheme rest
  | [] => none

namespace Locator

def new (origin root : String) : Locator := ⟨origin, decodedSegments root.toList⟩

def href (locator : Locator) (path : Path) (collection : Bool) : String :=
  let encoded := (locator.root ++ segments path).map fun segment =>
    Percent.encode segmentSet segment.toList
  let href := '/' :: ['/'].intercalate encoded
  String.ofList (if collection && href.getLast? ≠ some '/' then href ++ ['/'] else href)

def url (locator : Locator) (href : String) : String := locator.origin ++ href

/-- The part of an address from its first slash on, without query and fragment. -/
def pathText (href : String) : List Char :=
  let absolute :=
    match afterScheme href.toList with
    | some rest =>
      let path := rest.dropWhile fun character => character ≠ '/'
      if path = [] then ['/'] else path
    | none => href.toList
  absolute.takeWhile fun character => character ≠ '?' ∧ character ≠ '#'

def pathOfHref (locator : Locator) (href : String) : Option Path :=
  let decoded := decodedSegments (pathText href)
  if locator.root.isPrefixOf decoded then some (toPath (decoded.drop locator.root.length))
  else none

end Locator

/-! ### Encoded names -/

theorem not_mem_encode {text : List Char} {character : Char}
    (structural : character ∈ [ '/', '?', '#', ':']) :
    character ∉ Percent.encode segmentSet text := by
  intro mem
  have keptNot : ∀ value < 256, segmentSet.kept (UInt8.ofNat value) = true →
      Char.ofNat (UInt8.ofNat value).toNat ∉ [ '/', '?', '#', ':'] := by
    decide +kernel
  have digitNot : ∀ value < 16, Percent.hexDigit value ∉ [ '/', '?', '#', ':'] := by decide
  rcases Percent.mem_encode mem with rfl | ⟨value, small, rfl⟩ | ⟨byte, isKept, rfl⟩
  · simp at structural
  · exact digitNot value small structural
  · have kept := keptNot byte.toNat byte.toNat_lt
    rw [UInt8.ofNat_toNat] at kept
    exact kept isKept structural

theorem decodedSegments_slash (text : List Char) :
    decodedSegments ('/' :: text) = decodedSegments text := by
  have split := Path.splitOn_append_separator [] text
  rw [List.nil_append] at split
  rw [decodedSegments, split]
  simp [decodedSegments]

theorem decodedSegments_append_slash (text : List Char) :
    decodedSegments (text ++ ['/']) = decodedSegments text := by
  rw [decodedSegments, Path.splitOn_append_separator]
  simp [decodedSegments]

/-- The names of an address are read back from their encodings. -/
theorem decodedSegments_encoded {names : List String} (notEmpty : ∀ name ∈ names, name ≠ "") :
    decodedSegments (['/'].intercalate
      (names.map fun name => Percent.encode segmentSet name.toList)) = names := by
  cases namesEq : names with
  | nil => simp [decodedSegments]
  | cons first rest =>
    rw [← namesEq]
    have noSlash : ∀ piece ∈ names.map (fun name => Percent.encode segmentSet name.toList),
        '/' ∉ piece := by
      intro piece pieceMem
      obtain ⟨name, -, rfl⟩ := List.mem_map.mp pieceMem
      exact not_mem_encode (by simp)
    rw [decodedSegments, List.splitOn_intercalate _ noSlash (by simp [namesEq])]
    have allKept : (names.map fun name => Percent.encode segmentSet name.toList).filter
        (fun segment => segment ≠ []) =
          names.map fun name => Percent.encode segmentSet name.toList := by
      rw [List.filter_eq_self]
      intro piece pieceMem
      obtain ⟨name, nameMem, rfl⟩ := List.mem_map.mp pieceMem
      simpa [Percent.encode_eq_nil_iff] using notEmpty name nameMem
    rw [allKept]
    simp [Function.comp_def]

theorem ne_empty_of_mem_decodedSegments {text : List Char} {name : String}
    (mem : name ∈ decodedSegments text) : name ≠ "" := by
  obtain ⟨segment, segmentMem, rfl⟩ := List.mem_map.mp mem
  have notEmpty : segment ≠ [] := by simpa using (List.mem_filter.mp segmentMem).2
  simpa [← String.toList_inj, Percent.decode_eq_nil_iff] using notEmpty

theorem plain_of_mem_segments {path : Path} {name : String} (mem : name ∈ segments path) :
    PlainName name := by
  have fromComponents (components : List Component) (before : List String)
      (mem : name ∈ components.foldl pushSegment before) :
      name ∈ before ∨ .normal name ∈ components := by
    induction components generalizing before with
    | nil => exact .inl mem
    | cons component components ih =>
      rcases ih _ mem with isBefore | isLater
      · cases component with
        | normal other =>
          rcases List.mem_append.mp isBefore with isBefore | isLast
          · exact .inl isBefore
          · simp only [List.mem_singleton] at isLast
            simp [isLast]
        | parentDir => exact .inl (List.dropLast_subset _ isBefore)
        | rootDir => exact .inl isBefore
        | curDir => exact .inl isBefore
      · exact .inr (List.mem_cons_of_mem _ isLater)
  rcases fromComponents _ _ mem with isBefore | isComponent
  · simp at isBefore
  · exact plain_of_mem_components isComponent

/-! ### Addresses -/

namespace Locator

/-- All names an address of the connection is made of. -/
def names (locator : Locator) (path : Path) : List String := locator.root ++ segments path

theorem ne_empty_of_mem_names {origin root : String} {path : Path} {name : String}
    (mem : name ∈ (new origin root).names path) : name ≠ "" := by
  rcases List.mem_append.mp mem with isRoot | isSegment
  · exact ne_empty_of_mem_decodedSegments isRoot
  · exact (plain_of_mem_segments isSegment).1

/-- An address is the encoded names behind a slash, with one more slash or
without. -/
theorem href_toList (locator : Locator) (path : Path) (collection : Bool) :
    ∃ ending, (ending = [] ∨ ending = ['/']) ∧
      (locator.href path collection).toList = '/' :: (['/'].intercalate
        ((locator.names path).map fun name => Percent.encode segmentSet name.toList)) ++ ending := by
  unfold href names
  dsimp only
  rw [String.toList_ofList]
  split
  · exact ⟨['/'], .inr rfl, rfl⟩
  · exact ⟨[], .inl rfl, (List.append_nil _).symm⟩

theorem decodedSegments_href (origin root : String) (path : Path) (collection : Bool) :
    decodedSegments ((new origin root).href path collection).toList =
      (new origin root).names path := by
  obtain ⟨ending, endingEq, hrefEq⟩ := (new origin root).href_toList path collection
  have notEmpty : ∀ name ∈ (new origin root).names path, name ≠ "" :=
    fun name mem => ne_empty_of_mem_names mem
  have encoded := decodedSegments_encoded notEmpty
  rw [hrefEq, List.cons_append, decodedSegments_slash]
  rcases endingEq with rfl | rfl
  · rw [List.append_nil, encoded]
  · rw [decodedSegments_append_slash, encoded]

theorem mem_intercalate {character separator : Char} {pieces : List (List Char)}
    (mem : character ∈ [separator].intercalate pieces) :
    character = separator ∨ ∃ piece ∈ pieces, character ∈ piece := by
  induction pieces with
  | nil => simp at mem
  | cons piece pieces ih =>
    by_cases isLast : pieces = []
    · rw [isLast, List.intercalate_singleton] at mem
      exact .inr ⟨piece, List.mem_cons_self, mem⟩
    · rw [List.intercalate_cons_of_ne_nil isLast] at mem
      simp only [List.mem_append, List.mem_singleton] at mem
      rcases mem with (isHere | isSeparator) | isLater
      · exact .inr ⟨piece, List.mem_cons_self, isHere⟩
      · exact .inl isSeparator
      · rcases ih isLater with isSeparator | ⟨later, laterMem, inLater⟩
        · exact .inl isSeparator
        · exact .inr ⟨later, List.mem_cons_of_mem _ laterMem, inLater⟩

theorem not_mem_href (locator : Locator) (path : Path) (collection : Bool) {character : Char}
    (structural : character ∈ [ '?', '#', ':']) :
    character ∉ (locator.href path collection).toList := by
  obtain ⟨ending, endingEq, hrefEq⟩ := locator.href_toList path collection
  have notSlash : character ≠ '/' := by
    rintro rfl
    simp at structural
  intro mem
  have inside : character ∈ ['/'].intercalate
      ((locator.names path).map fun name => Percent.encode segmentSet name.toList) := by
    rw [hrefEq] at mem
    rcases endingEq with rfl | rfl <;> simpa [notSlash] using mem
  rcases mem_intercalate inside with isSlash | ⟨piece, pieceMem, inPiece⟩
  · exact notSlash isSlash
  · obtain ⟨name, -, rfl⟩ := List.mem_map.mp pieceMem
    exact not_mem_encode (List.mem_cons_of_mem _ structural) inPiece

theorem afterScheme_eq_none {text : List Char} (noColon : ':' ∉ text) : afterScheme text = none := by
  induction text with
  | nil => rfl
  | cons character text ih =>
    rw [List.mem_cons, not_or] at noColon
    rw [afterScheme.eq_2]
    · exact ih noColon.2
    · intro rest isColon
      exact absurd isColon.symm noColon.1

theorem takeWhile_href (locator : Locator) (path : Path) (collection : Bool) :
    (locator.href path collection).toList.takeWhile
        (fun character => character ≠ '?' ∧ character ≠ '#') =
      (locator.href path collection).toList := by
  rw [List.takeWhile_eq_self_iff]
  intro character mem
  have noQuery : '?' ∉ (locator.href path collection).toList :=
    locator.not_mem_href path collection (by simp)
  have noFragment : '#' ∉ (locator.href path collection).toList :=
    locator.not_mem_href path collection (by simp)
  simp only [decide_eq_true_eq]
  exact ⟨fun same => noQuery (same ▸ mem), fun same => noFragment (same ▸ mem)⟩

theorem pathText_href (locator : Locator) (path : Path) (collection : Bool) :
    pathText (locator.href path collection) = (locator.href path collection).toList := by
  unfold pathText
  rw [afterScheme_eq_none (locator.not_mem_href path collection (by simp))]
  exact locator.takeWhile_href path collection

theorem pathOfHref_of_pathText {origin root : String} {path : Path} {collection : Bool}
    {href : String}
    (textEq : pathText href = ((new origin root).href path collection).toList) :
    (new origin root).pathOfHref href = some (normalize path) := by
  unfold pathOfHref
  rw [textEq, decodedSegments_href]
  simp [names, normalize]

end Locator

/-! ### Origins -/

/-- The origin of a server: a scheme and an authority, which has no slash. -/
structure Origin where
  scheme : String
  authority : String
  noColon : ':' ∉ scheme.toList
  noSlash : '/' ∉ authority.toList

def Origin.text (origin : Origin) : String := origin.scheme ++ "://" ++ origin.authority

theorem afterScheme_append {scheme : List Char} (noColon : ':' ∉ scheme) (rest : List Char) :
    afterScheme (scheme ++ ':' :: '/' :: '/' :: rest) = some rest := by
  induction scheme with
  | nil => simp [afterScheme]
  | cons character scheme ih =>
    rw [List.mem_cons, not_or] at noColon
    rw [List.cons_append, afterScheme.eq_2]
    · exact ih noColon.2
    · intro rest isColon
      exact absurd isColon.symm noColon.1

theorem dropWhile_authority {authority : List Char} (noSlash : '/' ∉ authority) (rest : List Char) :
    (authority ++ '/' :: rest).dropWhile (fun character => character ≠ '/') = '/' :: rest := by
  rw [List.dropWhile_append_of_pos]
  · simp
  · intro character mem
    simp only [decide_eq_true_eq]
    rintro rfl
    exact noSlash mem

theorem Locator.pathText_url (origin : Origin) (root : String) (path : Path) (collection : Bool) :
    pathText ((Locator.new origin.text root).url ((new origin.text root).href path collection)) =
      ((new origin.text root).href path collection).toList := by
  obtain ⟨ending, -, hrefEq⟩ := (new origin.text root).href_toList path collection
  have urlEq : ((new origin.text root).url ((new origin.text root).href path collection)).toList =
      origin.scheme.toList ++ ':' :: '/' :: '/' ::
        (origin.authority.toList ++ ((new origin.text root).href path collection).toList) := by
    simp [url, new, Origin.text]
  unfold pathText
  rw [urlEq, afterScheme_append origin.noColon]
  have dropped : (origin.authority.toList ++
      ((new origin.text root).href path collection).toList).dropWhile
        (fun character => character ≠ '/') =
      ((new origin.text root).href path collection).toList := by
    rw [hrefEq, List.cons_append]
    exact dropWhile_authority origin.noSlash _
  simp only [dropped]
  rw [if_neg (by simp [hrefEq])]
  exact takeWhile_href _ path collection

/-- What the address of a server is made of. -/
structure WebDavSettings where
  host : String
  port : UInt16
  secure : Bool
  deriving DecidableEq, Repr

namespace WebDavSettings

def scheme (settings : WebDavSettings) : String := if settings.secure then "https" else "http"

/-- The host as it stands in an address: an IPv6 address in brackets. -/
def bracketedHost (settings : WebDavSettings) : String :=
  if ':' ∈ settings.host.toList ∧ settings.host.toList.head? ≠ some '[' then
    "[" ++ settings.host ++ "]"
  else settings.host

def origin (settings : WebDavSettings) : String :=
  settings.scheme ++ "://" ++ settings.bracketedHost ++ ":" ++ settings.port.toNat.repr

theorem not_mem_toDigits (number : Nat) : '/' ∉ Nat.toDigits 10 number := by
  intro mem
  have isDigit : '/'.isDigit = true := Nat.isDigit_of_mem_toDigits (by decide) (by decide) mem
  revert isDigit
  decide

theorem exists_origin {settings : WebDavSettings} (noSlash : '/' ∉ settings.host.toList) :
    ∃ origin : Origin, origin.text = settings.origin := by
  have noColon : ':' ∉ settings.scheme.toList := by
    unfold scheme
    split <;> decide
  have hostNoSlash : '/' ∉ settings.bracketedHost.toList := by
    unfold bracketedHost
    split_ifs <;> simp [noSlash]
  refine ⟨⟨settings.scheme, settings.bracketedHost ++ ":" ++ settings.port.toNat.repr, noColon, ?_⟩,
    ?_⟩
  · simp [hostNoSlash, not_mem_toDigits]
  · simp [Origin.text, origin, String.append_assoc]

end WebDavSettings

/-- Two addresses differ in nothing but a slash at the end. -/
def SameAddress (first second : String) : Prop :=
  first = second ∨ first = second ++ "/" ∨ second = first ++ "/"

theorem SameAddress.decodedSegments_eq {first second : String} (same : SameAddress first second) :
    decodedSegments first.toList = decodedSegments second.toList := by
  rcases same with rfl | rfl | rfl
  · exact rfl
  · rw [String.toList_append]
    exact decodedSegments_append_slash second.toList
  · rw [String.toList_append]
    exact (decodedSegments_append_slash first.toList).symm

/-- What the connection addresses is read back as the path it was made from,
with the origin in front and without, and paths that share an address are the
same path. -/
theorem pathOfHref_href :
    (∀ (origin root : String) (path : Path) (collection : Bool),
      (Locator.new origin root).pathOfHref ((Locator.new origin root).href path collection) =
        some (normalize path)) ∧
    (∀ (origin : Origin) (root : String) (path : Path) (collection : Bool),
      (Locator.new origin.text root).pathOfHref
          ((Locator.new origin.text root).url
            ((Locator.new origin.text root).href path collection)) =
        some (normalize path)) ∧
    ∀ (origin root : String) (path other : Path) (collection otherCollection : Bool),
      SameAddress ((Locator.new origin root).href path collection)
        ((Locator.new origin root).href other otherCollection) →
      normalize path = normalize other := by
  refine ⟨?_, ?_, ?_⟩
  · intro origin root path collection
    exact Locator.pathOfHref_of_pathText (Locator.pathText_href _ path collection)
  · intro origin root path collection
    exact Locator.pathOfHref_of_pathText (Locator.pathText_url origin root path collection)
  · intro origin root path other collection otherCollection same
    have namesEq := same.decodedSegments_eq
    rw [Locator.decodedSegments_href, Locator.decodedSegments_href] at namesEq
    rw [normalize, normalize, List.append_cancel_left namesEq]

example : (Locator.new "https://cloud:443" "/dav/john%40example.com/").href ⟨"/a #1/../b"⟩ true =
    "/dav/john%40example.com/b/" := by
  decide

end WebDav

end Porthmos
