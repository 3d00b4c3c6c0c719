import Porthmos.Xml

/-!
# Bodies of S3 requests

A batch deletion and the completion of an upload name keys and parts in an XML
body.  Their texts are escaped character by character, and a processor of XML
reads them back, except for the line ends, which it normalises.
-/

namespace Porthmos

namespace S3Body

open Xml

def xmlNamespace : List Char := "http://s3.amazonaws.com/doc/2006-03-01/".toList

/-- `str::replace` of one character. -/
def replaceChar (character : Char) (replacement text : List Char) : List Char :=
  text.flatMap fun other => if other = character then replacement else [other]

def escape (text : List Char) : List Char :=
  replaceChar '\'' "&apos;".toList <| replaceChar '"' "&quot;".toList <|
    replaceChar '>' "&gt;".toList <| replaceChar '<' "&lt;".toList <|
      replaceChar '&' "&amp;".toList text

def completeBody (parts : List (Nat × String)) : List Char :=
  "<CompleteMultipartUpload xmlns=\"".toList ++ xmlNamespace ++ "\">".toList ++
    parts.flatMap (fun part =>
      "<Part><PartNumber>".toList ++ part.1.repr.toList ++ "</PartNumber><ETag>".toList ++
        escape part.2.toList ++ "</ETag></Part>".toList) ++
    "</CompleteMultipartUpload>".toList

def deleteBody (keys : List String) : List Char :=
  "<Delete xmlns=\"".toList ++ xmlNamespace ++ "\"><Quiet>true</Quiet>".toList ++
    keys.flatMap (fun key =>
      "<Object><Key>".toList ++ escape key.toList ++ "</Key></Object>".toList) ++
    "</Delete>".toList

/-! ### The crate's own reader -/

def entity (name : String) : Option Char :=
  if name = "amp" then some '&'
  else if name = "lt" then some '<'
  else if name = "gt" then some '>'
  else if name = "quot" then some '"'
  else if name = "apos" then some '\''
  else none

/-- `local`: a name without its prefix. -/
def localName (name : List Char) : String :=
  String.ofList (name.reverse.takeWhile fun character => character ≠ ':').reverse

def crate : Reader where
  nameOf := localName
  content
    | .text raw => some (normalizeLineEnds raw)
    | .cdata raw => some (normalizeLineEnds raw)
    | .reference name =>
      match resolveCharRef name with
      | .ok (some character) => some [character]
      | .ok none => some (entity (String.ofList name)).toList
      | .error _ => none
    | _ => some []

def parse (text : List Char) : Option Node := do
  let events ← events text
  let document ← crate.build events
  document.children.head?

/-! ### What a server reads -/

/-- The texts of the children with a name. -/
def textsOf (name : String) (node : Node) : List (List Char) :=
  (node.children.filter fun child => child.name = name).map Node.text

/-- The keys of the objects a batch deletion names. -/
def deletedKeys (body : Node) : Option (List String) :=
  if body.name = "Delete" then
    some <| (body.children.filter fun child => child.name = "Object").flatMap fun object =>
      (textsOf "Key" object).map String.ofList
  else none

def readNumber (digits : List Char) : Option Nat :=
  if digits ≠ [] ∧ digits.all Char.isDigit then some (Nat.ofDigitChars 10 digits 0) else none

/-- The numbers and tags of the parts an upload is completed from. -/
def completedParts (body : Node) : Option (List (Option Nat × String)) :=
  if body.name = "CompleteMultipartUpload" then
    some <| (body.children.filter fun child => child.name = "Part").flatMap fun part =>
      ((textsOf "PartNumber" part).zip (textsOf "ETag" part)).map fun texts =>
        (readNumber texts.1, String.ofList texts.2)
  else none

/-! ### Escaped texts -/

/-- The reference a character is escaped to. -/
def referenceOf (character : Char) : Option (List Char) :=
  if character = '&' then some "amp".toList
  else if character = '<' then some "lt".toList
  else if character = '>' then some "gt".toList
  else if character = '"' then some "quot".toList
  else if character = '\'' then some "apos".toList
  else none

def escapeChar (character : Char) : List Char :=
  match referenceOf character with
  | some name => '&' :: name ++ [';']
  | none => [character]

theorem replaceChar_append (character : Char) (replacement first second : List Char) :
    replaceChar character replacement (first ++ second) =
      replaceChar character replacement first ++ replaceChar character replacement second :=
  List.flatMap_append

theorem replaceChar_of_ne {character other : Char} (differ : other ≠ character)
    (replacement : List Char) : replaceChar character replacement [other] = [other] := by
  rw [replaceChar, List.flatMap_cons, if_neg differ]
  exact rfl

theorem escape_append (first second : List Char) :
    escape (first ++ second) = escape first ++ escape second := by
  unfold escape
  rw [replaceChar_append, replaceChar_append, replaceChar_append, replaceChar_append,
    replaceChar_append]

theorem escape_singleton (character : Char) : escape [character] = escapeChar character := by
  unfold escapeChar referenceOf
  split_ifs with isAmp isLt isGt isQuot isApos
  · subst isAmp
    decide
  · subst isLt
    decide
  · subst isGt
    decide
  · subst isQuot
    decide
  · subst isApos
    decide
  · unfold escape
    rw [replaceChar_of_ne isAmp, replaceChar_of_ne isLt, replaceChar_of_ne isGt,
      replaceChar_of_ne isQuot, replaceChar_of_ne isApos]

theorem escape_cons (character : Char) (text : List Char) :
    escape (character :: text) = escapeChar character ++ escape text := by
  rw [← escape_singleton, ← escape_append, List.singleton_append]

theorem escape_of_plain {text : List Char}
    (plain : ∀ character ∈ text, referenceOf character = none) : escape text = text := by
  induction text with
  | nil => exact rfl
  | cons character text ih =>
    rw [escape_cons, escapeChar, plain character List.mem_cons_self,
      ih fun other mem => plain other (List.mem_cons_of_mem _ mem)]
    exact rfl

theorem referenceOf_spec {character : Char} {name : List Char}
    (isReference : referenceOf character = some name) :
    ';' ∉ name ∧ resolveCharRef name = .ok none ∧ predefined (String.ofList name) = some character ∧
      entity (String.ofList name) = some character ∧ character ≠ '\r' ∧ character ≠ '\n' ∧
      name.all isChar = true ∧ '\r' ∉ name := by
  unfold referenceOf at isReference
  split_ifs at isReference with isAmp isLt isGt isQuot isApos <;>
    simp only [Option.some.injEq] at isReference <;> subst isReference
  · subst isAmp
    decide
  · subst isLt
    decide
  · subst isGt
    decide
  · subst isQuot
    decide
  · subst isApos
    decide

theorem isText_of_plain {character : Char} (plain : referenceOf character = none) :
    isText character = true ∧ character ≠ '>' := by
  unfold referenceOf at plain
  split_ifs at plain with isAmp isLt isGt isQuot isApos
  simp [isText, isAmp, isLt, isGt]

theorem not_mem_escapeChar {character : Char} (notReturn : character ≠ '\r') :
    '\r' ∉ escapeChar character := by
  unfold escapeChar
  cases isReference : referenceOf character with
  | none => simpa using Ne.symm notReturn
  | some name =>
    obtain ⟨-, -, -, -, -, -, -, noReturn⟩ := referenceOf_spec isReference
    simp [noReturn]

theorem head?_escape_ne {text after : List Char} (noFeed : text.head? ≠ some '\n')
    (afterNoFeed : after.head? ≠ some '\n') : (escape text ++ after).head? ≠ some '\n' := by
  cases text with
  | nil => exact afterNoFeed
  | cons character text =>
    have notFeed : character ≠ '\n' := by simpa using noFeed
    rw [escape_cons]
    unfold escapeChar
    cases referenceOf character with
    | none => simpa using notFeed
    | some name => simp

/-- An escaped text is normalised like the text itself. -/
theorem normalizeLineEnds_escape (text : List Char) {after : List Char}
    (noFeed : after.head? ≠ some '\n') :
    normalizeLineEnds (escape text ++ after) =
      escape (normalizeLineEnds text) ++ normalizeLineEnds after := by
  have returnEq : escapeChar '\r' = ['\r'] := by decide
  have feedEq : escapeChar '\n' = ['\n'] := by decide
  induction text using normalizeLineEnds.induct with
  | case1 rest ih =>
    rw [escape_cons, escape_cons, returnEq, feedEq, normalizeLineEnds, escape_cons, feedEq]
    simp [normalizeLineEnds, ih]
  | case2 rest noFeedNext ih =>
    have restNoFeed : rest.head? ≠ some '\n' := by
      intro isFeed
      obtain ⟨tail, restEq⟩ := List.head?_eq_some_iff.mp isFeed
      exact noFeedNext tail restEq
    have noFeedAfter := head?_escape_ne restNoFeed noFeed
    rw [escape_cons, returnEq, normalizeLineEnds.eq_2 rest noFeedNext, escape_cons, feedEq,
      List.singleton_append, List.cons_append, normalizeLineEnds.eq_2, ih]
    · simp
    · intro tail tailEq
      rw [tailEq] at noFeedAfter
      simp at noFeedAfter
  | case3 character rest _ notReturn ih =>
    rw [escape_cons, normalizeLineEnds_cons notReturn, escape_cons, List.append_assoc,
      normalizeLineEnds_append_of_not_mem (not_mem_escapeChar notReturn), ih, List.append_assoc]
  | case4 => exact rfl

def isPlain (character : Char) : Bool := (referenceOf character).isNone

theorem adds_text {raw : List Char} (noBracket : '>' ∉ raw) :
    conforming.Adds [.text raw] raw [] ∧ crate.Adds [.text raw] (normalizeLineEnds raw) [] := by
  have notSplit : ∀ text : List Char, '>' ∉ text → splitOnce "]]>".toList text = none := by
    intro text absent
    induction text with
    | nil => exact rfl
    | cons character text ih =>
      rw [List.mem_cons, not_or] at absent
      have notHere : "]]>".toList.isPrefixOf (character :: text) = false := by
        by_contra isHere
        rw [Bool.not_eq_false, List.isPrefixOf_iff_prefix] at isHere
        have bracketMem : '>' ∈ character :: text := isHere.subset (by decide)
        exact (List.mem_cons.mp bracketMem).elim absent.1 absent.2
      rw [splitOnce, notHere, ih absent.2]
      exact rfl
  constructor
  · apply Reader.Adds.content
    · simp only [conforming, notSplit raw noBracket]
      exact rfl
    · exact .inl ⟨raw, rfl⟩
  · apply Reader.Adds.content
    · exact rfl
    · exact .inl ⟨raw, rfl⟩

theorem adds_reference {character : Char} {name : List Char}
    (isReference : referenceOf character = some name) :
    conforming.Adds [.reference name] [character] [] ∧
      crate.Adds [.reference name] [character] [] := by
  obtain ⟨-, notNumbered, predefinedEq, entityEq, -, -, -, -⟩ := referenceOf_spec isReference
  constructor
  · apply Reader.Adds.content
    · simp only [conforming, notNumbered, predefinedEq]
      exact rfl
    · exact .inr (.inr ⟨name, rfl⟩)
  · apply Reader.Adds.content
    · simp only [crate, notNumbered, entityEq]
      exact rfl
    · exact .inr (.inr ⟨name, rfl⟩)

/-- An escaped text is cut into events that both readers take for the text, the
crate's own with its line ends normalised. -/
theorem exists_cuts_escape (text : List Char) :
    ∃ list, Cuts (escape text) list ∧ conforming.Adds list text [] ∧
      crate.Adds list (normalizeLineEnds text) [] := by
  induction lengthEq : text.length using Nat.strong_induction_on generalizing text with
  | _ length ih =>
  cases text with
  | nil => exact ⟨[], Cuts.nil, Reader.Adds.nil, Reader.Adds.nil⟩
  | cons character rest =>
  cases isReference : referenceOf character with
  | some name =>
    -- an escaped character is a reference of its own
    obtain ⟨list, cuts, adds, crateAdds⟩ := ih rest.length (by simp at lengthEq; omega) rest rfl
    obtain ⟨noSemicolon, -, -, -, notReturn, -, -, -⟩ := referenceOf_spec isReference
    obtain ⟨referenceAdds, crateReferenceAdds⟩ := adds_reference isReference
    refine ⟨.reference name :: list, ?_, ?_, ?_⟩
    · rw [escape_cons, escapeChar, isReference]
      exact cuts.reference noSemicolon
    · exact referenceAdds.append adds
    · rw [normalizeLineEnds_cons notReturn]
      exact crateReferenceAdds.append crateAdds
  | none =>
    -- characters that are not escaped make one piece of character data
    have splitEq : (character :: rest).takeWhile isPlain ++ (character :: rest).dropWhile isPlain =
        character :: rest := List.takeWhile_append_dropWhile
    have plainFirst : isPlain character = true := by simp [isPlain, isReference]
    have tailStops : ∀ other, ((character :: rest).dropWhile isPlain).head? = some other →
        isPlain other = false := by
      intro other isHead
      have stops := List.head?_dropWhile_not isPlain (character :: rest)
      rw [isHead] at stops
      simpa using stops
    have runPlain : ∀ other ∈ (character :: rest).takeWhile isPlain, referenceOf other = none := by
      intro other mem
      have isNone := List.mem_takeWhile_imp mem
      simpa [isPlain] using isNone
    have runNotEmpty : (character :: rest).takeWhile isPlain ≠ [] := by simp [plainFirst]
    generalize (character :: rest).takeWhile isPlain = run at splitEq runPlain runNotEmpty
    generalize (character :: rest).dropWhile isPlain = tail at splitEq tailStops
    have shorter : tail.length < length := by
      have lengths := congrArg List.length splitEq
      have positive := List.length_pos_of_ne_nil runNotEmpty
      rw [List.length_append, lengthEq] at lengths
      omega
    obtain ⟨list, cuts, adds, crateAdds⟩ := ih tail.length shorter tail rfl
    have noBracket : '>' ∉ run := fun mem => (isText_of_plain (runPlain '>' mem)).2 rfl
    obtain ⟨textAdds, crateTextAdds⟩ := adds_text noBracket
    rw [← splitEq]
    refine ⟨.text run :: list, ?_, ?_, ?_⟩
    · rw [escape_append, escape_of_plain runPlain]
      have runCuts := Cuts.text runNotEmpty fun other mem =>
        (isText_of_plain (runPlain other mem)).1
      refine runCuts.append cuts ?_
      intro after afterBreaks
      cases tail with
      | nil => exact afterBreaks
      | cons other tail =>
        have stops := tailStops other rfl
        rw [escape_cons]
        cases otherReference : referenceOf other with
        | none => simp [isPlain, otherReference] at stops
        | some name =>
          simp only [escapeChar, otherReference, List.cons_append]
          exact breaks_cons (by decide) _
    · exact textAdds.append adds
    · rw [normalizeLineEnds_append]
      · exact crateTextAdds.append crateAdds
      · intro isFeed
        have stops := tailStops '\n' isFeed
        revert stops
        decide

/-! ### Bodies as elements -/

def deleteTag : List Char := "Delete xmlns=\"".toList ++ xmlNamespace ++ ['"']

def objectElement (key : List Char) : List Char :=
  element "Object".toList "Object".toList (element "Key".toList "Key".toList (escape key))

def deleteElement (keys : List (List Char)) : List Char :=
  element deleteTag "Delete".toList
    (element "Quiet".toList "Quiet".toList "true".toList ++ keys.flatMap objectElement)

theorem append_eq_element {opening closing tag name front objects : List Char}
    (openingEq : opening = '<' :: tag ++ '>' :: front)
    (closingEq : closing = '<' :: '/' :: name ++ ['>']) :
    opening ++ objects ++ closing = element tag name (front ++ objects) := by
  subst openingEq closingEq
  simp [element]

theorem append_eq_nested {opening closing outer inner text : List Char}
    (openingEq : opening = '<' :: outer ++ '>' :: ('<' :: inner ++ ['>']))
    (closingEq : closing = '<' :: '/' :: inner ++ '>' :: ('<' :: '/' :: outer ++ ['>'])) :
    opening ++ text ++ closing = element outer outer (element inner inner text) := by
  subst openingEq closingEq
  simp [element]

theorem deleteBody_eq (keys : List String) :
    deleteBody keys = deleteElement (keys.map String.toList) := by
  have objectEq (key : String) : "<Object><Key>".toList ++ escape key.toList ++
      "</Key></Object>".toList = objectElement key.toList :=
    append_eq_nested (by decide) (by decide)
  unfold deleteBody deleteElement
  simp only [objectEq, List.flatMap_map]
  exact append_eq_element (by decide) (by decide)

def completeTag : List Char := "CompleteMultipartUpload xmlns=\"".toList ++ xmlNamespace ++ ['"']

def partElement (part : List Char × List Char) : List Char :=
  element "Part".toList "Part".toList
    (element "PartNumber".toList "PartNumber".toList part.1 ++
      element "ETag".toList "ETag".toList (escape part.2))

def completeElement (parts : List (List Char × List Char)) : List Char :=
  element completeTag "CompleteMultipartUpload".toList (parts.flatMap partElement)

theorem append_eq_part {opening between closing outer first second digits text : List Char}
    (openingEq : opening = '<' :: outer ++ '>' :: ('<' :: first ++ ['>']))
    (betweenEq : between = '<' :: '/' :: first ++ '>' :: ('<' :: second ++ ['>']))
    (closingEq : closing = '<' :: '/' :: second ++ '>' :: ('<' :: '/' :: outer ++ ['>'])) :
    opening ++ digits ++ between ++ text ++ closing =
      element outer outer (element first first digits ++ element second second text) := by
  subst openingEq betweenEq closingEq
  simp [element]

theorem completeBody_eq (parts : List (Nat × String)) : completeBody parts =
      completeElement (parts.map fun part => (part.1.repr.toList, part.2.toList)) := by
  have partEq (number : Nat) (etag : String) : "<Part><PartNumber>".toList ++ number.repr.toList ++
      "</PartNumber><ETag>".toList ++ escape etag.toList ++ "</ETag></Part>".toList =
        partElement (number.repr.toList, etag.toList) :=
    append_eq_part (by decide) (by decide) (by decide)
  unfold completeBody completeElement
  simp only [partEq, List.flatMap_map]
  have opening : "<CompleteMultipartUpload xmlns=\"".toList ++ xmlNamespace ++ "\">".toList =
      '<' :: completeTag ++ '>' :: [] := by decide
  exact append_eq_element opening (by decide)

/-! ### Bodies as trees -/

def objectNode (key : List Char) : Node := .node "Object" [] [.node "Key" key []]

def deleteNode (keys : List (List Char)) : Node :=
  .node "Delete" [] (.node "Quiet" "true".toList [] :: keys.map objectNode)

def partNode (part : List Char × List Char) : Node :=
  .node "Part" [] [.node "PartNumber" part.1 [], .node "ETag" part.2 []]

def completeNode (parts : List (List Char × List Char)) : Node :=
  .node "CompleteMultipartUpload" [] (parts.map partNode)

section Reading

variable {reader : Reader} {meaning : List Char → List Char}

/-- A reader that takes an escaped text for a text and keeps names without a
prefix. -/
structure ReadsEscaped (reader : Reader) (meaning : List Char → List Char) : Prop where
  named : ∀ name, ':' ∉ name.toList → reader.nameOf name.toList = name
  escaped : ∀ text, reader.Reads (escape text) (meaning text) []
  kept : ∀ text, '\r' ∉ text → meaning text = text

theorem ReadsEscaped.plain (reads : ReadsEscaped reader meaning) {text : List Char}
    (noReturn : '\r' ∉ text) (plain : text.all isPlain = true) : reader.Reads text text [] := by
  have unescaped : ∀ character ∈ text, referenceOf character = none := by
    simpa [isPlain] using plain
  have escaped := reads.escaped text
  rwa [escape_of_plain unescaped, reads.kept text noReturn] at escaped

theorem ReadsEscaped.element (reads : ReadsEscaped reader meaning) {name : String}
    {inner text : List Char} {children : List Node} (isTag : IsStartTag name.toList)
    (isName : tagName name.toList = name.toList) (noColon : ':' ∉ name.toList)
    (noBracket : '>' ∉ name.toList) (insideReads : reader.Reads inner text children) :
    reader.Reads (Xml.element name.toList name.toList inner) [] [.node name text children] := by
  have elementReads := insideReads.element isTag isName noBracket
  rwa [reads.named name noColon] at elementReads

theorem ReadsEscaped.object (reads : ReadsEscaped reader meaning) (key : List Char) :
    reader.Reads (objectElement key) [] [objectNode (meaning key)] := by
  have keyReads : reader.Reads (Xml.element "Key".toList "Key".toList (escape key)) []
      [.node "Key" (meaning key) []] :=
    reads.element (by decide) (by decide) (by decide) (by decide) (reads.escaped key)
  exact reads.element (by decide) (by decide) (by decide) (by decide) keyReads

theorem ReadsEscaped.delete (reads : ReadsEscaped reader meaning) (keys : List (List Char)) :
    reader.Reads (deleteElement keys) [] [deleteNode (keys.map meaning)] := by
  have quietReads : reader.Reads (Xml.element "Quiet".toList "Quiet".toList "true".toList) []
      [.node "Quiet" "true".toList []] :=
    reads.element (by decide) (by decide) (by decide) (by decide)
      (reads.plain (by decide) (by decide))
  have eachReads : ∀ key ∈ keys, reader.Reads (objectElement key) [] [(objectNode ∘ meaning) key] :=
    fun key _ => reads.object key
  obtain ⟨objectsRead, objectsBreak⟩ := Reader.Reads.flatMap eachReads fun key after =>
    breaks_element _ _ _ after
  have insideReads := quietReads.append objectsRead objectsBreak
  have isTag : IsStartTag deleteTag ∧ tagName deleteTag = "Delete".toList := by decide
  have rootReads := insideReads.element isTag.1 isTag.2 (by decide)
  rw [reads.named "Delete" (by decide)] at rootReads
  simpa [deleteNode, deleteElement] using rootReads

theorem referenceOf_digit {character : Char} (isDigit : character.isDigit = true) :
    referenceOf character = none ∧ character ≠ '\r' := by
  have differs {other : Char} (notDigit : other.isDigit = false) : character ≠ other := by
    rintro rfl
    rw [isDigit] at notDigit
    cases notDigit
  unfold referenceOf
  rw [if_neg (differs (by decide)), if_neg (differs (by decide)), if_neg (differs (by decide)),
    if_neg (differs (by decide)), if_neg (differs (by decide))]
  exact ⟨rfl, differs (by decide)⟩

theorem ReadsEscaped.part (reads : ReadsEscaped reader meaning) {digits : List Char}
    (isDigits : ∀ character ∈ digits, character.isDigit = true) (etag : List Char) :
    reader.Reads (partElement (digits, etag)) [] [partNode (digits, meaning etag)] := by
  have noReturn : '\r' ∉ digits := fun mem => (referenceOf_digit (isDigits '\r' mem)).2 rfl
  have plain : digits.all isPlain = true := by
    rw [List.all_eq_true]
    intro character mem
    simp [isPlain, (referenceOf_digit (isDigits character mem)).1]
  have numberReads : reader.Reads (Xml.element "PartNumber".toList "PartNumber".toList digits) []
      [.node "PartNumber" digits []] :=
    reads.element (by decide) (by decide) (by decide) (by decide) (reads.plain noReturn plain)
  have etagReads : reader.Reads (Xml.element "ETag".toList "ETag".toList (escape etag)) []
      [.node "ETag" (meaning etag) []] :=
    reads.element (by decide) (by decide) (by decide) (by decide) (reads.escaped etag)
  have insideReads := numberReads.append etagReads fun after _ => breaks_element _ _ _ after
  exact reads.element (by decide) (by decide) (by decide) (by decide) insideReads

theorem ReadsEscaped.complete (reads : ReadsEscaped reader meaning)
    {parts : List (List Char × List Char)}
    (areDigits : ∀ part ∈ parts, ∀ character ∈ part.1, character.isDigit = true) :
    reader.Reads (completeElement parts) []
      [completeNode (parts.map fun part => (part.1, meaning part.2))] := by
  have eachReads : ∀ part ∈ parts,
      reader.Reads (partElement part) [] [(fun part => partNode (part.1, meaning part.2)) part] :=
    fun part mem => reads.part (areDigits part mem) part.2
  obtain ⟨partsRead, -⟩ := Reader.Reads.flatMap eachReads fun part after =>
    breaks_element _ _ _ after
  have isTag : IsStartTag completeTag ∧
      tagName completeTag = "CompleteMultipartUpload".toList := by decide
  have rootReads := partsRead.element isTag.1 isTag.2 (by decide)
  rw [reads.named "CompleteMultipartUpload" (by decide)] at rootReads
  simpa [completeNode, completeElement, Function.comp_def] using rootReads

end Reading

theorem readsEscaped_conforming : ReadsEscaped conforming id where
  named _ _ := String.ofList_toList
  escaped text := by
    obtain ⟨list, cuts, adds, -⟩ := exists_cuts_escape text
    exact ⟨list, cuts, adds⟩
  kept _ _ := rfl

theorem readsEscaped_crate : ReadsEscaped crate normalizeLineEnds where
  named name noColon := by
    have taken : name.toList.reverse.takeWhile (fun character => character ≠ ':') =
        name.toList.reverse := by
      rw [List.takeWhile_eq_self_iff]
      intro character mem
      simp only [decide_eq_true_eq]
      rintro rfl
      exact noColon (List.mem_reverse.mp mem)
    change localName name.toList = name
    rw [localName, taken, List.reverse_reverse, String.ofList_toList]
  escaped text := by
    obtain ⟨list, cuts, -, adds⟩ := exists_cuts_escape text
    exact ⟨list, cuts, adds⟩
  kept _ noReturn := normalizeLineEnds_of_not_mem noReturn

theorem parse_eq {text : List Char} {root : Node} (reads : crate.Reads text [] [root]) :
    parse text = some root := by
  obtain ⟨list, cuts, adds⟩ := reads
  rw [parse, cuts.events_eq]
  simp [adds.build_eq]

/-! ### Line ends of the bodies -/

theorem normalizeLineEnds_escaped (text : List Char) :
    normalizeLineEnds (escape text) = escape (normalizeLineEnds text) := by
  have noFeed : ([] : List Char).head? ≠ some '\n' := by simp
  simpa using normalizeLineEnds_escape text noFeed

theorem normalizeLineEnds_delete (keys : List (List Char)) :
    normalizeLineEnds (deleteElement keys) = deleteElement (keys.map normalizeLineEnds) := by
  have quiet : '\r' ∉ Xml.element "Quiet".toList "Quiet".toList "true".toList := by decide
  have objects : normalizeLineEnds (keys.flatMap objectElement) =
      (keys.map normalizeLineEnds).flatMap objectElement := by
    rw [normalizeLineEnds_flatMap (fun key after => by simp [objectElement, Xml.element]),
      List.flatMap_map]
    congr 1
    funext key
    unfold objectElement
    rw [normalizeLineEnds_element (by decide) (by decide),
      normalizeLineEnds_element (by decide) (by decide), normalizeLineEnds_escaped]
  unfold deleteElement
  rw [normalizeLineEnds_element (by decide) (by decide),
    normalizeLineEnds_append_of_not_mem quiet, objects]

theorem normalizeLineEnds_complete {parts : List (List Char × List Char)}
    (areDigits : ∀ part ∈ parts, ∀ character ∈ part.1, character.isDigit = true) :
    normalizeLineEnds (completeElement parts) =
      completeElement (parts.map fun part => (part.1, normalizeLineEnds part.2)) := by
  have elements : normalizeLineEnds (parts.flatMap partElement) =
      (parts.map fun part => (part.1, normalizeLineEnds part.2)).flatMap partElement := by
    rw [normalizeLineEnds_flatMap (fun part after => by simp [partElement, Xml.element]),
      List.flatMap_map]
    apply List.flatMap_congr
    intro part mem
    have noReturn : '\r' ∉ part.1 := fun returnMem =>
      (referenceOf_digit (areDigits part mem '\r' returnMem)).2 rfl
    unfold partElement
    rw [normalizeLineEnds_element (by decide) (by decide), normalizeLineEnds_append,
      normalizeLineEnds_element (by decide) (by decide),
      normalizeLineEnds_element (by decide) (by decide), normalizeLineEnds_escaped,
      normalizeLineEnds_of_not_mem noReturn]
    simp [Xml.element]
  unfold completeElement
  rw [normalizeLineEnds_element (by decide) (by decide), elements]

/-! ### The characters of the bodies -/

theorem all_isChar_escape {text : List Char} (allowed : text.all isChar = true) :
    (escape text).all isChar = true := by
  induction text with
  | nil => exact rfl
  | cons character text ih =>
    rw [List.all_cons, Bool.and_eq_true] at allowed
    rw [escape_cons, List.all_append, ih allowed.2, Bool.and_true]
    unfold escapeChar
    cases isReference : referenceOf character with
    | none => simpa using allowed.1
    | some name =>
      obtain ⟨-, -, -, -, -, -, allName, -⟩ := referenceOf_spec isReference
      have around : isChar '&' = true ∧ isChar ';' = true := by decide
      simp only [List.cons_append, List.all_cons, List.all_append, List.all_nil, allName, around,
        Bool.and_true]

theorem all_isChar_delete {keys : List (List Char)}
    (allowed : ∀ key ∈ keys, key.all isChar = true) : (deleteElement keys).all isChar = true := by
  have tags : deleteTag.all isChar = true ∧ "Delete".toList.all isChar = true ∧
      (Xml.element "Quiet".toList "Quiet".toList "true".toList).all isChar = true ∧
      "Object".toList.all isChar = true ∧ "Key".toList.all isChar = true := by decide
  have objects : (keys.flatMap objectElement).all isChar = true := by
    rw [List.all_flatMap, List.all_eq_true]
    intro key mem
    simp only [objectElement, all_isChar_element, tags, all_isChar_escape (allowed key mem),
      Bool.and_true]
  simp only [deleteElement, all_isChar_element, List.all_append, tags, objects, Bool.and_true]

theorem all_isChar_complete {parts : List (List Char × List Char)}
    (allowed : ∀ part ∈ parts, part.1.all isChar = true ∧ part.2.all isChar = true) :
    (completeElement parts).all isChar = true := by
  have tags : completeTag.all isChar = true ∧
      "CompleteMultipartUpload".toList.all isChar = true ∧ "Part".toList.all isChar = true ∧
      "PartNumber".toList.all isChar = true ∧ "ETag".toList.all isChar = true := by decide
  have elements : (parts.flatMap partElement).all isChar = true := by
    rw [List.all_flatMap, List.all_eq_true]
    intro part mem
    obtain ⟨digitsAllowed, etagAllowed⟩ := allowed part mem
    simp only [partElement, all_isChar_element, List.all_append, tags, digitsAllowed,
      all_isChar_escape etagAllowed, Bool.and_true]
  simp only [completeElement, all_isChar_element, tags, elements, Bool.and_true]

/-! ### What the bodies name -/

/-- A conforming processor reads exactly these keys from a batch deletion, and
the crate's own reader agrees with it. -/
def NamesKeys (keys : List String) : Prop :=
  ∃ body, read (deleteBody keys) = some body ∧ parse (deleteBody keys) = some body ∧
    deletedKeys body = some keys

/-- The same for the parts an upload is completed from. -/
def NamesParts (parts : List (Nat × String)) : Prop :=
  ∃ body, read (completeBody parts) = some body ∧ parse (completeBody parts) = some body ∧
    completedParts body = some (parts.map fun part => (some part.1, part.2))

theorem deletedKeys_deleteNode (keys : List (List Char)) :
    deletedKeys (deleteNode keys) = some (keys.map String.ofList) := by
  have objects : ((keys.map objectNode).filter fun child => child.name = "Object") =
      keys.map objectNode := by
    rw [List.filter_eq_self]
    intro child mem
    obtain ⟨key, -, rfl⟩ := List.mem_map.mp mem
    simp [objectNode]
  have keyOf (key : List Char) : (textsOf "Key" (objectNode key)).map String.ofList =
      [String.ofList key] := by
    simp [textsOf, objectNode]
  unfold deletedKeys deleteNode
  rw [Node.name_node, if_pos rfl, Node.children_node, List.filter_cons_of_neg (by simp), objects,
    List.flatMap_map]
  simp only [keyOf]
  rw [List.map_eq_flatMap]

theorem completedParts_completeNode (parts : List (List Char × List Char)) :
    completedParts (completeNode parts) =
      some (parts.map fun part => (readNumber part.1, String.ofList part.2)) := by
  have elements : ((parts.map partNode).filter fun child => child.name = "Part") =
      parts.map partNode := by
    rw [List.filter_eq_self]
    intro child mem
    obtain ⟨part, -, rfl⟩ := List.mem_map.mp mem
    simp [partNode]
  have partOf (part : List Char × List Char) :
      ((textsOf "PartNumber" (partNode part)).zip (textsOf "ETag" (partNode part))).map
          (fun texts => (readNumber texts.1, String.ofList texts.2)) =
        [(readNumber part.1, String.ofList part.2)] := by
    simp [textsOf, partNode]
  unfold completedParts completeNode
  rw [Node.name_node, if_pos rfl, Node.children_node, elements, List.flatMap_map]
  simp only [partOf]
  rw [List.map_eq_flatMap]

theorem isDigit_of_mem_repr {value : Nat} {character : Char} (mem : character ∈ value.repr.toList) :
    character.isDigit = true := by
  rw [Nat.toList_repr] at mem
  exact Nat.isDigit_of_mem_toDigits (by decide) (by decide) mem

theorem readNumber_repr (value : Nat) : readNumber value.repr.toList = some value := by
  have isNumber : value.repr.toList ≠ [] ∧ value.repr.toList.all Char.isDigit = true := by
    constructor
    · rw [Nat.toList_repr]
      exact Nat.toDigits_ne_nil
    · exact List.all_eq_true.mpr fun character mem => isDigit_of_mem_repr mem
  rw [readNumber, if_pos isNumber, Nat.toList_repr, Nat.ofDigitChars_ten_toDigits]

/-- Both readers take the body of a deletion for the keys with their line ends
normalised. -/
theorem read_deleteBody {keys : List String}
    (allowed : ∀ key ∈ keys, key.toList.all isChar = true) :
    read (deleteBody keys) = some (deleteNode (keys.map fun key => normalizeLineEnds key.toList)) ∧
      parse (deleteBody keys) =
        some (deleteNode (keys.map fun key => normalizeLineEnds key.toList)) := by
  rw [deleteBody_eq]
  constructor
  · apply read_eq
    · apply all_isChar_delete
      intro key mem
      obtain ⟨text, textMem, rfl⟩ := List.mem_map.mp mem
      exact allowed text textMem
    · rw [normalizeLineEnds_delete]
      have reads := readsEscaped_conforming.delete ((keys.map String.toList).map normalizeLineEnds)
      simpa [Function.comp_def] using reads
  · have reads := readsEscaped_crate.delete (keys.map String.toList)
    rw [List.map_map] at reads
    exact parse_eq reads

theorem read_completeBody {parts : List (Nat × String)}
    (allowed : ∀ part ∈ parts, part.2.toList.all isChar = true) :
    read (completeBody parts) = some (completeNode (parts.map fun part =>
        (part.1.repr.toList, normalizeLineEnds part.2.toList))) ∧
      parse (completeBody parts) = some (completeNode (parts.map fun part =>
        (part.1.repr.toList, normalizeLineEnds part.2.toList))) := by
  have areDigits : ∀ part ∈ parts.map (fun part => (part.1.repr.toList, part.2.toList)),
      ∀ character ∈ part.1, character.isDigit = true := by
    intro part mem character characterMem
    obtain ⟨source, -, rfl⟩ := List.mem_map.mp mem
    exact isDigit_of_mem_repr characterMem
  rw [completeBody_eq]
  constructor
  · apply read_eq
    · apply all_isChar_complete
      intro part mem
      obtain ⟨source, sourceMem, rfl⟩ := List.mem_map.mp mem
      constructor
      · rw [List.all_eq_true]
        intro character characterMem
        have isDigit := isDigit_of_mem_repr characterMem
        have bounds : 48 ≤ character.toNat ∧ character.toNat ≤ 57 := by
          simp only [Char.isDigit, Bool.and_eq_true, decide_eq_true_eq] at isDigit
          exact ⟨UInt32.le_iff_toNat_le.mp isDigit.1, UInt32.le_iff_toNat_le.mp isDigit.2⟩
        simp only [isChar, decide_eq_true_eq]
        omega
      · exact allowed source sourceMem
    · rw [normalizeLineEnds_complete areDigits]
      have stillDigits : ∀ part ∈ (parts.map fun part =>
          (part.1.repr.toList, part.2.toList)).map fun part => (part.1, normalizeLineEnds part.2),
          ∀ character ∈ part.1, character.isDigit = true := by
        intro part mem
        obtain ⟨source, sourceMem, rfl⟩ := List.mem_map.mp mem
        exact areDigits source sourceMem
      have reads := readsEscaped_conforming.complete stillDigits
      simpa [Function.comp_def] using reads
  · have reads := readsEscaped_crate.complete areDigits
    rw [List.map_map] at reads
    exact parse_eq reads

theorem map_eq_self_iff {α : Type} {change : α → α} {list : List α} :
    list.map change = list ↔ ∀ element ∈ list, change element = element := by
  have asMaps : list.map change = list.map id ↔ ∀ element ∈ list, change element = id element :=
    List.map_inj_left
  rwa [List.map_id] at asMaps

theorem ofList_normalizeLineEnds_iff {text : String} :
    String.ofList (normalizeLineEnds text.toList) = text ↔ '\r' ∉ text.toList := by
  rw [← normalizeLineEnds_eq_self_iff, ← String.toList_inj, String.toList_ofList]

/-- The bodies name exactly the keys and the parts they are made of if and only
if none of the texts holds a carriage return. -/
theorem bodies_name_iff {keys : List String} {parts : List (Nat × String)}
    (keysAllowed : ∀ key ∈ keys, key.toList.all isChar = true)
    (partsAllowed : ∀ part ∈ parts, part.2.toList.all isChar = true) :
    (NamesKeys keys ↔ ∀ key ∈ keys, '\r' ∉ key.toList) ∧
      (NamesParts parts ↔ ∀ part ∈ parts, '\r' ∉ part.2.toList) := by
  constructor
  · obtain ⟨readEq, parseEq⟩ := read_deleteBody keysAllowed
    have namedKeys : NamesKeys keys ↔
        keys.map (fun key => String.ofList (normalizeLineEnds key.toList)) = keys := by
      unfold NamesKeys
      rw [readEq, parseEq]
      simp [deletedKeys_deleteNode, Function.comp_def]
    rw [namedKeys, map_eq_self_iff]
    simp only [ofList_normalizeLineEnds_iff]
  · obtain ⟨readEq, parseEq⟩ := read_completeBody partsAllowed
    have namedParts : NamesParts parts ↔
        parts.map (fun part => (some part.1, String.ofList (normalizeLineEnds part.2.toList))) =
          parts.map fun part => (some part.1, part.2) := by
      unfold NamesParts
      rw [readEq, parseEq]
      simp only [Option.some.injEq, exists_eq_left', true_and, completedParts_completeNode,
        List.map_map, Function.comp_def, readNumber_repr]
    rw [namedParts, List.map_inj_left]
    simp only [Prod.mk.injEq, true_and, ofList_normalizeLineEnds_iff]

theorem bodies_name_escaped : NamesKeys ["a&b", "\n<c>"] ∧ NamesParts [(7, "\"etag\"")] :=
  have named := bodies_name_iff (by decide : ∀ key ∈ ["a&b", "\n<c>"], key.toList.all isChar = true)
    (by decide : ∀ part ∈ [(7, "\"etag\"")], part.2.toList.all isChar = true)
  ⟨named.1.mpr (by decide), named.2.mpr (by decide)⟩

/-- A key with a carriage return: the body names the key with a line feed. -/
theorem carriage_return_is_lost : ¬ NamesKeys ["a\rb"] := by
  rintro ⟨body, readEq, -, keysEq⟩
  have allowed : ∀ key ∈ ["a\rb"], key.toList.all isChar = true := by decide
  rw [(read_deleteBody allowed).1, Option.some.injEq] at readEq
  rw [← readEq, deletedKeys_deleteNode] at keysEq
  revert keysEq
  decide

end S3Body

end Porthmos
