import Mathlib.Data.List.Infix
import Mathlib.Data.List.TakeWhile

/-!
# Reading XML

A text of XML 1.0 is cut into events: tags, character data, references and what
is skipped.  A reader builds a tree from the events, where character data counts
with its line ends normalised and references count as what they stand for.
Attributes are kept as part of their tag, and document types are not read.
-/

namespace Xml

/-- What a processor passes on for the line ends of a text. -/
def normalizeLineEnds : List Char → List Char
  | '\r' :: '\n' :: rest => '\n' :: normalizeLineEnds rest
  | '\r' :: rest => '\n' :: normalizeLineEnds rest
  | character :: rest => character :: normalizeLineEnds rest
  | [] => []

/-- The characters a document may hold. -/
def isChar (character : Char) : Bool :=
  character = '\t' ∨ character = '\n' ∨ character = '\r' ∨
    (0x20 ≤ character.toNat ∧ character.toNat ≠ 0xFFFE ∧ character.toNat ≠ 0xFFFF)

def isSpace (character : Char) : Bool :=
  character = ' ' ∨ character = '\t' ∨ character = '\n' ∨ character = '\r'

/-! ### Events -/

/-- One piece of a document.  A tag is what stands between its brackets, and an
empty-element tag stands without its slash. -/
inductive Event
  | start (tag : List Char)
  | empty (tag : List Char)
  | finish (name : List Char)
  | text (raw : List Char)
  | cdata (raw : List Char)
  | reference (name : List Char)
  | skipped
  deriving DecidableEq, Repr

/-- The name a tag begins with. -/
def tagName (tag : List Char) : List Char := tag.takeWhile fun character => !isSpace character

/-- What stands before and after the first occurrence of a text. -/
def splitOnce (separator : List Char) : List Char → Option (List Char × List Char)
  | [] => if separator = [] then some ([], []) else none
  | character :: rest =>
    if separator.isPrefixOf (character :: rest) then
      some ([], (character :: rest).drop separator.length)
    else (splitOnce separator rest).map fun (before, after) => (character :: before, after)

/-- What stands before and after the end of a tag; inside quotes a bracket does
not end it. -/
def splitTag : Option Char → List Char → Option (List Char × List Char)
  | _, [] => none
  | none, character :: rest =>
    if character = '>' then some ([], rest)
    else
      let quote := if character = '"' ∨ character = '\'' then some character else none
      (splitTag quote rest).map fun (tag, after) => (character :: tag, after)
  | some quote, character :: rest =>
    (splitTag (if character = quote then none else some quote) rest).map fun (tag, after) =>
      (character :: tag, after)

/-- The markup that begins with `<`, read behind it. -/
def markup (text : List Char) : Option (Event × List Char) :=
  if "!--".toList.isPrefixOf text then
    (splitOnce "-->".toList (text.drop 3)).map fun (_, after) => (.skipped, after)
  else if "![CDATA[".toList.isPrefixOf text then
    (splitOnce "]]>".toList (text.drop 8)).map fun (raw, after) => (.cdata raw, after)
  else if text.head? = some '?' then
    (splitOnce "?>".toList text).map fun (_, after) => (.skipped, after)
  else if text.head? = some '!' then none
  else if text.head? = some '/' then
    (splitOnce ['>'] text.tail).map fun (tag, after) => (.finish (tagName tag), after)
  else
    (splitTag none text).map fun (tag, after) =>
      if tag.getLast? = some '/' then (.empty tag.dropLast, after) else (.start tag, after)

/-- Character data goes on to the next tag or reference. -/
def isText (character : Char) : Bool := character ≠ '<' ∧ character ≠ '&'

/-- The first event of a text that is not empty. -/
def next : List Char → Option (Event × List Char)
  | [] => none
  | character :: rest =>
    if character = '<' then markup rest
    else if character = '&' then
      (splitOnce [';'] rest).map fun (name, after) => (.reference name, after)
    else
      some (.text ((character :: rest).takeWhile isText), (character :: rest).dropWhile isText)

/-- The names of the open elements after an event; an end tag names the element
it ends. -/
def nest (opened : List (List Char)) : Event → Option (List (List Char))
  | .start tag => some (tagName tag :: opened)
  | .finish name =>
    match opened with
    | top :: below => if name = top then some below else none
    | [] => none
  | _ => some opened

/-- The events of a text, read in at most `fuel` steps. -/
def scan : Nat → List (List Char) → List Char → Option (List Event)
  | _, _, [] => some []
  | 0, _, _ => none
  | fuel + 1, opened, text => do
      let (event, after) ← next text
      let opened ← nest opened event
      let events ← scan fuel opened after
      some (event :: events)

/-- The events of a document; none where it is not well formed. -/
def events (text : List Char) : Option (List Event) := scan text.length [] text

/-! ### References -/

/-- The entities every document has. -/
def predefined (name : String) : Option Char :=
  if name = "amp" then some '&'
  else if name = "lt" then some '<'
  else if name = "gt" then some '>'
  else if name = "quot" then some '"'
  else if name = "apos" then some '\''
  else none

def digitValue (base : Nat) (character : Char) : Option Nat :=
  let value :=
    if '0' ≤ character ∧ character ≤ '9' then character.toNat - 48
    else if 'a' ≤ character ∧ character ≤ 'f' then character.toNat - 87
    else if 'A' ≤ character ∧ character ≤ 'F' then character.toNat - 55
    else base
  if value < base then some value else none

/-- The number that digits stand for. -/
def number (base : Nat) (digits : List Char) : Option Nat :=
  if digits = [] then none
  else digits.foldlM (fun value digit => (digitValue base digit).map (base * value + ·)) 0

/-- The character with a number; zero and what is no scalar value have none. -/
def characterOf (value : Nat) : Option Char :=
  if value ≠ 0 ∧ value.isValidChar then some (Char.ofNat value) else none

/-- `resolve_char_ref`: nothing for a name that is no character reference, and an
error for a character reference that names no character. -/
def resolveCharRef (name : List Char) : Except Unit (Option Char) :=
  let resolved (value : Option Nat) : Except Unit (Option Char) :=
    match value.bind characterOf with
    | some character => .ok (some character)
    | none => .error ()
  match name with
  | '#' :: 'x' :: digits => resolved (number 16 digits)
  | '#' :: digits => resolved (number 10 digits)
  | _ => .ok none

/-! ### Trees -/

inductive Node
  | node (name : String) (text : List Char) (children : List Node)

namespace Node

def name : Node → String
  | node name _ _ => name

def text : Node → List Char
  | node _ text _ => text

def children : Node → List Node
  | node _ _ children => children

@[simp]
theorem name_node (elementName : String) (raw : List Char) (inside : List Node) :
    (node elementName raw inside).name = elementName :=
  rfl

@[simp]
theorem text_node (elementName : String) (raw : List Char) (inside : List Node) :
    (node elementName raw inside).text = raw :=
  rfl

@[simp]
theorem children_node (elementName : String) (raw : List Char) (inside : List Node) :
    (node elementName raw inside).children = inside :=
  rfl

end Node

/-- An element whose end tag has not come yet. -/
structure Open where
  name : String
  text : List Char := []
  children : List Node := []

def Open.close (element : Open) : Node := .node element.name element.text element.children

def addChild : List Open → Node → Option (List Open)
  | parent :: below, child =>
    some ({ parent with children := parent.children ++ [child] } :: below)
  | [], _ => none

/-- A reader: how it names the element of a tag, and what it takes character
data and references for. -/
structure Reader where
  nameOf : List Char → String
  content : Event → Option (List Char)

/-- One event, with the open elements from the innermost on. -/
def Reader.step (reader : Reader) (stack : List Open) : Event → Option (List Open)
  | .start tag => some ({ name := reader.nameOf (tagName tag) } :: stack)
  | .empty tag => addChild stack (.node (reader.nameOf (tagName tag)) [] [])
  | .finish _ =>
    match stack with
    | element :: below => addChild below element.close
    | [] => none
  | .skipped => some stack
  | event =>
    match stack with
    | element :: below =>
      (reader.content event).map fun more => { element with text := element.text ++ more } :: below
    | [] => none

/-- All events, with the document itself as the outermost element. -/
def Reader.build (reader : Reader) (events : List Event) : Option Open :=
  match events.foldlM reader.step [{ name := "" }] with
  | some [document] => some document
  | _ => none

/-- A conforming processor: character data holds no `]]>`, and references are
those of characters and of the entities every document has. -/
def conforming : Reader where
  nameOf tag := String.ofList tag
  content
    | .text raw => if (splitOnce "]]>".toList raw).isSome then none else some raw
    | .cdata raw => some raw
    | .reference name =>
      match resolveCharRef name with
      | .ok (some character) => if isChar character then some [character] else none
      | .ok none => (predefined (String.ofList name)).map fun character => [character]
      | .error _ => none
    | _ => some []

/-- The root element of a document, as a conforming processor reads it. -/
def read (text : List Char) : Option Node :=
  if text.all isChar then do
    let events ← events (normalizeLineEnds text)
    let document ← conforming.build events
    match document.children with
    | [root] => if document.text.all isSpace then some root else none
    | _ => none
  else none

/-! ### Line ends -/

@[simp]
theorem normalizeLineEnds_nil : normalizeLineEnds [] = [] :=
  rfl

theorem normalizeLineEnds_cons {character : Char} (notReturn : character ≠ '\r')
    (rest : List Char) :
    normalizeLineEnds (character :: rest) = character :: normalizeLineEnds rest := by
  rw [normalizeLineEnds.eq_3]
  · intro rest' isReturn
    exact absurd isReturn notReturn
  · exact notReturn

theorem normalizeLineEnds_of_not_mem {text : List Char} (noReturn : '\r' ∉ text) :
    normalizeLineEnds text = text := by
  induction text with
  | nil => exact rfl
  | cons character text ih =>
    rw [List.mem_cons, not_or] at noReturn
    rw [normalizeLineEnds_cons (Ne.symm noReturn.1), ih noReturn.2]

theorem not_mem_normalizeLineEnds (text : List Char) : '\r' ∉ normalizeLineEnds text := by
  induction text using normalizeLineEnds.induct with
  | case1 rest ih => simpa [normalizeLineEnds] using ih
  | case2 rest _ ih => simpa [normalizeLineEnds] using ih
  | case3 character rest _ notReturn ih =>
    rw [normalizeLineEnds_cons notReturn, List.mem_cons, not_or]
    exact ⟨Ne.symm notReturn, ih⟩
  | case4 => simp

theorem normalizeLineEnds_eq_self_iff {text : List Char} :
    normalizeLineEnds text = text ↔ '\r' ∉ text := by
  constructor
  · intro same
    rw [← same]
    exact not_mem_normalizeLineEnds text
  · exact normalizeLineEnds_of_not_mem

/-- Two texts are normalised apart where the second does not begin with a line
feed. -/
theorem normalizeLineEnds_append (first : List Char) {second : List Char}
    (noFeed : second.head? ≠ some '\n') :
    normalizeLineEnds (first ++ second) = normalizeLineEnds first ++ normalizeLineEnds second := by
  induction first using normalizeLineEnds.induct with
  | case1 rest ih => simp [normalizeLineEnds, ih]
  | case2 rest noFeedNext ih =>
    rw [normalizeLineEnds.eq_2 rest noFeedNext, List.cons_append, normalizeLineEnds.eq_2, ih,
      List.cons_append]
    intro after afterEq
    cases rest with
    | nil =>
      rw [List.nil_append] at afterEq
      simp [afterEq] at noFeed
    | cons character rest =>
      rw [List.cons_append] at afterEq
      injection afterEq with characterEq _
      exact noFeedNext rest (by rw [characterEq])
  | case3 character rest _ notReturn ih =>
    rw [List.cons_append, normalizeLineEnds_cons notReturn, normalizeLineEnds_cons notReturn, ih,
      List.cons_append]
  | case4 => simp

theorem normalizeLineEnds_append_of_not_mem {first : List Char} (noReturn : '\r' ∉ first)
    (second : List Char) :
    normalizeLineEnds (first ++ second) = first ++ normalizeLineEnds second := by
  induction first with
  | nil => simp
  | cons character first ih =>
    rw [List.mem_cons, not_or] at noReturn
    rw [List.cons_append, normalizeLineEnds_cons (Ne.symm noReturn.1), ih noReturn.2,
      List.cons_append]

/-! ### Cutting a text -/

/-- A text begins with these events. -/
inductive Scans : List (List Char) → List Char → List Event → Prop
  | nil (opened) : Scans opened [] []
  | cons {opened opened' text after event events} (first : next text = some (event, after))
      (shorter : after.length < text.length) (nested : nest opened event = some opened')
      (rest : Scans opened' after events) : Scans opened text (event :: events)

theorem Scans.scan_eq {opened : List (List Char)} {text : List Char} {events : List Event}
    (scans : Scans opened text events) {fuel : Nat} (enough : text.length ≤ fuel) :
    scan fuel opened text = some events := by
  induction scans generalizing fuel with
  | nil => cases fuel <;> exact rfl
  | @cons opened opened' text after event events first shorter nested rest ih =>
    obtain ⟨fuel, rfl⟩ : ∃ less, fuel = less + 1 := ⟨fuel - 1, by omega⟩
    have notEmpty : text ≠ [] := by
      rintro rfl
      simp at shorter
    rw [scan.eq_3 _ _ _ notEmpty, first]
    simp [nested, ih (by omega : after.length ≤ fuel)]

theorem Scans.events_eq {text : List Char} {list : List Event} (scans : Scans [] text list) :
    events text = some list :=
  scans.scan_eq le_rfl

theorem splitOnce_append {separator : Char} {before : List Char} (noSeparator : separator ∉ before)
    (after : List Char) :
    splitOnce [separator] (before ++ separator :: after) = some (before, after) := by
  induction before with
  | nil => simp [splitOnce]
  | cons character before ih =>
    rw [List.mem_cons, not_or] at noSeparator
    simp [splitOnce, noSeparator.1, ih noSeparator.2]

/-- The quote a tag is in behind its first characters, if no bracket has ended
it. -/
def quoteAfter : Option Char → List Char → Option (Option Char)
  | quote, [] => some quote
  | none, character :: rest =>
    if character = '>' then none
    else quoteAfter (if character = '"' ∨ character = '\'' then some character else none) rest
  | some quote, character :: rest =>
    quoteAfter (if character = quote then none else some quote) rest

theorem splitTag_append {quote : Option Char} {tag : List Char}
    (closed : quoteAfter quote tag = some none) (after : List Char) :
    splitTag quote (tag ++ '>' :: after) = some (tag, after) := by
  induction tag generalizing quote with
  | nil =>
    simp only [quoteAfter, Option.some.injEq] at closed
    simp [closed, splitTag]
  | cons character tag ih =>
    cases quote with
    | none =>
      simp only [quoteAfter] at closed
      split_ifs at closed with isEnd isQuote
      · simp [splitTag, isEnd, isQuote, ih closed]
      · simp [splitTag, isEnd, isQuote, ih closed]
    | some quote =>
      simp only [quoteAfter] at closed
      simp [splitTag, ih closed]

/-- What may stand between the brackets of a start tag. -/
def IsStartTag (tag : List Char) : Prop :=
  quoteAfter none tag = some none ∧ tag.getLast? ≠ some '/' ∧ tag ≠ [] ∧
    tag.head? ≠ some '!' ∧ tag.head? ≠ some '?' ∧ tag.head? ≠ some '/'

instance (tag : List Char) : Decidable (IsStartTag tag) := by
  unfold IsStartTag
  infer_instance

theorem Scans.startTag {opened : List (List Char)} {tag after : List Char} {events : List Event}
    (isTag : IsStartTag tag) (scans : Scans (tagName tag :: opened) after events) :
    Scans opened ('<' :: tag ++ '>' :: after) (.start tag :: events) := by
  obtain ⟨closed, notEmptyTag, notEmpty, notBang, notQuery, notSlash⟩ := isTag
  refine .cons ?_ ?_ rfl scans
  · have split := splitTag_append closed after
    cases tag with
    | nil => exact absurd rfl notEmpty
    | cons character tag =>
      simp only [List.head?_cons, ne_eq, Option.some.injEq] at notBang notQuery notSlash
      rw [List.cons_append] at split
      simp [next, markup, notBang, notQuery, notSlash, Ne.symm notBang, split, notEmptyTag]
  · simp
    omega

theorem Scans.endTag {opened : List (List Char)} {name after : List Char} {events : List Event}
    (noBracket : '>' ∉ name) (isName : tagName name = name) (scans : Scans opened after events) :
    Scans (name :: opened) ('<' :: '/' :: name ++ '>' :: after) (.finish name :: events) := by
  refine .cons ?_ ?_ (if_pos rfl) scans
  · simp [next, markup, splitOnce_append noBracket, isName]
  · simp
    omega

theorem Scans.reference {opened : List (List Char)} {name after : List Char} {events : List Event}
    (noSemicolon : ';' ∉ name) (scans : Scans opened after events) :
    Scans opened ('&' :: name ++ ';' :: after) (.reference name :: events) := by
  refine .cons ?_ ?_ rfl scans
  · simp [next, splitOnce_append noSemicolon]
  · simp
    omega

/-- Character data up to where a tag or a reference begins. -/
theorem Scans.text {opened : List (List Char)} {raw after : List Char} {events : List Event}
    (notEmpty : raw ≠ []) (isRaw : ∀ character ∈ raw, isText character = true)
    (ends : ∀ character, after.head? = some character → isText character = false)
    (scans : Scans opened after events) :
    Scans opened (raw ++ after) (.text raw :: events) := by
  have taken : (raw ++ after).takeWhile isText = raw := by
    rw [List.takeWhile_append_of_pos isRaw]
    cases after with
    | nil => simp
    | cons character after => simp [ends character rfl]
  have dropped : (raw ++ after).dropWhile isText = after := by
    rw [List.dropWhile_append_of_pos isRaw]
    cases after with
    | nil => exact rfl
    | cons character after => simp [ends character rfl]
  cases raw with
  | nil => exact absurd rfl notEmpty
  | cons character raw =>
    have isData : character ≠ '<' ∧ character ≠ '&' := by
      simpa [isText] using isRaw character List.mem_cons_self
    refine .cons ?_ ?_ rfl scans
    · rw [List.cons_append] at taken dropped ⊢
      simp only [next, isData.1, isData.2, if_false, taken, dropped]
    · simp only [List.length_append, List.length_cons]
      omega

/-! ### Elements -/

/-- An element, written with its start tag, what is inside and its end tag. -/
def element (tag name inner : List Char) : List Char :=
  '<' :: tag ++ '>' :: (inner ++ ('<' :: '/' :: name ++ ['>']))

/-- No character data goes on into this text. -/
def Breaks (text : List Char) : Prop :=
  ∀ character, text.head? = some character → isText character = false

theorem breaks_cons {character : Char} (ends : isText character = false) (text : List Char) :
    Breaks (character :: text) := by
  intro first firstEq
  simp only [List.head?_cons, Option.some.injEq] at firstEq
  rw [← firstEq, ends]

/-- A text is cut into these events wherever it stands, before a tag, a
reference or the end. -/
def Cuts (inner : List Char) (list : List Event) : Prop :=
  ∀ opened after events, Breaks after → Scans opened after events →
    Scans opened (inner ++ after) (list ++ events)

namespace Cuts

theorem nil : Cuts [] [] :=
  fun _ _ _ _ scans => scans

theorem append {first second : List Char} {firstList secondList : List Event}
    (firstCuts : Cuts first firstList) (secondCuts : Cuts second secondList)
    (breaks : ∀ after, Breaks after → Breaks (second ++ after)) :
    Cuts (first ++ second) (firstList ++ secondList) := by
  intro opened after events afterBreaks scans
  rw [List.append_assoc, List.append_assoc]
  exact firstCuts opened _ _ (breaks after afterBreaks) (secondCuts opened _ _ afterBreaks scans)

theorem text {raw : List Char} (notEmpty : raw ≠ [])
    (isRaw : ∀ character ∈ raw, isText character = true) : Cuts raw [.text raw] :=
  fun _ _ _ breaks scans => .text notEmpty isRaw breaks scans

theorem reference {name second : List Char} {list : List Event} (noSemicolon : ';' ∉ name)
    (cuts : Cuts second list) :
    Cuts ('&' :: name ++ [';'] ++ second) (.reference name :: list) := by
  intro opened after events breaks scans
  have cut := Scans.reference noSemicolon (cuts opened after events breaks scans)
  simpa using cut

theorem element {tag name inner : List Char} {list : List Event} (isTag : IsStartTag tag)
    (isName : tagName tag = name) (noBracket : '>' ∉ name) (cuts : Cuts inner list) :
    Cuts (element tag name inner) (.start tag :: list ++ [.finish name]) := by
  intro opened after events _ scans
  have nameSelf : tagName name = name := by
    rw [← isName, tagName, tagName, List.takeWhile_takeWhile]
    simp
  have ended := Scans.endTag noBracket nameSelf scans
  have insideCut := cuts (name :: opened) _ _ (breaks_cons (by decide) _) ended
  rw [← isName] at insideCut
  have started := Scans.startTag isTag insideCut
  simpa [Xml.element, isName] using started

theorem events_eq {inner : List Char} {list : List Event} (cuts : Cuts inner list) :
    events inner = some list := by
  have scans := cuts [] [] [] (by intro character isHead; simp at isHead) (.nil [])
  rw [List.append_nil, List.append_nil] at scans
  exact scans.events_eq

end Cuts

theorem breaks_element (tag name inner after : List Char) :
    Breaks (element tag name inner ++ after) :=
  breaks_cons (by decide) _

/-! ### Building -/

/-- These events add a text and some children to the element they stand in. -/
def Reader.Adds (reader : Reader) (list : List Event) (text : List Char) (children : List Node) :
    Prop :=
  ∀ element below, list.foldlM reader.step (element :: below) =
    some ({ element with text := element.text ++ text, children := element.children ++ children } ::
      below)

namespace Reader.Adds

variable {reader : Reader}

theorem nil : reader.Adds [] [] [] := by
  intro element below
  simp

theorem append {first second : List Event} {firstText secondText : List Char}
    {firstChildren secondChildren : List Node} (firstAdds : reader.Adds first firstText firstChildren)
    (secondAdds : reader.Adds second secondText secondChildren) :
    reader.Adds (first ++ second) (firstText ++ secondText) (firstChildren ++ secondChildren) := by
  intro element below
  rw [List.foldlM_append, firstAdds]
  simp only [Option.bind_eq_bind, Option.bind_some]
  rw [secondAdds]
  simp

theorem content {event : Event} {more : List Char} (contentEq : reader.content event = some more)
    (isContent : (∃ raw, event = .text raw) ∨ (∃ raw, event = .cdata raw) ∨
      ∃ name, event = .reference name) : reader.Adds [event] more [] := by
  intro element below
  rcases isContent with ⟨raw, rfl⟩ | ⟨raw, rfl⟩ | ⟨name, rfl⟩ <;> simp [step, contentEq]

theorem element {list : List Event} {text : List Char} {children : List Node}
    (adds : reader.Adds list text children) (tag name : List Char) :
    reader.Adds (.start tag :: list ++ [.finish name]) []
      [.node (reader.nameOf (tagName tag)) text children] := by
  intro outer below
  rw [List.cons_append, List.foldlM_cons]
  simp only [step, Option.bind_eq_bind, Option.bind_some]
  rw [List.foldlM_append, adds]
  simp [step, addChild, Open.close]

theorem build_eq {list : List Event} {text : List Char} {children : List Node}
    (adds : reader.Adds list text children) :
    reader.build list = some { name := "", text, children } := by
  have built := adds { name := "" } []
  simp only [List.nil_append] at built
  rw [build, built]

end Reader.Adds

/-- A reader takes a text, wherever it stands, for these character data and
children. -/
def Reader.Reads (reader : Reader) (inner text : List Char) (children : List Node) : Prop :=
  ∃ list, Cuts inner list ∧ reader.Adds list text children

namespace Reader.Reads

variable {reader : Reader}

theorem nil : reader.Reads [] [] [] :=
  ⟨[], Cuts.nil, Adds.nil⟩

theorem append {first second firstText secondText : List Char}
    {firstChildren secondChildren : List Node} (firstReads : reader.Reads first firstText firstChildren)
    (secondReads : reader.Reads second secondText secondChildren)
    (breaks : ∀ after, Breaks after → Breaks (second ++ after)) :
    reader.Reads (first ++ second) (firstText ++ secondText) (firstChildren ++ secondChildren) := by
  obtain ⟨firstList, firstCuts, firstAdds⟩ := firstReads
  obtain ⟨secondList, secondCuts, secondAdds⟩ := secondReads
  exact ⟨firstList ++ secondList, firstCuts.append secondCuts breaks, firstAdds.append secondAdds⟩

theorem element {tag name inner text : List Char} {children : List Node} (isTag : IsStartTag tag)
    (isName : tagName tag = name) (noBracket : '>' ∉ name)
    (reads : reader.Reads inner text children) :
    reader.Reads (Xml.element tag name inner) [] [.node (reader.nameOf name) text children] := by
  obtain ⟨list, cuts, adds⟩ := reads
  refine ⟨_, cuts.element isTag isName noBracket, ?_⟩
  rw [← isName]
  exact adds.element tag (tagName tag)

theorem flatMap {α : Type} {write : α → List Char} {child : α → Node} {items : List α}
    (reads : ∀ item ∈ items, reader.Reads (write item) [] [child item])
    (breaks : ∀ item after, Breaks (write item ++ after)) :
    reader.Reads (items.flatMap write) [] (items.map child) ∧
      ∀ after, Breaks after → Breaks (items.flatMap write ++ after) := by
  induction items with
  | nil => exact ⟨nil, fun _ afterBreaks => afterBreaks⟩
  | cons item items ih =>
    obtain ⟨restReads, restBreaks⟩ := ih fun other mem => reads other (List.mem_cons_of_mem _ mem)
    constructor
    · exact (reads item List.mem_cons_self).append restReads restBreaks
    · intro after _
      rw [List.flatMap_cons, List.append_assoc]
      exact breaks item _

end Reader.Reads

theorem read_eq {text : List Char} {root : Node} (allowed : text.all isChar = true)
    (reads : conforming.Reads (normalizeLineEnds text) [] [root]) : read text = some root := by
  obtain ⟨list, cuts, adds⟩ := reads
  rw [read, if_pos allowed, cuts.events_eq]
  simp only [Option.bind_eq_bind, Option.bind_some, adds.build_eq, List.all_nil, if_true]

theorem normalizeLineEnds_element {tag name : List Char} (tagPlain : '\r' ∉ tag)
    (namePlain : '\r' ∉ name) (inner : List Char) :
    normalizeLineEnds (element tag name inner) = element tag name (normalizeLineEnds inner) := by
  have opening : '\r' ∉ '<' :: tag ++ ['>'] := by simp [tagPlain]
  have closing : '\r' ∉ '<' :: '/' :: name ++ ['>'] := by simp [namePlain]
  have writtenAs (middle : List Char) :
      element tag name middle = '<' :: tag ++ ['>'] ++ (middle ++ ('<' :: '/' :: name ++ ['>'])) := by
    simp [element]
  rw [writtenAs, writtenAs, normalizeLineEnds_append_of_not_mem opening,
    normalizeLineEnds_append inner (by simp), normalizeLineEnds_of_not_mem closing]

theorem normalizeLineEnds_flatMap {α : Type} {write : α → List Char}
    (noFeed : ∀ item after, (write item ++ after).head? ≠ some '\n') (items : List α) :
    normalizeLineEnds (items.flatMap write) =
      items.flatMap fun item => normalizeLineEnds (write item) := by
  induction items with
  | nil => exact rfl
  | cons item items ih =>
    have restNoFeed : (items.flatMap write).head? ≠ some '\n' := by
      cases items with
      | nil => simp
      | cons next items => exact noFeed next _
    rw [List.flatMap_cons, normalizeLineEnds_append _ restNoFeed, ih, List.flatMap_cons]

theorem all_isChar_element (tag name inner : List Char) : (element tag name inner).all isChar =
      (tag.all isChar && (inner.all isChar && name.all isChar)) := by
  have bracketAllowed : isChar '<' = true ∧ isChar '>' = true ∧ isChar '/' = true := by decide
  simp [element, bracketAllowed]

end Xml
