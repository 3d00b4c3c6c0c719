import Porthmos.FtpListing
import Porthmos.WebDavListing

/-!
# Reading a PROPFIND reply

A reply is read event by event, with the open elements on a stack and one resource and one
set of properties at hand.  What is read is told by the tree of the reply: extensions may
stand anywhere, and texts may come in pieces.
-/

namespace Porthmos

namespace WebDav

open TextFields ListLines StateFiles

/-! ### The loop over the events -/

/-- The names that are looked for. -/
inductive Tag
  | multistatus | response | propstat | prop | resourcetype | collection | href | status
  | getcontentlength | getlastmodified | other
  deriving DecidableEq, Repr

def Tag.of (inDav : Bool) (localName : String) : Tag :=
  if inDav then
    match localName with
    | "multistatus" => .multistatus
    | "response" => .response
    | "propstat" => .propstat
    | "prop" => .prop
    | "resourcetype" => .resourcetype
    | "collection" => .collection
    | "href" => .href
    | "status" => .status
    | "getcontentlength" => .getcontentlength
    | "getlastmodified" => .getlastmodified
    | _ => .other
  else .other

/-- An event of `NsReader`; `other` are comments, declarations and the like. -/
inductive Event
  | start (inDav : Bool) (localName : String)
  | empty (inDav : Bool) (localName : String)
  | text (content : List Char)
  | cData (content : List Char)
  | generalRef (reference : List Char)
  | end
  | other

structure Found where
  collection : Bool := false
  size : Option Nat := none
  modified : Option Nat := none
  status : Option Nat := none

/-- The variables of the loop, the innermost open element first. -/
structure Multistatus where
  resources : List Resource := []
  opened : List Tag := []
  text : List Char := []
  current : Resource := {}
  found : Found := {}

/-- What the libraries read: a character reference, and a date in seconds since 1970. -/
structure Readers where
  resolveCharRef : List Char → Except String (Option Char)
  parseHttpDate : List Char → Option Int

def invalid (message : String) : ProtocolError :=
  ⟨.other, "invalid PROPFIND response: " ++ message⟩

def statusCode (line : List Char) : Option Nat :=
  ((splitWhitespace line)[1]?).bind fun code =>
    (parseU64 code).filter fun value => value < 2 ^ 16

def sizeOf (text : List Char) : Option Nat := parseU64 (trimMatches isWhitespace text)

def entity (name : List Char) : Option Char :=
  match String.ofList name with
  | "amp" => some '&'
  | "lt" => some '<'
  | "gt" => some '>'
  | "quot" => some '"'
  | "apos" => some (Char.ofNat 39)
  | _ => none

/-- An element begins. -/
def Multistatus.start (state : Multistatus) (name : Tag) : Multistatus :=
  let found := if name = .propstat then {} else state.found
  { state with
    current := if name = .response then {} else state.current
    found := if name = .collection ∧ state.opened.head? = some .resourcetype then
        { found with collection := true } else found
    opened := name :: state.opened
    text := [] }

namespace Readers

variable (readers : Readers)

def modifiedSeconds (text : List Char) : Option Nat :=
  (readers.parseHttpDate (trimMatches isWhitespace text)).bind fun seconds =>
    if 0 ≤ seconds then some seconds.toNat else none

/-- The element `name` inside of `parent` has ended. -/
def ends (parent name : Tag) (state : Multistatus) : Multistatus :=
  match parent, name with
  | .response, .href =>
    { state with current := { state.current with
        href := String.ofList (trimMatches isWhitespace state.text) } }
  | .response, .status =>
    { state with current := { state.current with status := statusCode state.text } }
  | .propstat, .status =>
    { state with found := { state.found with status := statusCode state.text } }
  | .prop, .getcontentlength =>
    { state with found := { state.found with size := sizeOf state.text } }
  | .prop, .getlastmodified =>
    { state with found := { state.found with modified := readers.modifiedSeconds state.text } }
  | .response, .propstat =>
    if state.found.status = some 200 then
      { state with current := { state.current with
          collection := state.current.collection || state.found.collection
          size := state.current.size.or state.found.size
          modified := state.current.modified.or state.found.modified } }
    else state
  | .multistatus, .response =>
    { state with resources := state.resources ++ [state.current], current := {} }
  | _, _ => state

def step (state : Multistatus) : Event → Except ProtocolError Multistatus
  | .start inDav localName => .ok (state.start (Tag.of inDav localName))
  | .empty inDav localName =>
    .ok (if Tag.of inDav localName = .collection ∧ state.opened.head? = some .resourcetype then
      { state with found := { state.found with collection := true } } else state)
  | .text content | .cData content => .ok { state with text := state.text ++ content }
  | .generalRef reference =>
    match readers.resolveCharRef reference with
    | .error message => .error (invalid message)
    | .ok (some character) => .ok { state with text := state.text ++ [character] }
    | .ok none => .ok { state with text := state.text ++ (entity reference).toList }
  | .end =>
    let opened := state.opened.tail
    .ok { readers.ends (opened.headD .other) (state.opened.headD .other) state with
      opened := opened
      text := [] }
  | .other => .ok state

/-- `parse_multistatus`, where the reader delivers the events or fails at one of them. -/
def parseMultistatus (events : List (Except String Event)) :
    Except ProtocolError (List Resource) := do
  let state ← events.foldlM (fun state event =>
    match event with
    | .ok event => readers.step state event
    | .error message => .error (invalid message)) {}
  if state.opened = [] then .ok state.resources
  else .error (invalid "unexpected end of document")

end Readers

/-! ### Trees of replies -/

/-- The elements below which something is looked for. -/
def containers : List Tag := [ .multistatus, .response, .propstat, .prop, .resourcetype]

/-- What is looked for right below an element, other than a container. -/
def Tag.watched : Tag → List Tag
  | .response => [ .href, .status]
  | .propstat => [ .status]
  | .prop => [ .getcontentlength, .getlastmodified]
  | .resourcetype => [ .collection]
  | _ => []

section Trees

variable (readers : Readers)

/-- The text of an event that is no element. -/
def Readers.textOf : Event → Option (List Char)
  | .text content | .cData content => some content
  | .generalRef reference =>
    match readers.resolveCharRef reference with
    | .error _ => none
    | .ok (some character) => some [character]
    | .ok none => some (entity reference).toList
  | .other => some []
  | .start .. | .empty .. | .end => none

/-- Content below `parent` in which nothing is looked for. -/
inductive Foreign : Tag → List Event → Prop
  | nil (parent : Tag) : Foreign parent []
  | text {parent : Tag} {event : Event} {rest : List Event}
      (isText : (readers.textOf event).isSome) (others : Foreign parent rest) :
      Foreign parent (event :: rest)
  | empty {parent : Tag} {inDav : Bool} {localName : String} {rest : List Event}
      (unwatched : Tag.of inDav localName = .collection → parent ≠ .resourcetype)
      (others : Foreign parent rest) : Foreign parent (.empty inDav localName :: rest)
  | element {parent : Tag} {inDav : Bool} {localName : String} {inner rest : List Event}
      (unwatched : Tag.of inDav localName ∉ parent.watched)
      (noContainer : Tag.of inDav localName ∉ containers)
      (content : Foreign (Tag.of inDav localName) inner) (others : Foreign parent rest) :
      Foreign parent (.start inDav localName :: inner ++ .end :: rest)

structure Extension (parent : Tag) where
  events : List Event
  isForeign : Foreign readers parent events

/-- A text, in pieces. -/
structure PiecedText where
  events : List Event
  isText : ∀ event ∈ events, (readers.textOf event).isSome

def PiecedText.content (text : PiecedText readers) : List Char :=
  (text.events.filterMap readers.textOf).flatten

inductive TypeItem
  | collection (inner : Extension readers .collection)
  | emptyCollection
  | other (extension : Extension readers .resourcetype)

inductive PropItem
  | getcontentlength (text : PiecedText readers)
  | getlastmodified (text : PiecedText readers)
  | resourcetype (items : List (TypeItem readers))
  | other (extension : Extension readers .prop)

inductive PropstatItem
  | status (text : PiecedText readers)
  | prop (items : List (PropItem readers))
  | other (extension : Extension readers .propstat)

inductive ResponseItem
  | href (text : PiecedText readers)
  | status (text : PiecedText readers)
  | propstat (items : List (PropstatItem readers))
  | other (extension : Extension readers .response)

inductive ReplyItem
  | response (items : List (ResponseItem readers))
  | other (extension : Extension readers .multistatus)

/-- A reply, with what stands around its element. -/
structure Reply where
  before : Extension readers .other
  items : List (ReplyItem readers)
  after : Extension readers .other

end Trees

variable {readers : Readers}

def elementEvents (localName : String) (inner : List Event) : List Event :=
  .start true localName :: inner ++ [ .end]

def TypeItem.events : TypeItem readers → List Event
  | .collection inner => elementEvents "collection" inner.events
  | .emptyCollection => [ .empty true "collection"]
  | .other extension => extension.events

def PropItem.events : PropItem readers → List Event
  | .getcontentlength text => elementEvents "getcontentlength" text.events
  | .getlastmodified text => elementEvents "getlastmodified" text.events
  | .resourcetype items => elementEvents "resourcetype" (items.flatMap TypeItem.events)
  | .other extension => extension.events

def PropstatItem.events : PropstatItem readers → List Event
  | .status text => elementEvents "status" text.events
  | .prop items => elementEvents "prop" (items.flatMap PropItem.events)
  | .other extension => extension.events

def ResponseItem.events : ResponseItem readers → List Event
  | .href text => elementEvents "href" text.events
  | .status text => elementEvents "status" text.events
  | .propstat items => elementEvents "propstat" (items.flatMap PropstatItem.events)
  | .other extension => extension.events

def ReplyItem.events : ReplyItem readers → List Event
  | .response items => elementEvents "response" (items.flatMap ResponseItem.events)
  | .other extension => extension.events

def Reply.events (reply : Reply readers) : List Event :=
  reply.before.events ++ elementEvents "multistatus" (reply.items.flatMap ReplyItem.events) ++
    reply.after.events

/-! ### What a tree tells -/

/-- The last of the values that some items have. -/
def lastOf {α β : Type} (value : α → Option β) (items : List α) : Option β :=
  (items.filterMap value).getLast?

def TypeItem.isCollection : TypeItem readers → Bool
  | .collection _ | .emptyCollection => true
  | .other _ => false

def PropItem.collection : PropItem readers → Bool
  | .resourcetype items => items.any TypeItem.isCollection
  | _ => false

def PropItem.size : PropItem readers → Option (Option Nat)
  | .getcontentlength text => some (sizeOf text.content)
  | _ => none

def PropItem.modified : PropItem readers → Option (Option Nat)
  | .getlastmodified text => some (readers.modifiedSeconds text.content)
  | _ => none

/-- What some properties add: the last one of a name counts, even if it cannot be read. -/
def Found.adding (found : Found) (items : List (PropItem readers)) : Found :=
  { found with
    collection := found.collection || items.any PropItem.collection
    size := (lastOf PropItem.size items).getD found.size
    modified := (lastOf PropItem.modified items).getD found.modified }

def PropstatItem.props : PropstatItem readers → List (PropItem readers)
  | .prop items => items
  | _ => []

def PropstatItem.code : PropstatItem readers → Option (Option Nat)
  | .status text => some (statusCode text.content)
  | _ => none

/-- What a `propstat` tells, wherever its status stands. -/
def foundIn (items : List (PropstatItem readers)) : Found :=
  Found.adding { status := (lastOf PropstatItem.code items).getD none }
    (items.flatMap PropstatItem.props)

def ResponseItem.address : ResponseItem readers → Option String
  | .href text => some (String.ofList (trimMatches isWhitespace text.content))
  | _ => none

def ResponseItem.code : ResponseItem readers → Option (Option Nat)
  | .status text => some (statusCode text.content)
  | _ => none

/-- What an item of a response grants. -/
def ResponseItem.granted : ResponseItem readers → Option Found
  | .propstat items => (some (foundIn items)).filter fun found => found.status = some 200
  | _ => none

/-- The resource of a response: its address and its status, and of the granted properties the
first that can be read. -/
def resourceOf (items : List (ResponseItem readers)) : Resource :=
  let granted := items.filterMap ResponseItem.granted
  { href := (lastOf ResponseItem.address items).getD ""
    status := (lastOf ResponseItem.code items).getD none
    collection := granted.any Found.collection
    size := granted.findSome? Found.size
    modified := granted.findSome? Found.modified }

def ReplyItem.resource : ReplyItem readers → Option Resource
  | .response items => some (resourceOf items)
  | .other _ => none

theorem lastOf_append {α β : Type} (value : α → Option β) (first second : List α) :
    lastOf value (first ++ second) = (lastOf value second).or (lastOf value first) := by
  rw [lastOf, List.filterMap_append, List.getLast?_append]
  rfl

theorem Found.adding_append (found : Found) (first second : List (PropItem readers)) :
    found.adding (first ++ second) = (found.adding first).adding second := by
  have last {α : Type} (value : PropItem readers → Option α) (default : α) :
      (lastOf value (first ++ second)).getD default =
        (lastOf value second).getD ((lastOf value first).getD default) := by
    rw [lastOf_append]
    cases lastOf value second <;> rfl
  simp only [adding, last, List.any_append, Bool.or_assoc]

/-! ### Reading events -/

/-- The events are read, and something holds behind them. -/
def Readers.Reads (readers : Readers) (events : List Event) (state : Multistatus)
    (good : Multistatus → Prop) : Prop :=
  ∃ after, events.foldlM readers.step state = .ok after ∧ good after

theorem Readers.Reads.append {first second : List Event} {state : Multistatus}
    {good : Multistatus → Prop} (between : Multistatus → Prop)
    (reads : readers.Reads first state between)
    (later : ∀ after, between after → readers.Reads second after good) :
    readers.Reads (first ++ second) state good := by
  obtain ⟨after, isFirst, holds⟩ := reads
  obtain ⟨last, isSecond, isGood⟩ := later after holds
  refine ⟨last, ?_, isGood⟩
  rw [List.foldlM_append, isFirst]
  exact isSecond

theorem reads_flatMap {β : Type} {events : β → List Event} (holds : List β → Multistatus → Prop)
    (each : ∀ read item state, holds read state →
      readers.Reads (events item) state (holds (read ++ [item])))
    (items read : List β) {state : Multistatus} (start : holds read state) :
    readers.Reads (items.flatMap events) state (holds (read ++ items)) := by
  induction items generalizing read state with
  | nil => exact ⟨state, rfl, by rwa [List.append_nil]⟩
  | cons item items ih =>
    refine Readers.Reads.append _ (each read item state start) fun after isRead => ?_
    have others := ih (read ++ [item]) isRead
    rwa [List.append_assoc] at others

theorem step_textOf {event : Event} {content : List Char}
    (isText : readers.textOf event = some content) (state : Multistatus) :
    readers.step state event = .ok { state with text := state.text ++ content } := by
  unfold Readers.textOf at isText
  unfold Readers.step
  split at isText
  · cases isText
    rfl
  · cases isText
    rfl
  · dsimp only
    split at isText <;> simp_all
  · cases isText
    simp
  all_goals cases isText

theorem foldlM_content (text : PiecedText readers) (state : Multistatus) :
    text.events.foldlM readers.step state =
      .ok { state with text := state.text ++ text.content } := by
  obtain ⟨events, isText⟩ := text
  unfold PiecedText.content
  induction events generalizing state with
  | nil => simp [pure, Except.pure]
  | cons event events ih =>
    obtain ⟨content, isContent⟩ := Option.isSome_iff_exists.mp (isText event List.mem_cons_self)
    have others := ih { state with text := state.text ++ content }
      (fun next member => isText next (List.mem_cons_of_mem _ member))
    rw [List.foldlM_cons, step_textOf isContent]
    dsimp only at others ⊢
    rw [List.filterMap_cons_some isContent, List.flatten_cons, ← List.append_assoc]
    exact others

theorem reads_element {inDav : Bool} {localName : String} {inner : List Event} {state : Multistatus}
    {good : Multistatus → Prop}
    (content : readers.Reads inner (state.start (Tag.of inDav localName)) fun inside =>
      inside.opened = Tag.of inDav localName :: state.opened ∧
        good { readers.ends (state.opened.headD .other) (Tag.of inDav localName) inside with
          opened := state.opened
          text := [] }) :
    readers.Reads (.start inDav localName :: inner ++ [ .end]) state good := by
  obtain ⟨inside, isInside, isOpened, isGood⟩ := content
  refine ⟨_, ?_, isGood⟩
  rw [List.foldlM_append, List.foldlM_cons, Readers.step]
  change (inner.foldlM readers.step _ >>= _) = _
  rw [isInside]
  change (readers.step inside .end >>= pure) = _
  rw [Readers.step, isOpened]
  rfl

theorem reads_text {localName : String} (text : PiecedText readers) {state : Multistatus}
    {good : Multistatus → Prop}
    (isGood : good { readers.ends (state.opened.headD .other) (Tag.of true localName)
        { state.start (Tag.of true localName) with text := text.content } with
      opened := state.opened
      text := [] }) :
    readers.Reads (elementEvents localName text.events) state good :=
  reads_element ⟨_, foldlM_content text _, rfl, isGood⟩

theorem ends_unwatched {parent name : Tag} (unwatched : name ∉ parent.watched)
    (noContainer : name ∉ containers) (state : Multistatus) :
    readers.ends parent name state = state := by
  unfold Readers.ends
  split <;> simp_all [Tag.watched, containers]

theorem start_unwatched {name : Tag} {state : Multistatus}
    (unwatched : name ∉ (state.opened.headD .other).watched) (noContainer : name ∉ containers) :
    state.start name = { state with opened := name :: state.opened, text := [] } := by
  have noResponse : name ≠ .response := by
    rintro rfl
    exact noContainer (by decide)
  have noPropstat : name ≠ .propstat := by
    rintro rfl
    exact noContainer (by decide)
  have noType : ¬ (name = .collection ∧ state.opened.head? = some .resourcetype) := by
    rintro ⟨rfl, isHead⟩
    rw [List.headD_eq_head?_getD, isHead] at unwatched
    exact unwatched (by decide)
  rw [Multistatus.start, if_neg noResponse, if_neg noPropstat, if_neg noType]

/-- Content in which nothing is looked for changes nothing but the text. -/
theorem reads_foreign {parent : Tag} {events : List Event} (foreign : Foreign readers parent events)
    (state : Multistatus) (isParent : state.opened.headD .other = parent) :
    readers.Reads events state fun after => ∃ text, after = { state with text } := by
  induction foreign generalizing state with
  | nil => exact ⟨state, rfl, _, rfl⟩
  | @text parent event rest isText others ih =>
    obtain ⟨content, isContent⟩ := Option.isSome_iff_exists.mp isText
    obtain ⟨after, isRead, text, rfl⟩ := ih { state with text := state.text ++ content } isParent
    refine ⟨_, ?_, text, rfl⟩
    rw [List.foldlM_cons, step_textOf isContent]
    exact isRead
  | @empty parent inDav localName rest unwatched others ih =>
    obtain ⟨after, isRead, text, rfl⟩ := ih state isParent
    refine ⟨_, ?_, text, rfl⟩
    have noType : ¬ (Tag.of inDav localName = .collection ∧
        state.opened.head? = some .resourcetype) := by
      rintro ⟨isCollection, isHead⟩
      rw [List.headD_eq_head?_getD, isHead] at isParent
      exact unwatched isCollection isParent.symm
    rw [List.foldlM_cons, Readers.step, if_neg noType]
    exact isRead
  | @element parent inDav localName inner rest unwatched noContainer content others ih ihRest =>
    have whole : .start inDav localName :: inner ++ .end :: rest =
        (.start inDav localName :: inner ++ [ .end]) ++ rest := by simp
    rw [whole]
    refine Readers.Reads.append (fun after => ∃ text, after = { state with text }) ?_ ?_
    · apply reads_element
      rw [start_unwatched (isParent ▸ unwatched) noContainer]
      obtain ⟨after, isRead, text, rfl⟩ := ih
        { state with opened := Tag.of inDav localName :: state.opened, text := [] } rfl
      refine ⟨_, isRead, rfl, [], ?_⟩
      rw [isParent, ends_unwatched unwatched noContainer]
    · rintro _ ⟨text, rfl⟩
      exact ihRest { state with text } isParent

/-! ### Reading trees -/

theorem reads_types (base : Multistatus) {above : List Tag}
    (isOpened : base.opened = .resourcetype :: above) (items : List (TypeItem readers)) :
    readers.Reads (items.flatMap TypeItem.events) base fun after => ∃ text, after = { base with
        text
        found := { base.found with
          collection := base.found.collection || items.any TypeItem.isCollection } } := by
  refine reads_flatMap (fun read after => ∃ text, after = { base with
      text
      found := { base.found with
        collection := base.found.collection || read.any TypeItem.isCollection } })
    ?_ items [] ⟨base.text, by simp⟩
  rintro read item _ ⟨text, rfl⟩
  cases item with
  | collection inner =>
    obtain ⟨_, isRead, text, rfl⟩ := reads_foreign inner.isForeign
      (Multistatus.start _ .collection) rfl
    refine reads_element ⟨_, isRead, rfl, [], ?_⟩
    simp [isOpened, Multistatus.start, Readers.ends, TypeItem.isCollection, Tag.of]
  | emptyCollection =>
    refine ⟨_, rfl, text, ?_⟩
    simp [isOpened, TypeItem.isCollection, Tag.of]
  | other extension =>
    obtain ⟨_, isRead, text, rfl⟩ := reads_foreign extension.isForeign
      ({ base with text, found := _ }) (by rw [isOpened]; rfl)
    refine ⟨_, isRead, text, ?_⟩
    simp [TypeItem.isCollection]

theorem reads_props (base : Multistatus) {above : List Tag} (isOpened : base.opened = .prop :: above)
    (items : List (PropItem readers)) :
    readers.Reads (items.flatMap PropItem.events) base fun after => ∃ text, after =
      { base with text, found := base.found.adding items } := by
  refine reads_flatMap (fun read after => ∃ text, after =
    { base with text, found := base.found.adding read })
    ?_ items [] ⟨base.text, by simp [Found.adding, lastOf]⟩
  rintro read item _ ⟨text, rfl⟩
  simp only [Found.adding_append]
  generalize base.found.adding read = found
  cases item with
  | getcontentlength content | getlastmodified content =>
    refine reads_text content ⟨[], ?_⟩
    simp [isOpened, Multistatus.start, Readers.ends, Tag.of, Found.adding, lastOf, PropItem.size,
      PropItem.modified, PropItem.collection]
  | resourcetype types =>
    obtain ⟨_, isRead, text, rfl⟩ := reads_types (Multistatus.start _ .resourcetype) rfl types
    refine reads_element ⟨_, isRead, rfl, [], ?_⟩
    simp [isOpened, Multistatus.start, Readers.ends, Tag.of, Found.adding, lastOf, PropItem.size,
      PropItem.modified, PropItem.collection]
  | other extension =>
    obtain ⟨_, isRead, text, rfl⟩ := reads_foreign extension.isForeign
      ({ base with text, found }) (by rw [isOpened]; rfl)
    refine ⟨_, isRead, text, ?_⟩
    simp [Found.adding, lastOf, PropItem.size, PropItem.modified, PropItem.collection]

theorem reads_propstat (base : Multistatus) {above : List Tag}
    (isOpened : base.opened = .propstat :: above) (isNew : base.found = {})
    (items : List (PropstatItem readers)) :
    readers.Reads (items.flatMap PropstatItem.events) base fun after => ∃ text, after =
      { base with text, found := foundIn items } := by
  refine reads_flatMap (fun read after => ∃ text, after = { base with text, found := foundIn read })
    ?_ items [] ⟨base.text, by simp [foundIn, Found.adding, lastOf, ← isNew]⟩
  rintro read item _ ⟨text, rfl⟩
  cases item with
  | status content =>
    refine reads_text content ⟨[], ?_⟩
    simp [isOpened, Multistatus.start, Readers.ends, Tag.of, foundIn, Found.adding, lastOf,
      PropstatItem.props, PropstatItem.code]
  | prop props =>
    obtain ⟨_, isRead, text, rfl⟩ := reads_props (Multistatus.start _ .prop) rfl props
    refine reads_element ⟨_, isRead, rfl, [], ?_⟩
    have told : foundIn (read ++ [.prop props]) = (foundIn read).adding props := by
      rw [foundIn, foundIn, ← Found.adding_append, List.flatMap_append, lastOf_append]
      simp [lastOf, PropstatItem.props, PropstatItem.code]
    rw [told]
    simp [isOpened, Multistatus.start, Readers.ends, Tag.of]
  | other extension =>
    obtain ⟨_, isRead, text, rfl⟩ := reads_foreign extension.isForeign
      ({ base with text, found := foundIn read }) (by rw [isOpened]; rfl)
    refine ⟨_, isRead, text, ?_⟩
    simp [foundIn, lastOf, PropstatItem.props, PropstatItem.code]

theorem reads_response (base : Multistatus) {above : List Tag}
    (isOpened : base.opened = .response :: above) (isNew : base.current = {})
    (items : List (ResponseItem readers)) :
    readers.Reads (items.flatMap ResponseItem.events) base fun after => ∃ text found, after =
      { base with text, found, current := resourceOf items } := by
  refine reads_flatMap (fun read after => ∃ text found, after =
    { base with text, found, current := resourceOf read })
    ?_ items [] ⟨base.text, base.found, by simp [resourceOf, lastOf, ← isNew]⟩
  rintro read item _ ⟨text, found, rfl⟩
  cases item with
  | href content | status content =>
    refine reads_text content ⟨[], found, ?_⟩
    simp [isOpened, Multistatus.start, Readers.ends, Tag.of, resourceOf, lastOf,
      ResponseItem.address, ResponseItem.code, ResponseItem.granted, List.filterMap_cons]
  | propstat propstats =>
    obtain ⟨_, isRead, text, rfl⟩ := reads_propstat (Multistatus.start _ .propstat) rfl
      rfl propstats
    refine reads_element ⟨_, isRead, rfl, [], foundIn propstats, ?_⟩
    clear isRead
    by_cases isGranted : (foundIn propstats).status = some 200
    · have isTold : (ResponseItem.propstat propstats).granted = some (foundIn propstats) := by
        simp [ResponseItem.granted, isGranted]
      simp [isOpened, Multistatus.start, Readers.ends, Tag.of, resourceOf, lastOf,
        ResponseItem.address, ResponseItem.code, isGranted, isTold, List.filterMap_cons]
    · have isTold : (ResponseItem.propstat propstats).granted = none := by
        simp [ResponseItem.granted, isGranted]
      simp [isOpened, Multistatus.start, Readers.ends, Tag.of, resourceOf, lastOf,
        ResponseItem.address, ResponseItem.code, isGranted, isTold, List.filterMap_cons]
  | other extension =>
    obtain ⟨_, isRead, text, rfl⟩ := reads_foreign extension.isForeign
      ({ base with text, found, current := resourceOf read }) (by rw [isOpened]; rfl)
    refine ⟨_, isRead, text, found, ?_⟩
    simp [resourceOf, lastOf, ResponseItem.address, ResponseItem.code,
      ResponseItem.granted, List.filterMap_cons]

theorem reads_reply (base : Multistatus) {above : List Tag}
    (isOpened : base.opened = .multistatus :: above) (items : List (ReplyItem readers)) :
    readers.Reads (items.flatMap ReplyItem.events) base fun after => ∃ text found current,
      after = { base with
        text, found, current, resources := base.resources ++ items.filterMap ReplyItem.resource } := by
  refine reads_flatMap (fun read after => ∃ text found current, after = { base with
      text, found, current, resources := base.resources ++ read.filterMap ReplyItem.resource })
    ?_ items [] ⟨base.text, base.found, base.current, by simp⟩
  rintro read item _ ⟨text, found, current, rfl⟩
  cases item with
  | response responses =>
    obtain ⟨_, isRead, text, found, rfl⟩ := reads_response (Multistatus.start _ .response)
      rfl rfl responses
    refine reads_element ⟨_, isRead, rfl, [], found, {}, ?_⟩
    simp [isOpened, Multistatus.start, Readers.ends, Tag.of, ReplyItem.resource]
  | other extension =>
    obtain ⟨_, isRead, text, rfl⟩ := reads_foreign extension.isForeign
      ({ base with text, found, current, resources := _ }) (by rw [isOpened]; rfl)
    refine ⟨_, isRead, text, found, current, ?_⟩
    simp [ReplyItem.resource]

/-- However a reply is written, what is read are the resources of its responses, in order. -/
theorem parseMultistatus_events (reply : Reply readers) :
    readers.parseMultistatus (reply.events.map .ok) =
      .ok (reply.items.filterMap ReplyItem.resource) := by
  have reads : readers.Reads reply.events {} fun after =>
      after.opened = [] ∧ after.resources = reply.items.filterMap ReplyItem.resource := by
    rw [Reply.events, List.append_assoc]
    refine Readers.Reads.append _ (reads_foreign reply.before.isForeign {} rfl) ?_
    rintro _ ⟨text, rfl⟩
    refine Readers.Reads.append (fun after =>
      after.opened = [] ∧ after.resources = reply.items.filterMap ReplyItem.resource) ?_ ?_
    · obtain ⟨_, isRead, _, _, _, rfl⟩ :=
        reads_reply (Multistatus.start { text } .multistatus) rfl reply.items
      exact reads_element ⟨_, isRead, rfl, rfl, rfl⟩
    · rintro after ⟨isOpened, isResources⟩
      obtain ⟨_, isRead, _, rfl⟩ := reads_foreign reply.after.isForeign after (by rw [isOpened]; rfl)
      exact ⟨_, isRead, isOpened, isResources⟩
  obtain ⟨after, isRead, isOpened, isResources⟩ := reads
  rw [Readers.parseMultistatus, List.foldlM_map]
  change (reply.events.foldlM readers.step {} >>= _) = _
  rw [isRead]
  change (if after.opened = [] then _ else _) = _
  rw [if_pos isOpened, isResources]

end WebDav

end Porthmos
