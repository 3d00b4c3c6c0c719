import Mathlib.Data.List.DropRight
import Porthmos.App
import Porthmos.StateFiles

/-!
# Connections and how they are edited

A stored connection, the form that a protocol asks for, and the draft that is made of what was
typed.  Options are kept by their keys, and the order of the keys plays no part.
-/

namespace Porthmos

open StateFiles (isWhitespace)

/-! ### Texts -/

/-- `str::trim` -/
def trim (text : String) : String :=
  String.ofList ((text.toList.dropWhile isWhitespace).rdropWhile isWhitespace)

/-- `str::split` at one character -/
def splitAt (separator : Char) (text : String) : List String :=
  (text.toList.splitOn separator).map String.ofList

/-- `str::strip_prefix` of one character, or the text itself -/
def stripStart (char : Char) (text : String) : String :=
  if text.toList.head? = some char then String.ofList text.toList.tail else text

/-- `str::parse::<u16>` -/
def parsePort (text : String) : Option Nat :=
  let digits := (stripStart '+' text).toList
  let value := Nat.ofDigitChars 10 digits 0
  if digits ≠ [] ∧ digits.all Char.isDigit ∧ value < 65536 then some value else none

/-! ### Labels -/

def normalizeGroup (raw : String) : Option String :=
  let segments := ((splitAt '/' raw).map trim).filter (· ≠ "")
  if segments = [] then none else some ("/".intercalate segments)

/-- A tag without the sign in front of it. -/
def tagText (raw : String) : String := trim (stripStart '#' (trim raw))

section Tags

-- `str::to_lowercase`
variable (lowercase : String → String)

def addTag (tags : List String) (raw : String) : List String :=
  let tag := tagText raw
  if tag ≠ "" ∧ tags.all (fun kept => lowercase kept ≠ lowercase tag) then tags ++ [tag] else tags

def normalizeTags (raw : List String) : List String := raw.foldl (addTag lowercase) []

def parseTags (raw : String) : List String := normalizeTags lowercase (splitAt ',' raw)

end Tags

/-! ### Forms -/

structure CommonField where
  label : String
  required : Bool
  deriving DecidableEq, Repr

structure PortField where
  label : String
  default : Nat
  deriving DecidableEq, Repr

/-- `Choice` -/
structure OptionChoice where
  value : String
  label : String
  deriving DecidableEq, Repr

inductive OptionKind
  | text (default : String)
  | secret
  | choice (choices : List OptionChoice) (default : String)
  | toggle (default : Bool)
  deriving DecidableEq, Repr

structure OptionField where
  key : String
  label : String
  required : Bool
  kind : OptionKind
  deriving DecidableEq, Repr

structure ConnectionForm where
  host : CommonField
  port : PortField
  username : CommonField
  password : CommonField
  options : List OptionField
  deriving DecidableEq, Repr

def reservedKeys : List String :=
  ["protocol", "name", "group", "tags", "host", "port", "username", "password", "in_keyring",
    "remote_path"]

namespace ConnectionForm

def standard (defaultPort : Nat) : ConnectionForm where
  host := ⟨"Host", true⟩
  port := ⟨"Port", defaultPort⟩
  username := ⟨"Username", true⟩
  password := ⟨"Password", false⟩
  options := []

def option (form : ConnectionForm) (key : String) : Option OptionField :=
  form.options.find? fun field => field.key = key

def reservedKeyCollisions (form : ConnectionForm) : List String :=
  (form.options.map OptionField.key).filter fun key => reservedKeys.contains key

end ConnectionForm

/-! ### Profiles -/

structure ConnectionProfile where
  name : String
  protocol : String
  host : String
  port : Option Nat
  username : String
  group : Option String
  tags : List String
  inKeyring : List String
  options : List (String × String)
  deriving DecidableEq, Repr

def passwordMarker : String := "password"

def remotePathKey : String := "remote_path"

/-- `BTreeMap::insert` -/
def insertOption {α : Type} (options : List (String × α)) (key : String) (value : α) :
    List (String × α) :=
  options.filter (fun option => option.1 ≠ key) ++ [(key, value)]

/-- `ConnectionEntry::from_profile` -/
def ConnectionEntry.fromProfile (profile : ConnectionProfile) (defaultPort : Nat) :
    ConnectionEntry where
  name := profile.name
  protocol := profile.protocol
  host := profile.host
  port := profile.port.getD defaultPort
  username := profile.username
  password := none
  options := profile.options
  group := profile.group
  tags := profile.tags
  savedPassword := profile.inKeyring.any fun marker => marker = passwordMarker
  inKeyring := profile.inKeyring
  source := .profile

/-- What `list_all` does to the labels of every entry. -/
def ConnectionEntry.normalized (lowercase : String → String) (entry : ConnectionEntry) :
    ConnectionEntry :=
  { entry with
    group := entry.group.bind normalizeGroup
    tags := normalizeTags lowercase entry.tags }

/-! ### Drafts -/

inductive SecretEdit
  | keep
  | replace (secret : String)
  | clear
  deriving DecidableEq, Repr

structure ProfileDraft where
  protocol : String
  name : String
  host : String
  port : String
  username : String
  password : SecretEdit
  remotePath : String
  group : String
  tags : String
  options : List (String × String)
  secretOptions : List (String × SecretEdit)
  deriving DecidableEq, Repr

/-- `ProfileDraft::default` -/
def ProfileDraft.default : ProfileDraft := ⟨"", "", "", "", "", .keep, "", "", "", [], []⟩

def required (value label : String) (isRequired : Bool) : Except String Unit :=
  if isRequired ∧ value = "" then .error (label ++ " can't be empty") else .ok ()

def hasMarker (original : Option ConnectionEntry) (marker : String) : Bool :=
  original.any fun entry => entry.inKeyring.any fun saved => saved = marker

def requiredSecret (edit : SecretEdit) (label : String) (isRequired saved trims : Bool) :
    Except String Unit :=
  match edit with
  | .replace value => required (if trims then trim value else value) label isRequired
  | .keep => if saved then .ok () else required "" label isRequired
  | .clear => required "" label isRequired

/-- What a choice or a toggle accepts. -/
def accepted (field : OptionField) (value : String) : Except String Unit :=
  match field.kind with
  | .choice choices _ =>
    if choices.any fun choice => choice.value = value then .ok ()
    else .error (field.label ++ " must be one of: " ++
      ", ".intercalate (choices.map OptionChoice.label))
  | .toggle _ =>
    if value ≠ "true" ∧ value ≠ "false" then .error (field.label ++ " must be on or off")
    else .ok ()
  | _ => .ok ()

namespace ProfileDraft

/-- `ProfileDraft::port` -/
def portOf (draft : ProfileDraft) (form : ConnectionForm) : Except String Nat :=
  let port := trim draft.port
  if port = "" then .ok form.port.default
  else
    match parsePort port with
    | some number =>
      if number ≠ 0 then .ok number
      else .error (form.port.label ++ " must be a number from 1-65535")
    | none => .error (form.port.label ++ " must be a number from 1-65535")

/-- The loop over the fields of the form, from the markers and the options so far. -/
def addField (draft : ProfileDraft) (original : Option ConnectionEntry)
    (sofar : List String × List (String × String)) (field : OptionField) :
    Except String (List String × List (String × String)) :=
  if field.kind = .secret then do
    let edit := (draft.secretOptions.lookup field.key).getD .keep
    let saved := hasMarker original field.key
    requiredSecret edit field.label field.required saved true
    .ok (if saved ∧ edit = .keep then (sofar.1 ++ [field.key], sofar.2) else sofar)
  else do
    let value := trim ((draft.options.lookup field.key).getD "")
    required value field.label field.required
    if value = "" then .ok sofar
    else do
      accepted field value
      .ok (sofar.1, insertOption sofar.2 field.key value)

/-- The options of the entry that the form knows nothing of. -/
def preserved (form : ConnectionForm) (original : Option ConnectionEntry) :
    List (String × String) :=
  match original with
  | none => []
  | some entry => entry.options.filter fun option =>
    option.1 ≠ remotePathKey ∧ form.option option.1 = none

def validate (lowercase : String → String) (draft : ProfileDraft) (form : ConnectionForm)
    (preserveFrom : Option ConnectionEntry) : Except String ConnectionProfile := do
  let name := trim draft.name
  let host := trim draft.host
  let username := trim draft.username
  required name "Name" true
  required host form.host.label form.host.required
  required username form.username.label form.username.required
  let original := preserveFrom.filter fun entry => entry.protocol = draft.protocol
  let passwordSaved := hasMarker original passwordMarker
  requiredSecret draft.password form.password.label form.password.required passwordSaved false
  let port ← draft.portOf form
  let inKeyring := if passwordSaved ∧ draft.password = .keep then [passwordMarker] else []
  let (inKeyring, options) ←
    form.options.foldlM (draft.addField original) (inKeyring, preserved form original)
  let remotePath := trim draft.remotePath
  let options :=
    if remotePath ≠ "" then insertOption options remotePathKey remotePath else options
  .ok {
    name, protocol := draft.protocol, host, port := some port, username
    group := normalizeGroup draft.group
    tags := parseTags lowercase draft.tags
    inKeyring, options }

end ProfileDraft

end Porthmos
