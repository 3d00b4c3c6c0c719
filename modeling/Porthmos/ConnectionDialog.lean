import Porthmos.ConnectionProfile

/-!
# The dialog of a connection

The dialog has a field for each part of a connection and for each option of the protocol.  A secret
that is saved is not shown: a text that nobody types stands for it.
-/

namespace Porthmos

/-- `KEPT_SECRET` -/
def keptSecret : String := "\x00kept"

def unavailablePort : Nat := 22

inductive FieldKind
  | text
  | masked
  | savedSecret
  | choice (choices : List (String × String)) (selected : Nat)
  deriving DecidableEq, Repr

structure FormField where
  key : String
  label : String
  value : String
  cursor : Nat
  kind : FieldKind
  deriving DecidableEq, Repr

namespace FormField

def text (key label initialValue : String) : FormField :=
  ⟨key, label, initialValue, initialValue.length, .text⟩

def masked (key label initialValue : String) : FormField :=
  { text key label initialValue with kind := .masked }

def savedSecret (key label : String) : FormField := { text key label "" with kind := .savedSecret }

def choice (key label : String) (choices : List (String × String)) (selectedValue : String) :
    FormField :=
  ⟨key, label, "", 0,
    .choice choices ((choices.findIdx? fun choice => choice.1 = selectedValue).getD 0)⟩

def submittedValue (field : FormField) : String :=
  match field.kind with
  | .choice choices selected => (choices[selected]?.map Prod.fst).getD ""
  | .savedSecret => keptSecret
  | .text | .masked => field.value

end FormField

/-- What a protocol tells the screen. -/
structure ProtocolInfo where
  id : String
  displayName : String
  form : ConnectionForm
  deriving DecidableEq, Repr

/-- A dialog, without its cursor, its error and its hint. -/
structure FormDialog where
  title : String
  fields : List FormField
  savedSecrets : Option (String × List String)
  remembered : List (String × String)
  prefilled : List (String × String)
  deriving DecidableEq, Repr

namespace ConnectionDialog

/-- `Common` -/
structure Common where
  name : String
  group : String
  tags : String
  host : String
  port : String
  username : String
  password : String
  savedPassword : Bool
  remotePath : String
  deriving DecidableEq, Repr

variable (protocols : List ProtocolInfo)

def protocolChoices (unavailable : Option String) : List (String × String) :=
  let choices := protocols.map fun info => (info.id, info.displayName)
  match unavailable with
  | none => choices
  | some id =>
    if protocols.any fun info => info.id = id then choices
    else choices ++ [(id, id ++ " (not available)")]

def formFor (id : String) : ConnectionForm :=
  ((protocols.find? fun info => info.id = id).map ProtocolInfo.form).getD
    (.standard unavailablePort)

def toggleChoices : List (String × String) := [("true", "Yes"), ("false", "No")]

def toggleText (value : Bool) : String := if value then "true" else "false"

def optionField (field : OptionField) (saved : Option String) (savedSecrets : List String) :
    FormField :=
  match field.kind with
  | .secret =>
    if savedSecrets.any fun marker => marker = field.key then .savedSecret field.key field.label
    else .masked field.key field.label ((saved.filter fun value => value ≠ keptSecret).getD "")
  | .text default => .text field.key field.label (saved.getD default)
  | .choice choices default =>
    let choices := choices.map fun choice => (choice.value, choice.label)
    .choice field.key field.label choices
      ((saved.filter fun value => choices.any fun choice => choice.1 = value).getD default)
  | .toggle default =>
    .choice field.key field.label toggleChoices
      ((saved.filter fun value => value = "true" ∨ value = "false").getD (toggleText default))

def fields (protocol : String) (unavailable : Option String) (common : Common)
    (savedOptions : List (String × String)) (savedSecrets : List String) : List FormField :=
  let form := formFor protocols protocol
  [.choice "protocol" "Protocol" (protocolChoices protocols unavailable) protocol,
    .text "name" "Name" common.name,
    .text "group" "Group" common.group,
    .text "tags" "Tags" common.tags,
    .text "host" form.host.label common.host,
    .text "port" form.port.label common.port,
    .text "username" form.username.label common.username,
    if common.savedPassword then .savedSecret "password" form.password.label
    else .masked "password" form.password.label common.password,
    .text "remote_path" "Remote folder" common.remotePath] ++
  form.options.map fun field =>
    optionField field (savedOptions.lookup field.key) savedSecrets

def secretKeys (protocol : String) : List String :=
  ((formFor protocols protocol).options.filter fun field => field.kind = .secret).map
    OptionField.key

def plainOptions (entry : ConnectionEntry) : List (String × String) :=
  entry.options.filter fun option => option.1 ∉ secretKeys protocols entry.protocol

/-- `build` for an entry that is edited -/
def buildEdit (title : String) (entry : ConnectionEntry) : FormDialog where
  title := title
  fields := fields protocols entry.protocol (some entry.protocol)
    { name := entry.name
      group := entry.group.getD ""
      tags := ", ".intercalate entry.tags
      host := entry.host
      port := entry.port.repr
      username := entry.username
      password := ""
      savedPassword := entry.savedPassword
      remotePath := (entry.options.lookup remotePathKey).getD "" }
    (plainOptions protocols entry) entry.inKeyring
  savedSecrets := some (entry.protocol, entry.inKeyring)
  remembered := plainOptions protocols entry
  prefilled :=
    if (protocols.find? fun info => info.id = entry.protocol).map (fun info =>
        info.form.port.default) = some entry.port then [("port", entry.port.repr)]
    else []

/-- What `Enter` submits. -/
def submitted (dialog : FormDialog) : List (String × String) :=
  dialog.fields.map fun field => (field.key, field.submittedValue)

def secretEdit (value : String) : SecretEdit :=
  if value = keptSecret then .keep else if value = "" then .clear else .replace value

/-- `draft` at one value. -/
def addValue (secretKeys : List String) (draft : ProfileDraft) (submitted : String × String) :
    ProfileDraft :=
  let (key, value) := submitted
  if key ∈ secretKeys then
    { draft with secretOptions := insertOption draft.secretOptions key (secretEdit value) }
  else
    match key with
    | "protocol" => { draft with protocol := value }
    | "name" => { draft with name := value }
    | "group" => { draft with group := value }
    | "tags" => { draft with tags := value }
    | "host" => { draft with host := value }
    | "port" => { draft with port := value }
    | "username" => { draft with username := value }
    | "password" => { draft with password := secretEdit value }
    | "remote_path" => { draft with remotePath := value }
    | _ => { draft with options := insertOption draft.options key value }

def draft (values : List (String × String)) (secretKeys : List String) : ProfileDraft :=
  values.foldl (addValue secretKeys) .default

/-- The draft of `submit_connection_form`. -/
def submittedDraft (values : List (String × String)) : ProfileDraft :=
  let protocol := (values.lookup "protocol").getD ""
  draft values (secretKeys protocols protocol)

end ConnectionDialog

/-- The form that `save_profile` validates a draft with. -/
def savingForm (protocols : List ProtocolInfo) (draft : ProfileDraft)
    (preserveFrom : Option ConnectionEntry) : Option ConnectionForm :=
  match protocols.find? fun info => info.id = draft.protocol with
  | some info => some info.form
  | none =>
    (preserveFrom.filter fun entry => entry.protocol = draft.protocol).map fun entry =>
      .standard entry.port

end Porthmos
