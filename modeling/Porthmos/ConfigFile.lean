import Mathlib.Data.List.Lookmap
import Porthmos.ConnectionDrafts
import Porthmos.HistoryFile

/-!
# The document of the connections

Each connection is a table under its name, with its options beside its own fields.  A field that has
its default is left out.
-/

namespace Porthmos

open HistoryEntry (orDefault)

/-- What is kept for a host of the ssh configuration. -/
structure Labels where
  group : Option String
  tags : List String
  inKeyring : List String
  deriving DecidableEq, Repr

def Labels.isEmpty (labels : Labels) : Bool :=
  labels.group.isNone && labels.tags.isEmpty && labels.inKeyring.isEmpty

/-- A connection has its name from its key. -/
structure ConfigFile where
  connections : List (String × ConnectionProfile)
  sshHosts : List (String × Labels)
  deriving DecidableEq, Repr

/-- `ConfigFile::default` -/
def ConfigFile.empty : ConfigFile := ⟨[], []⟩

/-! ### Writing -/

def defaultProtocol : String := "sftp"

/-- The fields of `StoredProfile` beside its options. -/
def profileKeys : List String :=
  ["protocol", "host", "port", "username", "group", "tags", "in_keyring"]

/-- A table has its fields in the order of their keys. -/
def sortFields {α : Type} (fields : List (String × α)) : List (String × α) :=
  fields.insertionSort fun first second => first.1 ≤ second.1

/-- A list that is left out when it is empty. -/
def textsField (key : String) (texts : List String) : List (String × Toml) :=
  if texts = [] then [] else [(key, .list (texts.map .text))]

def groupField (group : Option String) : List (String × Toml) :=
  (group.map fun group => ("group", .text group)).toList

namespace Labels

def fields (labels : Labels) : List (String × Toml) :=
  groupField labels.group ++ textsField "tags" labels.tags ++
    textsField "in_keyring" labels.inKeyring

def toToml (labels : Labels) : Toml := .table (sortFields labels.fields)

end Labels

namespace ConnectionProfile

def fields (profile : ConnectionProfile) : List (String × Toml) :=
  (if profile.protocol = defaultProtocol then [] else [("protocol", .text profile.protocol)]) ++
    [("host", .text profile.host), ("username", .text profile.username)] ++
    (profile.port.map fun port => ("port", Toml.number port)).toList ++
    groupField profile.group ++ textsField "tags" profile.tags ++
    textsField "in_keyring" profile.inKeyring

def toToml (profile : ConnectionProfile) : Toml :=
  .table (sortFields (profile.fields ++ profile.options.map fun option =>
    (option.1, .text option.2)))

end ConnectionProfile

namespace ConfigFile

def toToml (file : ConfigFile) : Toml :=
  let connections := file.connections.map fun connection => (connection.1, connection.2.toToml)
  let sshHosts := file.sshHosts.map fun host => (host.1, host.2.toToml)
  .table (("connections", .table (sortFields connections)) ::
    if sshHosts = [] then [] else [("ssh_hosts", .table (sortFields sshHosts))])

end ConfigFile

/-! ### Reading -/

/-- Read each value of a table. -/
def readFields {α : Type} (read : Toml → Option α) (fields : List (String × Toml)) :
    Option (List (String × α)) :=
  fields.mapM fun field => (read field.2).map fun value => (field.1, value)

def Labels.ofToml (value : Toml) : Option Labels := do
  let fields ← value.asTable
  some {
    group := ← orDefault (fields.lookup "group") none fun group => group.asText.map some
    tags := ← orDefault (fields.lookup "tags") [] Toml.asTexts
    inKeyring := ← orDefault (fields.lookup "in_keyring") [] Toml.asTexts }

/-- What is read has no name yet. -/
def ConnectionProfile.ofToml (value : Toml) : Option ConnectionProfile := do
  let fields ← value.asTable
  let options ← readFields Toml.asText (fields.filter fun field => field.1 ∉ profileKeys)
  some {
    name := ""
    protocol := ← orDefault (fields.lookup "protocol") defaultProtocol Toml.asText
    host := ← (← fields.lookup "host").asText
    port := ← orDefault (fields.lookup "port") none fun port => port.asPort.map some
    username := ← (← fields.lookup "username").asText
    group := ← orDefault (fields.lookup "group") none fun group => group.asText.map some
    tags := ← orDefault (fields.lookup "tags") [] Toml.asTexts
    inKeyring := ← orDefault (fields.lookup "in_keyring") [] Toml.asTexts
    options := options.filter fun option => option.1 ≠ passwordMarker }

def ConfigFile.ofToml (value : Toml) : Option ConfigFile := do
  let fields ← value.asTable
  some {
    connections := ← orDefault (fields.lookup "connections") [] fun connections =>
      connections.asTable.bind (readFields ConnectionProfile.ofToml)
    sshHosts := ← orDefault (fields.lookup "ssh_hosts") [] fun hosts =>
      hosts.asTable.bind (readFields Labels.ofToml) }

/-- The crate, and the text for a document of another shape. -/
structure ConfigFormat where
  toml : TomlCrate
  mismatch : Toml → String

namespace ConfigFormat

/-- `toml::to_string_pretty` -/
def render (format : ConfigFormat) (file : ConfigFile) : Except String String :=
  format.toml.render file.toToml

/-- `toml::from_str`, with the text of `toml_problem` -/
def parse (format : ConfigFormat) (text : String) : Except String ConfigFile :=
  match format.toml.parse text with
  | .error problem => .error problem
  | .ok document =>
    match ConfigFile.ofToml document with
    | some file => .ok file
    | none => .error (format.mismatch document)

end ConfigFormat

/-! ### Reading what was written -/

section Fields

variable {α : Type} {fields : List (String × α)}

theorem lookup_eq_some_iff (distinct : (fields.map Prod.fst).Nodup) {key : String} {value : α} :
    fields.lookup key = some value ↔ (key, value) ∈ fields := by
  induction fields with
  | nil => simp
  | cons field fields ih =>
    obtain ⟨name, other⟩ := field
    obtain ⟨isNew, distinct⟩ := List.nodup_cons.mp distinct
    rw [lookup_cons, List.mem_cons, Prod.mk.injEq]
    by_cases same : key = name
    · subst same
      have absent : (key, value) ∉ fields := fun member =>
        isNew (List.mem_map.mpr ⟨(key, value), member, rfl⟩)
      simp [absent, eq_comm]
    · simp [same, ih distinct]

theorem mem_sortFields {field : String × α} : field ∈ sortFields fields ↔ field ∈ fields :=
  List.mem_insertionSort _

theorem lookup_sortFields (distinct : (fields.map Prod.fst).Nodup) (key : String) :
    (sortFields fields).lookup key = fields.lookup key := by
  have perm : (sortFields fields).Perm fields := List.perm_insertionSort ..
  have distinct' : ((sortFields fields).map Prod.fst).Nodup :=
    ((perm.map Prod.fst).nodup_iff).mpr distinct
  ext value
  rw [lookup_eq_some_iff distinct', lookup_eq_some_iff distinct, perm.mem_iff]

theorem writable_sortFields {fields : List (String × Toml)}
    (distinct : (fields.map Prod.fst).Nodup) (all : ∀ field ∈ fields, field.2.Writable) :
    (Toml.table (sortFields fields)).Writable := by
  have perm : (sortFields fields).Perm fields := List.perm_insertionSort ..
  have distinct' : ((sortFields fields).map Prod.fst).Nodup :=
    ((perm.map Prod.fst).nodup_iff).mpr distinct
  have total : Std.Total fun first second : String × Toml => first.1 ≤ second.1 :=
    ⟨fun first second => le_total first.1 second.1⟩
  have transitive : IsTrans (String × Toml) fun first second => first.1 ≤ second.1 :=
    ⟨fun _ _ _ below above => below.trans above⟩
  have goesUp : (sortFields fields).Pairwise fun first second => first.1 ≤ second.1 :=
    List.pairwise_insertionSort ..
  rw [Toml.writable_table]
  constructor
  · rw [List.nodup_iff_pairwise_ne] at distinct'
    exact ((List.pairwise_map.mpr goesUp).and distinct').imp fun both => lt_of_le_of_ne both.1 both.2
  · exact fun field member => all field (mem_sortFields.mp member)

theorem nodup_of_writable {fields : List (String × Toml)}
    (writable : (Toml.table (sortFields fields)).Writable) : (fields.map Prod.fst).Nodup := by
  have goesUp := (Toml.writable_table.mp writable).1
  have perm : (sortFields fields).Perm fields := List.perm_insertionSort ..
  exact ((perm.map Prod.fst).nodup_iff).mp (goesUp.imp fun below => ne_of_lt below)

theorem readFields_cons (read : Toml → Option α) (field : String × Toml)
    (fields : List (String × Toml)) :
    readFields read (field :: fields) = (read field.2).bind fun value =>
      (readFields read fields).map fun values => (field.1, value) :: values := by
  unfold readFields
  rw [List.mapM_cons]
  cases read field.2 with
  | none => rfl
  | some value => simp [Option.map_eq_bind]

theorem lookup_readFields {read : Toml → Option α} {fields : List (String × Toml)}
    {values : List (String × α)} (isRead : readFields read fields = some values) (key : String) :
    values.lookup key = (fields.lookup key).bind read := by
  induction fields generalizing values with
  | nil =>
    cases isRead
    rfl
  | cons field fields ih =>
    rw [readFields_cons] at isRead
    obtain ⟨value, isValue, isRead⟩ := Option.bind_eq_some_iff.mp isRead
    obtain ⟨others, areRead, rfl⟩ := Option.map_eq_some_iff.mp isRead
    obtain ⟨name, toml⟩ := field
    rw [lookup_cons, lookup_cons, ih areRead]
    by_cases same : key = name <;> simp_all

theorem exists_readFields {read : Toml → Option α} {fields : List (String × Toml)}
    (all : ∀ field ∈ fields, ∃ value, read field.2 = some value) :
    ∃ values, readFields read fields = some values := by
  induction fields with
  | nil => exact ⟨[], rfl⟩
  | cons field fields ih =>
    obtain ⟨⟨value, isValue⟩, all⟩ := List.forall_mem_cons.mp all
    obtain ⟨values, isRead⟩ := ih all
    exact ⟨(field.1, value) :: values, by rw [readFields_cons, isValue, isRead]; rfl⟩

theorem keys_readFields {read : Toml → Option α} {fields : List (String × Toml)}
    {values : List (String × α)} (isRead : readFields read fields = some values) :
    values.map Prod.fst = fields.map Prod.fst := by
  induction fields generalizing values with
  | nil =>
    cases isRead
    rfl
  | cons field fields ih =>
    rw [readFields_cons] at isRead
    obtain ⟨value, _, isRead⟩ := Option.bind_eq_some_iff.mp isRead
    obtain ⟨others, areRead, rfl⟩ := Option.map_eq_some_iff.mp isRead
    simp [ih areRead]

theorem nodup_of_asTable {value : Toml} (writable : value.Writable) {fields : List (String × Toml)}
    (isTable : value.asTable = some fields) : (fields.map Prod.fst).Nodup := by
  cases writable with
  | table sorted _ =>
    cases isTable
    exact sorted.imp fun below => ne_of_lt below
  | text | number | list => cases isTable

theorem mem_readFields {read : Toml → Option α} {fields : List (String × Toml)}
    {values : List (String × α)} (isRead : readFields read fields = some values)
    {value : String × α} (member : value ∈ values) :
    ∃ field ∈ fields, field.1 = value.1 ∧ read field.2 = some value.2 := by
  induction fields generalizing values with
  | nil =>
    cases isRead
    cases member
  | cons field fields ih =>
    rw [readFields_cons] at isRead
    obtain ⟨first, isFirst, isRead⟩ := Option.bind_eq_some_iff.mp isRead
    obtain ⟨others, areRead, rfl⟩ := Option.map_eq_some_iff.mp isRead
    rcases List.mem_cons.mp member with rfl | member
    · exact ⟨field, List.mem_cons_self, rfl, isFirst⟩
    · obtain ⟨field, isField, same⟩ := ih areRead member
      exact ⟨field, List.mem_cons_of_mem _ isField, same⟩

end Fields

theorem asTexts_map (texts : List String) : (Toml.list (texts.map .text)).asTexts = some texts := by
  simp [Toml.asTexts, Toml.asList, HistoryEntry.mapM_asText]

/-! ### Up to order -/

namespace ConnectionProfile

/-- What can be kept of a profile: its port is one, and no option has the key of a field or of
another option. -/
structure Plain (profile : ConnectionProfile) : Prop where
  port : ∀ port ∈ profile.port, port < 65536
  options : ∀ option ∈ profile.options, option.1 ∉ profileKeys ∧ option.1 ≠ passwordMarker
  distinct : (profile.options.map Prod.fst).Nodup

/-- A profile, whatever the order of its options. -/
def view (profile : ConnectionProfile) : ConnectionProfile × (String → Option String) :=
  ({ profile with options := [] }, fun key => profile.options.lookup key)

end ConnectionProfile

/-- What the file of the connections says. -/
@[ext]
structure ConfigView where
  profiles : String → Option (ConnectionProfile × (String → Option String))
  sshHosts : String → Option Labels

namespace ConfigFile

structure Plain (file : ConfigFile) : Prop where
  profiles : ∀ connection ∈ file.connections, connection.2.Plain
  connections : (file.connections.map Prod.fst).Nodup
  sshHosts : (file.sshHosts.map Prod.fst).Nodup

/-- The name of a profile is its key. -/
def view (file : ConfigFile) : ConfigView where
  profiles name := (file.connections.lookup name).map fun profile => { profile with name }.view
  sshHosts name := file.sshHosts.lookup name

end ConfigFile

theorem lookup_map {α β : Type} (fields : List (String × α)) (change : α → β) (key : String) :
    (fields.map fun field => (field.1, change field.2)).lookup key =
      (fields.lookup key).map change := by
  induction fields with
  | nil => rfl
  | cons field fields ih =>
    obtain ⟨name, value⟩ := field
    rw [List.map_cons, lookup_cons, lookup_cons, ih]
    split_ifs <;> rfl

/-! ### Each part comes back -/

theorem lookup_groupField (group : Option String) (key : String) :
    (groupField group).lookup key = if key = "group" then group.map .text else none := by
  cases group with
  | none => simp [groupField]
  | some group => simp [groupField, lookup_cons]

theorem lookup_textsField (name key : String) (texts : List String) :
    (textsField name texts).lookup key =
      if key = name ∧ texts ≠ [] then some (.list (texts.map .text)) else none := by
  unfold textsField
  by_cases isEmpty : texts = [] <;> simp [isEmpty, lookup_cons]

theorem orDefault_texts (texts : List String) :
    orDefault (if texts ≠ [] then some (Toml.list (texts.map .text)) else none) [] Toml.asTexts =
      some texts := by
  by_cases isEmpty : texts = [] <;> simp [isEmpty, orDefault, asTexts_map]

theorem orDefault_group (group : Option String) :
    orDefault (group.map Toml.text) none (fun group => group.asText.map some) = some group := by
  cases group <;> rfl

theorem writable_textsField {key : String} {texts : List String} {field : String × Toml}
    (member : field ∈ textsField key texts) : field.2.Writable := by
  unfold textsField at member
  split_ifs at member
  · cases member
  · cases List.mem_singleton.mp member
    exact .list fun item isItem => by
      obtain ⟨text, _, rfl⟩ := List.mem_map.mp isItem
      exact .text text

theorem writable_groupField {group : Option String} {field : String × Toml}
    (member : field ∈ groupField group) : field.2.Writable := by
  cases group with
  | none => cases member
  | some group =>
    cases List.mem_singleton.mp member
    exact .text group

namespace Labels

theorem distinct_fields (labels : Labels) : (labels.fields.map Prod.fst).Nodup := by
  unfold fields groupField textsField
  cases labels.group <;> split_ifs <;> simp

theorem ofToml_toToml (labels : Labels) : ofToml labels.toToml = some labels := by
  have found (key : String) : (sortFields labels.fields).lookup key = labels.fields.lookup key :=
    lookup_sortFields labels.distinct_fields key
  have group : labels.fields.lookup "group" = labels.group.map .text := by
    simp [fields, List.lookup_append, lookup_groupField, lookup_textsField]
  have tags : labels.fields.lookup "tags" =
      if labels.tags ≠ [] then some (.list (labels.tags.map .text)) else none := by
    simp [fields, List.lookup_append, lookup_groupField, lookup_textsField]
  have inKeyring : labels.fields.lookup "in_keyring" =
      if labels.inKeyring ≠ [] then some (.list (labels.inKeyring.map .text)) else none := by
    simp [fields, List.lookup_append, lookup_groupField, lookup_textsField]
  simp only [ofToml, toToml, Toml.asTable, Option.bind_eq_bind, Option.bind_some, found, group, tags,
    inKeyring, orDefault_group, orDefault_texts]

theorem writable_toToml (labels : Labels) : labels.toToml.Writable := by
  refine writable_sortFields labels.distinct_fields fun field member => ?_
  simp only [fields, List.mem_append] at member
  rcases member with (isGroup | isTags) | isMarkers
  · exact writable_groupField isGroup
  · exact writable_textsField isTags
  · exact writable_textsField isMarkers

end Labels

namespace ConnectionProfile

variable {profile : ConnectionProfile}

/-- The text of each option. -/
def optionFields (profile : ConnectionProfile) : List (String × Toml) :=
  profile.options.map fun option => (option.1, .text option.2)

theorem lookup_optionFields (plain : profile.Plain) {key : String} (isKey : key ∈ profileKeys) :
    profile.optionFields.lookup key = none := by
  rw [optionFields, lookup_map, Option.map_eq_none_iff, List.lookup_eq_none_iff]
  intro option member
  have differs : option.1 ≠ key := fun same => (plain.options option member).1 (same ▸ isKey)
  simpa using differs.symm

theorem lookup_toToml (plain : profile.Plain)
    (distinct : ((profile.fields ++ profile.optionFields).map Prod.fst).Nodup) {key : String}
    (isKey : key ∈ profileKeys) :
    (sortFields (profile.fields ++ profile.optionFields)).lookup key =
      profile.fields.lookup key := by
  rw [lookup_sortFields distinct, List.lookup_append, lookup_optionFields plain isKey, Option.or_none]

theorem lookup_option_eq_none (plain : profile.Plain) {key : String}
    (isKey : key ∈ profileKeys ∨ key = passwordMarker) : profile.options.lookup key = none := by
  rw [List.lookup_eq_none_iff]
  intro option member
  obtain ⟨noField, noMarker⟩ := plain.options option member
  have differs : key ≠ option.1 := by
    rintro rfl
    exact isKey.elim noField noMarker
  simpa using differs

theorem key_mem_profileKeys (profile : ConnectionProfile) {field : String × Toml}
    (member : field ∈ profile.fields) : field.1 ∈ profileKeys := by
  have keys : ∀ key ∈ profile.fields.map Prod.fst, key ∈ profileKeys := by
    unfold fields groupField textsField
    cases profile.port <;> cases profile.group <;> split_ifs <;> simp [profileKeys]
  exact keys field.1 (List.mem_map_of_mem member)

/-- The options come back, but not in their order. -/
theorem readFields_options (plain : profile.Plain)
    (distinct : ((profile.fields ++ profile.optionFields).map Prod.fst).Nodup) :
    ∃ options, readFields Toml.asText ((sortFields (profile.fields ++ profile.optionFields)).filter
        fun field => field.1 ∉ profileKeys) = some options ∧
      ∀ key, (options.filter fun option => option.1 ≠ passwordMarker).lookup key =
        profile.options.lookup key := by
  have texts : ∀ field ∈ (sortFields (profile.fields ++ profile.optionFields)).filter
      (fun field => decide (field.1 ∉ profileKeys)), ∃ text, field.2.asText = some text := by
    intro field member
    obtain ⟨member, noField⟩ := List.mem_filter.mp member
    rcases List.mem_append.mp (mem_sortFields.mp member) with isField | isOption
    · exact absurd (profile.key_mem_profileKeys isField) (of_decide_eq_true noField)
    · obtain ⟨option, _, rfl⟩ := List.mem_map.mp isOption
      exact ⟨option.2, rfl⟩
  obtain ⟨options, areRead⟩ := exists_readFields texts
  refine ⟨options, areRead, fun key => ?_⟩
  rw [lookup_filter options (fun name => decide (name ≠ passwordMarker)), lookup_readFields areRead,
    lookup_filter _ (fun name => decide (name ∉ profileKeys)), lookup_sortFields distinct]
  by_cases isMarker : key = passwordMarker
  · simp [isMarker, lookup_option_eq_none plain (.inr rfl)]
  by_cases isKey : key ∈ profileKeys
  · simp [isKey, lookup_option_eq_none plain (.inl isKey)]
  have noField : profile.fields.lookup key = none := by
    rw [List.lookup_eq_none_iff]
    intro field member
    have differs : key ≠ field.1 := fun same => isKey (same ▸ profile.key_mem_profileKeys member)
    simpa using differs
  rw [List.lookup_append, noField, Option.none_or, optionFields, lookup_map]
  cases profile.options.lookup key <;> simp [isMarker, isKey, Toml.asText]

theorem ofToml_toToml (plain : profile.Plain) (writable : profile.toToml.Writable) :
    ∃ again, ofToml profile.toToml = some again ∧ again.view = { profile with name := "" }.view := by
  have distinct : ((profile.fields ++ profile.optionFields).map Prod.fst).Nodup :=
    nodup_of_writable writable
  have found {key : String} (isKey : key ∈ profileKeys) := lookup_toToml plain distinct isKey
  have protocol : orDefault (profile.fields.lookup "protocol") defaultProtocol Toml.asText =
      some profile.protocol := by
    by_cases isDefault : profile.protocol = defaultProtocol <;>
      cases isPort : profile.port <;>
      simp [fields, List.lookup_append, lookup_groupField, lookup_textsField, isDefault, isPort,
        lookup_cons, orDefault, Toml.asText]
  have host : profile.fields.lookup "host" = some (.text profile.host) := by
    by_cases isDefault : profile.protocol = defaultProtocol <;>
      simp [fields, isDefault, lookup_cons]
  have username : profile.fields.lookup "username" = some (.text profile.username) := by
    by_cases isDefault : profile.protocol = defaultProtocol <;>
      simp [fields, isDefault, lookup_cons]
  have port : orDefault (profile.fields.lookup "port") none (fun port => port.asPort.map some) =
      some profile.port := by
    cases isPort : profile.port with
    | none =>
      by_cases isDefault : profile.protocol = defaultProtocol <;>
        simp [fields, List.lookup_append, lookup_groupField, lookup_textsField, isDefault, isPort,
          lookup_cons, orDefault]
    | some port =>
      have small := plain.port port isPort
      by_cases isDefault : profile.protocol = defaultProtocol <;>
        simp [fields, isDefault, isPort, lookup_cons, orDefault, Toml.asPort, Option.filter_some,
          small]
  have group : profile.fields.lookup "group" = profile.group.map .text := by
    by_cases isDefault : profile.protocol = defaultProtocol <;> cases isPort : profile.port <;>
      simp [fields, List.lookup_append, lookup_groupField, lookup_textsField, isDefault, isPort,
        lookup_cons]
  have tags : profile.fields.lookup "tags" =
      if profile.tags ≠ [] then some (.list (profile.tags.map .text)) else none := by
    by_cases isDefault : profile.protocol = defaultProtocol <;> cases isPort : profile.port <;>
      simp [fields, List.lookup_append, lookup_groupField, lookup_textsField, isDefault, isPort,
        lookup_cons]
  have inKeyring : profile.fields.lookup "in_keyring" =
      if profile.inKeyring ≠ [] then some (.list (profile.inKeyring.map .text)) else none := by
    by_cases isDefault : profile.protocol = defaultProtocol <;> cases isPort : profile.port <;>
      simp [fields, List.lookup_append, lookup_groupField, lookup_textsField, isDefault, isPort,
        lookup_cons]
  obtain ⟨options, areRead, sameOptions⟩ := readFields_options plain distinct
  refine ⟨{ profile with
    name := "", options := options.filter fun option => option.1 ≠ passwordMarker }, ?_, ?_⟩
  · have isTable : profile.toToml.asTable =
        some (sortFields (profile.fields ++ profile.optionFields)) := rfl
    have asText (text : String) : (Toml.text text).asText = some text := rfl
    simp only [ofToml, isTable, Option.bind_eq_bind, Option.bind_some, areRead,
      found (show "protocol" ∈ profileKeys by decide), found (show "host" ∈ profileKeys by decide),
      found (show "port" ∈ profileKeys by decide), found (show "username" ∈ profileKeys by decide),
      found (show "group" ∈ profileKeys by decide), found (show "tags" ∈ profileKeys by decide),
      found (show "in_keyring" ∈ profileKeys by decide), protocol, host, port, username, group, tags,
      inKeyring, orDefault_group, orDefault_texts, asText]
  · exact Prod.ext rfl (funext sameOptions)

theorem plain_ofToml {value : Toml} (writable : value.Writable)
    (isRead : ofToml value = some profile) : profile.Plain := by
  simp only [ofToml, Option.bind_eq_bind, Option.bind_eq_some_iff, Option.some.injEq] at isRead
  obtain ⟨fields, isTable, options, areOptions, protocol, _, host, _, _, _, port, isPort, username,
    _, _, _, group, _, tags, _, inKeyring, _, rfl⟩ := isRead
  constructor
  · intro port' isSome
    cases isSome
    unfold orDefault at isPort
    split at isPort
    · cases isPort
    · obtain ⟨_, isNumber, same⟩ := Option.map_eq_some_iff.mp isPort
      cases same
      exact of_decide_eq_true (Option.filter_eq_some_iff.mp isNumber).2
  · intro option member
    obtain ⟨member, noMarker⟩ := List.mem_filter.mp member
    obtain ⟨field, isField, same, _⟩ := mem_readFields areOptions member
    exact ⟨same ▸ of_decide_eq_true (List.mem_filter.mp isField).2, of_decide_eq_true noMarker⟩
  · have distinct : (options.map Prod.fst).Nodup := by
      rw [keys_readFields areOptions]
      exact (nodup_of_asTable writable isTable).sublist (List.filter_sublist.map _)
    exact distinct.sublist (List.filter_sublist.map _)

theorem distinct_fields (profile : ConnectionProfile) : (profile.fields.map Prod.fst).Nodup := by
  unfold fields groupField textsField
  cases profile.port <;> cases profile.group <;> split_ifs <;> simp

theorem writable_fields (plain : profile.Plain) {field : String × Toml}
    (member : field ∈ profile.fields) : field.2.Writable := by
  simp only [fields, List.mem_append] at member
  rcases member with ((((isProtocol | isText) | isPort) | isGroup) | isTags) | isMarkers
  · split_ifs at isProtocol
    · cases isProtocol
    · cases List.mem_singleton.mp isProtocol
      exact .text _
  · rcases List.mem_pair.mp isText with rfl | rfl
    · exact .text _
    · exact .text _
  · cases isSome : profile.port with
    | none =>
      rw [isSome] at isPort
      cases isPort
    | some port =>
      have small := plain.port port isSome
      rw [isSome] at isPort
      cases List.mem_singleton.mp isPort
      exact Toml.writable_nat.mpr (by omega)
  · exact writable_groupField isGroup
  · exact writable_textsField isTags
  · exact writable_textsField isMarkers

theorem writable_toToml (plain : profile.Plain) : profile.toToml.Writable := by
  apply writable_sortFields
  · rw [List.map_append, List.map_map, List.nodup_append]
    refine ⟨profile.distinct_fields, plain.distinct, ?_⟩
    intro key isField key' isOption same
    obtain ⟨field, member, rfl⟩ := List.mem_map.mp isField
    obtain ⟨option, optionMember, rfl⟩ := List.mem_map.mp isOption
    have isKey := profile.key_mem_profileKeys member
    rw [same] at isKey
    exact (plain.options option optionMember).1 isKey
  · intro field member
    rcases List.mem_append.mp member with isField | isOption
    · exact writable_fields plain isField
    · obtain ⟨option, _, rfl⟩ := List.mem_map.mp isOption
      exact .text option.2

end ConnectionProfile

namespace ConfigFile

variable {file : ConfigFile}

theorem readFields_sortFields {α : Type} {fields : List (String × α)} {write : α → Toml}
    {read : Toml → Option α}
    (writable : (Toml.table (sortFields (fields.map fun field =>
      (field.1, write field.2)))).Writable)
    (comesBack : ∀ field ∈ fields, (write field.2).Writable → ∃ again, read (write field.2) =
      some again) :
    ∃ values, readFields read (sortFields (fields.map fun field => (field.1, write field.2))) =
        some values ∧
      ∀ key, values.lookup key = (fields.lookup key).bind fun value => read (write value) := by
  have all : ∀ field ∈ sortFields (fields.map fun field => (field.1, write field.2)),
      ∃ value, read field.2 = some value := by
    intro field member
    have isWritable := (Toml.writable_table.mp writable).2 field member
    obtain ⟨original, isOriginal, rfl⟩ := List.mem_map.mp (mem_sortFields.mp member)
    exact comesBack original isOriginal isWritable
  obtain ⟨values, areRead⟩ := exists_readFields all
  refine ⟨values, areRead, fun key => ?_⟩
  rw [lookup_readFields areRead, lookup_sortFields (nodup_of_writable writable),
    lookup_map fields write]
  cases fields.lookup key <;> rfl

theorem view_named {again profile : ConnectionProfile}
    (same : again.view = { profile with name := "" }.view) (name : String) :
    { again with name }.view = { profile with name }.view := by
  obtain ⟨fields, options⟩ := Prod.mk.injEq .. ▸ same
  exact Prod.ext (congrArg (fun kept : ConnectionProfile => { kept with name }) fields) options

theorem ofToml_toToml (plain : file.Plain) (writable : file.toToml.Writable) :
    ∃ again, ofToml file.toToml = some again ∧ again.view = file.view := by
  have parts := (Toml.writable_table.mp writable).2
  have connections := parts _ List.mem_cons_self
  have profile (field : String × ConnectionProfile) (member : field ∈ file.connections)
      (isWritable : field.2.toToml.Writable) :=
    ConnectionProfile.ofToml_toToml (plain.profiles field member) isWritable
  obtain ⟨profiles, areProfiles, isProfile⟩ := readFields_sortFields connections
    fun field member isWritable => (profile field member isWritable).imp fun _ => And.left
  have isView (name : String) : (profiles.lookup name).map (fun profile =>
      { profile with name }.view) = (file.connections.lookup name).map fun profile =>
        { profile with name }.view := by
    rw [isProfile]
    cases found : file.connections.lookup name with
    | none => rfl
    | some original =>
      have member : (name, original) ∈ file.connections := by
        have distinct := nodup_of_writable connections
        rw [List.map_map] at distinct
        exact (lookup_eq_some_iff distinct).mp found
      have isWritable : original.toToml.Writable :=
        (Toml.writable_table.mp connections).2 (name, original.toToml)
          (mem_sortFields.mpr (List.mem_map.mpr ⟨(name, original), member, rfl⟩))
      obtain ⟨again, isRead, same⟩ := profile (name, original) member isWritable
      rw [Option.bind_some, isRead, Option.map_some, Option.map_some, view_named same]
  by_cases noHosts : file.sshHosts = []
  · refine ⟨⟨profiles, []⟩, ?_, ConfigView.ext (funext isView) ?_⟩
    · simp [ofToml, toToml, Toml.asTable, noHosts, lookup_cons, orDefault, areProfiles]
    · simp [view, noHosts]
  · have hosts : (Toml.table (sortFields (file.sshHosts.map fun host =>
        (host.1, host.2.toToml)))).Writable := parts ("ssh_hosts", _) (by simp [noHosts])
    obtain ⟨labels, areLabels, isLabels⟩ := readFields_sortFields hosts
      fun field _ _ => ⟨field.2, field.2.ofToml_toToml⟩
    refine ⟨⟨profiles, labels⟩, ?_, ConfigView.ext (funext isView) (funext fun name => ?_)⟩
    · simp [ofToml, toToml, Toml.asTable, noHosts, lookup_cons, orDefault, areProfiles, areLabels]
    · refine (isLabels name).trans ?_
      simp [Labels.ofToml_toToml, view]

theorem writable_fieldOf {fields : List (String × Toml)} (writable : (Toml.table fields).Writable)
    {key : String} {value : Toml} (found : fields.lookup key = some value) : value.Writable := by
  induction fields with
  | nil => cases found
  | cons field fields ih =>
    obtain ⟨name, other⟩ := field
    obtain ⟨sorted, all⟩ := Toml.writable_table.mp writable
    rw [lookup_cons] at found
    split_ifs at found
    · cases found
      exact all _ List.mem_cons_self
    · exact ih (.table (List.pairwise_cons.mp sorted).2 fun field member =>
        all field (List.mem_cons_of_mem _ member)) found

/-- What is read of a table in a table has each key once. -/
theorem distinct_readTable {α : Type} {fields : List (String × Toml)}
    (writable : (Toml.table fields).Writable) {key : String} {read : Toml → Option α}
    {values : List (String × α)} (isRead : orDefault (fields.lookup key) [] (fun value =>
      value.asTable.bind (readFields read)) = some values) :
    (values.map Prod.fst).Nodup ∧ ∀ value ∈ values, ∃ toml : Toml, toml.Writable ∧
      read toml = some value.2 := by
  unfold orDefault at isRead
  split at isRead
  · cases isRead
    simp
  · rename_i table found
    have isWritable := writable_fieldOf writable found
    obtain ⟨fields, isTable, areRead⟩ := Option.bind_eq_some_iff.mp isRead
    constructor
    · rw [keys_readFields areRead]
      exact nodup_of_asTable isWritable isTable
    · intro value member
      obtain ⟨field, isField, _, isValue⟩ := mem_readFields areRead member
      cases table with
      | table _ =>
        cases isTable
        exact ⟨field.2, (Toml.writable_table.mp isWritable).2 field isField, isValue⟩
      | text | number | list => cases isTable

theorem plain_ofToml {value : Toml} (writable : value.Writable)
    (isRead : ofToml value = some file) : file.Plain := by
  simp only [ofToml, Option.bind_eq_bind, Option.bind_eq_some_iff, Option.some.injEq] at isRead
  obtain ⟨fields, isTable, connections, areConnections, hosts, areHosts, rfl⟩ := isRead
  have isValue : value = .table fields := by
    cases value with
    | table _ =>
      cases isTable
      rfl
    | text | number | list => cases isTable
  rw [isValue] at writable
  obtain ⟨distinct, profiles⟩ := distinct_readTable writable areConnections
  constructor
  · intro connection member
    obtain ⟨toml, isWritable, isRead⟩ := profiles connection member
    exact ConnectionProfile.plain_ofToml isWritable isRead
  · exact distinct
  · exact (distinct_readTable writable areHosts).1

theorem writable_toToml (plain : file.Plain) : file.toToml.Writable := by
  have connections : (Toml.table (sortFields (file.connections.map fun connection =>
      (connection.1, connection.2.toToml)))).Writable := by
    apply writable_sortFields
    · rw [List.map_map]
      exact plain.connections
    · intro field member
      obtain ⟨connection, isConnection, rfl⟩ := List.mem_map.mp member
      exact ConnectionProfile.writable_toToml (plain.profiles connection isConnection)
  have hosts : (Toml.table (sortFields (file.sshHosts.map fun host =>
      (host.1, host.2.toToml)))).Writable := by
    apply writable_sortFields
    · rw [List.map_map]
      exact plain.sshHosts
    · intro field member
      obtain ⟨host, _, rfl⟩ := List.mem_map.mp member
      exact host.2.writable_toToml
  unfold toToml
  dsimp only
  split_ifs with noHosts
  · exact .table (by simp) (by simpa using connections)
  · have inOrder : ["connections", "ssh_hosts"].Pairwise (· < ·) := by decide
    exact .table inOrder (by simpa using ⟨connections, hosts⟩)

end ConfigFile

/-! ### The text of the file -/

namespace ConfigFormat

/-- The crate is as documented, and what it reads are tables that have each key once. -/
structure Documented (format : ConfigFormat) : Prop where
  toml : format.toml.Documented
  tables : ∀ text value, format.toml.parse text = .ok value → value.Writable

variable {format : ConfigFormat} {file : ConfigFile} {text : String}

theorem plain_parse (documented : format.Documented) (isParsed : format.parse text = .ok file) :
    file.Plain := by
  unfold parse at isParsed
  split at isParsed
  · cases isParsed
  · split at isParsed
    · cases isParsed
      exact ConfigFile.plain_ofToml (documented.tables _ _ ‹_›) ‹_›
    · cases isParsed

theorem exists_render (documented : format.Documented) (plain : file.Plain) :
    ∃ text, format.render file = .ok text :=
  (documented.toml.renders _).mpr (ConfigFile.writable_toToml plain)

theorem parse_render (documented : format.Documented) (plain : file.Plain)
    (rendered : format.render file = .ok text) :
    ∃ again, format.parse text = .ok again ∧ again.view = file.view := by
  obtain ⟨again, isRead, same⟩ :=
    ConfigFile.ofToml_toToml plain (ConfigFile.writable_toToml plain)
  refine ⟨again, ?_, same⟩
  simp only [parse, documented.toml.parses _ _ rendered, isRead]

end ConfigFormat

end Porthmos
