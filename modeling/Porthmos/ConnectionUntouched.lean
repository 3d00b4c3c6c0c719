import Porthmos.ConnectionValid

/-!
# Submitting the dialog of a connection as it was opened

Each field submits what the entry has, or the default of its option.  A secret that is saved is
kept, and one that is not is empty.
-/

namespace Porthmos

open ConnectionDialog

/-! ### What the dialog submits -/

/-- The entry that the list shows for a profile. -/
def listedEntry (lowercase : String → String) (profile : ConnectionProfile) (defaultPort : Nat) :
    ConnectionEntry :=
  (ConnectionEntry.fromProfile profile defaultPort).normalized lowercase

/-- What is sent when the dialog of an entry is submitted as it was opened. -/
def untouchedDraft (protocols : List ProtocolInfo) (title : String) (entry : ConnectionEntry) :
    ProfileDraft :=
  submittedDraft protocols (submitted (buildEdit protocols title entry))

theorem choice_submittedValue {choices : List (String × String)} {wanted : String}
    (offered : ∃ choice ∈ choices, choice.1 = wanted) (key label : String) :
    (FormField.choice key label choices wanted).submittedValue = wanted := by
  have found : ∃ index, choices.findIdx? (fun choice => choice.1 = wanted) = some index := by
    rw [← Option.isSome_iff_exists, List.findIdx?_isSome, List.any_eq_true]
    obtain ⟨choice, member, same⟩ := offered
    exact ⟨choice, member, decide_eq_true same⟩
  obtain ⟨index, found⟩ := found
  obtain ⟨bound, same, _⟩ := List.findIdx?_eq_some_iff_getElem.mp found
  simp only [FormField.choice, FormField.submittedValue, found, Option.getD_some,
    List.getElem?_eq_getElem bound, Option.map_some]
  exact of_decide_eq_true same

theorem accepted_choice {field : OptionField} {choices : List OptionChoice} {default : String}
    (isKind : field.kind = .choice choices default) (value : String) :
    accepted field value = .ok () ↔ ∃ choice ∈ choices, choice.value = value := by
  simp [accepted, isKind]

theorem accepted_toggle {field : OptionField} {default : Bool} (isKind : field.kind = .toggle default)
    (value : String) : accepted field value = .ok () ↔ value = "true" ∨ value = "false" := by
  simp only [accepted, isKind]
  split_ifs with another
  · simp [another.1, another.2]
  · simp only [true_iff]
    tauto

theorem filter_of_forall {saved : Option String} {test : String → Bool}
    (all : ∀ value ∈ saved, test value = true) : saved.filter test = saved := by
  cases saved with
  | none => rfl
  | some value => simp [all value rfl]

/-- A plain option is submitted as it is saved, or as its default. -/
theorem optionField_submittedValue {field : OptionField} {default : String}
    (isDefault : field.kind.defaultValue = some default) (accepts : accepted field default = .ok ())
    {saved : Option String} (isAccepted : ∀ value ∈ saved, accepted field value = .ok ())
    (savedSecrets : List String) :
    (optionField field saved savedSecrets).submittedValue = saved.getD default := by
  have wanted : accepted field (saved.getD default) = .ok () := by
    cases saved with
    | none => exact accepts
    | some value => exact isAccepted value rfl
  cases isKind : field.kind with
  | text =>
    rw [isKind] at isDefault
    cases isDefault
    simp only [optionField, isKind]
    rfl
  | secret =>
    rw [isKind] at isDefault
    cases isDefault
  | choice choices =>
    rw [isKind] at isDefault
    cases isDefault
    obtain ⟨choice, member, same⟩ := (accepted_choice isKind _).mp wanted
    have offered : saved.filter (fun value => (choices.map fun choice =>
        (choice.value, choice.label)).any fun choice => choice.1 = value) = saved :=
      filter_of_forall fun value isSaved => by
        simpa using (accepted_choice isKind value).mp (isAccepted value isSaved)
    simp only [optionField, isKind]
    rw [offered]
    exact choice_submittedValue ⟨_, List.mem_map_of_mem member, same⟩ ..
  | toggle =>
    rw [isKind] at isDefault
    cases isDefault
    have offered : saved.filter (fun value => value = "true" ∨ value = "false") = saved :=
      filter_of_forall fun value isSaved =>
        decide_eq_true ((accepted_toggle isKind value).mp (isAccepted value isSaved))
    simp only [optionField, isKind]
    rw [offered]
    refine choice_submittedValue ?_ ..
    rcases (accepted_toggle isKind _).mp wanted with same | same <;> rw [same] <;>
      simp [toggleChoices]

theorem optionField_key (field : OptionField) (saved : Option String) (savedSecrets : List String) :
    (optionField field saved savedSecrets).key = field.key := by
  unfold optionField
  split
  · split_ifs <;> rfl
  all_goals rfl

theorem optionField_secret {field : OptionField} (isSecret : field.kind = .secret)
    (savedSecrets : List String) :
    secretEdit (optionField field none savedSecrets).submittedValue =
      if field.key ∈ savedSecrets then .keep else .clear := by
  simp only [optionField, isSecret, List.any_eq_true, decide_eq_true_eq, exists_eq_right]
  split_ifs
  · rfl
  · rfl

/-! ### The draft of what is submitted -/

theorem addValue_secret {secrets : List String} {key : String} (isSecret : key ∈ secrets)
    (draft : ProfileDraft) (value : String) :
    addValue secrets draft (key, value) =
      { draft with secretOptions := insertOption draft.secretOptions key (secretEdit value) } :=
  if_pos isSecret

theorem addValue_plain {secrets : List String} {key : String} (isPlain : key ∉ secrets)
    (isOption : key ∉ reservedKeys) (draft : ProfileDraft) (value : String) :
    addValue secrets draft (key, value) =
      { draft with options := insertOption draft.options key value } := by
  simp only [reservedKeys, List.mem_cons, not_or] at isOption
  simp only [addValue, if_neg isPlain]
  split <;> simp_all

/-- Each option of a form is put where the draft looks for it. -/
theorem foldl_addValue (secrets : List String) {fields : List OptionField}
    (distinct : (fields.map OptionField.key).Nodup)
    (notReserved : ∀ field ∈ fields, field.key ∉ reservedKeys) (value : OptionField → String)
    (draft : ProfileDraft) :
    ∃ options secretOptions,
      (fields.map fun field => (field.key, value field)).foldl (addValue secrets) draft =
        { draft with options := options, secretOptions := secretOptions } ∧
      (∀ key, options.lookup key = if key ∈ secrets then draft.options.lookup key else
        ((fields.find? fun field => field.key = key).map value).or (draft.options.lookup key)) ∧
      ∀ key, secretOptions.lookup key = if key ∈ secrets then
        ((fields.find? fun field => field.key = key).map fun field =>
          secretEdit (value field)).or (draft.secretOptions.lookup key)
        else draft.secretOptions.lookup key := by
  induction fields generalizing draft with
  | nil => exact ⟨_, _, rfl, by simp, by simp⟩
  | cons field fields ih =>
    obtain ⟨isNew, distinct⟩ := List.nodup_cons.mp distinct
    obtain ⟨isOption, notReserved⟩ := List.forall_mem_cons.mp notReserved
    have noOther : (fields.find? fun other => other.key = field.key) = none := by
      rw [List.find?_eq_none]
      intro other member same
      exact isNew (List.mem_map.mpr ⟨other, member, of_decide_eq_true same⟩)
    rw [List.map_cons, List.foldl_cons]
    by_cases isSecret : field.key ∈ secrets
    · rw [addValue_secret isSecret]
      obtain ⟨options, secretOptions, isDraft, plain, secret⟩ := ih distinct notReserved
        { draft with
          secretOptions := insertOption draft.secretOptions field.key (secretEdit (value field)) }
      refine ⟨options, secretOptions, isDraft, fun key => ?_, fun key => ?_⟩
      · rw [plain, List.find?_cons]
        by_cases isKey : field.key = key
        · subst isKey
          simp [isSecret]
        · simp [isKey]
      · rw [secret, List.find?_cons, lookup_insertOption]
        by_cases isKey : field.key = key
        · subst isKey
          simp [isSecret, noOther]
        · simp [isKey, Ne.symm isKey]
    · rw [addValue_plain isSecret isOption]
      obtain ⟨options, secretOptions, isDraft, plain, secret⟩ := ih distinct notReserved
        { draft with options := insertOption draft.options field.key (value field) }
      refine ⟨options, secretOptions, isDraft, fun key => ?_, fun key => ?_⟩
      · rw [plain, List.find?_cons, lookup_insertOption]
        by_cases isKey : field.key = key
        · subst isKey
          simp [isSecret, noOther]
        · simp [isKey, Ne.symm isKey]
      · rw [secret, List.find?_cons]
        by_cases isKey : field.key = key
        · subst isKey
          simp [isSecret]
        · simp [isKey]

section Untouched

variable (protocols : List ProtocolInfo) (title : String) (entry : ConnectionEntry)

theorem protocol_offered (protocol : String) :
    ∃ choice ∈ protocolChoices protocols (some protocol), choice.1 = protocol := by
  simp only [protocolChoices]
  split_ifs with registered
  · simpa using registered
  · exact ⟨_, List.mem_append_right _ (List.mem_singleton_self _), rfl⟩

/-- What the fields that every connection has are submitted as. -/
def commonValues : List (String × String) :=
  [("protocol", entry.protocol), ("name", entry.name), ("group", entry.group.getD ""),
    ("tags", ", ".intercalate entry.tags), ("host", entry.host), ("port", entry.port.repr),
    ("username", entry.username), ("password", if entry.savedPassword then keptSecret else ""),
    ("remote_path", (entry.options.lookup remotePathKey).getD "")]

/-- The draft that they make. -/
def commonDraft : ProfileDraft where
  protocol := entry.protocol
  name := entry.name
  host := entry.host
  port := entry.port.repr
  username := entry.username
  password := if entry.savedPassword then .keep else .clear
  remotePath := (entry.options.lookup remotePathKey).getD ""
  group := entry.group.getD ""
  tags := ", ".intercalate entry.tags
  options := []
  secretOptions := []

theorem submitted_buildEdit : submitted (buildEdit protocols title entry) = commonValues entry ++
      (formFor protocols entry.protocol).options.map fun field =>
        (field.key, (optionField field ((plainOptions protocols entry).lookup field.key)
          entry.inKeyring).submittedValue) := by
  simp only [submitted, buildEdit, fields, List.map_append, List.map_cons, List.map_nil,
    List.map_map, commonValues]
  congr 1
  · have isProtocol := choice_submittedValue (protocol_offered protocols entry.protocol) "protocol"
      "Protocol"
    rw [isProtocol]
    cases entry.savedPassword <;> rfl
  · exact List.map_congr_left fun field _ => Prod.ext (optionField_key ..) rfl

theorem foldl_commonValues {secrets : List String} (notReserved : ∀ key ∈ reservedKeys,
    key ∉ secrets) : (commonValues entry).foldl (addValue secrets) .default = commonDraft entry := by
  simp only [reservedKeys, List.forall_mem_cons] at notReserved
  obtain ⟨protocol, name, group, tags, host, port, username, password, _, remotePath, _⟩ :=
    notReserved
  simp only [commonValues, List.foldl_cons, List.foldl_nil, addValue, protocol, name, group, tags,
    host, port, username, password, remotePath, if_false]
  cases isSaved : entry.savedPassword <;> simp [commonDraft, isSaved, secretEdit, keptSecret,
    ProfileDraft.default]

/-- The draft of a dialog that nobody touched. -/
structure Untouched (form : ConnectionForm) (entry : ConnectionEntry) (draft : ProfileDraft) :
    Prop where
  protocol : draft.protocol = entry.protocol
  name : draft.name = entry.name
  group : draft.group = entry.group.getD ""
  tags : draft.tags = ", ".intercalate entry.tags
  host : draft.host = entry.host
  port : draft.port = entry.port.repr
  username : draft.username = entry.username
  password : draft.password = if entry.savedPassword then .keep else .clear
  remotePath : draft.remotePath = (entry.options.lookup remotePathKey).getD ""
  plain : ∀ field ∈ form.options, ∀ default ∈ field.kind.defaultValue,
    (∀ value, entry.options.lookup field.key = some value → accepted field value = .ok ()) →
    draft.options.lookup field.key = some ((entry.options.lookup field.key).getD default)
  secret : ∀ field ∈ form.options, field.kind = .secret →
    draft.secretOptions.lookup field.key =
      some (if field.key ∈ entry.inKeyring then .keep else .clear)
  noOther : ∀ key edit, draft.secretOptions.lookup key = some edit →
    edit = if key ∈ entry.inKeyring then .keep else .clear

theorem mem_secretKeys {form : ConnectionForm} (proper : form.Proper)
    (isForm : (formFor protocols entry.protocol).options = form.options) {field : OptionField}
    (member : field ∈ form.options) :
    field.key ∈ secretKeys protocols entry.protocol ↔ field.kind = .secret := by
  simp only [secretKeys, isForm, List.mem_map, List.mem_filter, decide_eq_true_eq]
  constructor
  · rintro ⟨other, ⟨isOther, isSecret⟩, same⟩
    have found := proper.option_eq_some isOther
    rw [same, proper.option_eq_some member] at found
    exact Option.some_inj.mp found ▸ isSecret
  · exact fun isSecret => ⟨field, ⟨member, isSecret⟩, rfl⟩

theorem untouched_untouchedDraft {form : ConnectionForm} (proper : form.Proper)
    (isForm : (formFor protocols entry.protocol).options = form.options) :
    Untouched form entry (untouchedDraft protocols title entry) := by
  have isSecretKey {field : OptionField} (member : field ∈ form.options) :=
    mem_secretKeys protocols entry proper isForm member
  have noneReserved : ∀ key ∈ reservedKeys, key ∉ secretKeys protocols entry.protocol := by
    intro key reserved member
    obtain ⟨field, member, same⟩ := List.mem_map.mp member
    rw [isForm] at member
    exact proper.not_reserved (List.mem_filter.mp member).1 (same ▸ reserved)
  obtain ⟨options, secretOptions, isDraft, plain, secret⟩ := foldl_addValue
    (secretKeys protocols entry.protocol) proper.distinct
    (fun _ member => proper.not_reserved member)
    (fun field => (optionField field ((plainOptions protocols entry).lookup field.key)
      entry.inKeyring).submittedValue)
    (commonDraft entry)
  have same : untouchedDraft protocols title entry =
      { commonDraft entry with options := options, secretOptions := secretOptions } := by
    unfold untouchedDraft submittedDraft
    rw [submitted_buildEdit, isForm]
    have isProtocol : (((commonValues entry ++ form.options.map fun field =>
        (field.key, (optionField field ((plainOptions protocols entry).lookup field.key)
          entry.inKeyring).submittedValue)).lookup "protocol").getD "") = entry.protocol := by
      simp [commonValues]
    rw [isProtocol, ConnectionDialog.draft, List.foldl_append, foldl_commonValues entry noneReserved]
    exact isDraft
  have plainOption (key : String) : (plainOptions protocols entry).lookup key =
      if key ∈ secretKeys protocols entry.protocol then none else entry.options.lookup key := by
    have kept := lookup_filter entry.options
      (fun name => decide (name ∉ secretKeys protocols entry.protocol)) key
    refine kept.trans ?_
    by_cases isSecret : key ∈ secretKeys protocols entry.protocol <;> simp [isSecret]
  rw [same]
  constructor
  case plain =>
      intro field member default isDefault isAccepted
      have isPlain : field.key ∉ secretKeys protocols entry.protocol := by
        rw [isSecretKey member]
        intro isSecret
        simp [isSecret, OptionKind.defaultValue] at isDefault
      have submittedField := optionField_submittedValue isDefault
        (proper.accepted field member default isDefault) isAccepted entry.inKeyring
      have found : (form.options.find? fun other => other.key = field.key) = some field :=
        proper.option_eq_some member
      dsimp only
      rw [plain, if_neg isPlain, found, Option.map_some, plainOption, if_neg isPlain]
      simp [submittedField]
  case secret =>
      intro field member isSecret
      have isKey := (isSecretKey member).mpr isSecret
      have found : (form.options.find? fun other => other.key = field.key) = some field :=
        proper.option_eq_some member
      dsimp only
      rw [secret, if_pos isKey, found, Option.map_some, plainOption, if_pos isKey]
      simp [optionField_secret isSecret]
  case noOther =>
      intro key edit isEdit
      dsimp only at isEdit
      rw [secret] at isEdit
      split_ifs at isEdit with isKey
      · obtain ⟨field, member, rfl⟩ := List.mem_map.mp isKey
        rw [isForm] at member
        obtain ⟨member, isSecret⟩ := List.mem_filter.mp member
        have found : (form.options.find? fun other => other.key = field.key) = some field :=
          proper.option_eq_some member
        rw [found, Option.map_some, plainOption, if_pos isKey] at isEdit
        simpa [optionField_secret (of_decide_eq_true isSecret), eq_comm] using isEdit
      · simp [commonDraft] at isEdit
  all_goals rfl

end Untouched

end Porthmos
