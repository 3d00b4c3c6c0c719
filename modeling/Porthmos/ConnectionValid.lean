import Porthmos.ConnectionDrafts
import Porthmos.ProtocolForms

/-!
# What a validated profile is like

A profile that was made of a valid draft keeps to its form: its texts are trimmed, its values are
accepted, and the markers are those of its form.
-/

namespace Porthmos

open ConnectionDialog

/-! ### Forms -/

/-- What an option is when nothing is saved for it. -/
def OptionKind.defaultValue : OptionKind → Option String
  | .text default | .choice _ default => some default
  | .toggle default => some (toggleText default)
  | .secret => none

/-- What every form of a protocol is like: its keys are its own, and its defaults are accepted. -/
structure ConnectionForm.Proper (form : ConnectionForm) : Prop where
  distinct : (form.options.map OptionField.key).Nodup
  noCollision : form.reservedKeyCollisions = []
  port : 0 < form.port.default ∧ form.port.default < 65536
  trimmed : ∀ field ∈ form.options, ∀ default ∈ field.kind.defaultValue, trim default = default
  accepted : ∀ field ∈ form.options, ∀ default ∈ field.kind.defaultValue,
    accepted field default = .ok ()

theorem proper_of_builtin : ∀ info ∈ builtinProtocols, info.form.Proper := by
  have proper {form : ConnectionForm} (distinct : (form.options.map OptionField.key).Nodup)
      (noCollision : form.reservedKeyCollisions = [])
      (port : 0 < form.port.default ∧ form.port.default < 65536)
      (defaults : (form.options.all fun field => field.kind.defaultValue.all fun default =>
        decide (trim default = default ∧ accepted field default = .ok ())) = true) :
      form.Proper := by
    simp only [List.all_eq_true, Option.all_eq_true, decide_eq_true_eq] at defaults
    exact ⟨distinct, noCollision, port, fun field member default isDefault =>
      (defaults field member default isDefault).1, fun field member default isDefault =>
      (defaults field member default isDefault).2⟩
  simp only [builtinProtocols, List.forall_mem_cons]
  refine ⟨?_, ?_, ?_, ?_, ?_, by simp⟩
  all_goals exact proper (by decide) (by decide) (by decide) (by decide)

/-! ### Profiles -/

/-- What every profile that was made of a valid draft keeps to. -/
structure WellFormed (lowercase : String → String) (form : ConnectionForm)
    (profile : ConnectionProfile) : Prop where
  name : trim profile.name = profile.name ∧ profile.name ≠ ""
  host : trim profile.host = profile.host ∧ (form.host.required = true → profile.host ≠ "")
  username : trim profile.username = profile.username ∧
    (form.username.required = true → profile.username ≠ "")
  port : ∃ port, profile.port = some port ∧ 0 < port ∧ port < 65536
  group : ∃ raw, profile.group = normalizeGroup raw
  tags : CleanTags lowercase profile.tags
  inKeyring : profile.inKeyring =
    (if passwordMarker ∈ profile.inKeyring then [passwordMarker] else []) ++
      (form.options.filter fun field =>
        field.kind = .secret ∧ field.key ∈ profile.inKeyring).map OptionField.key
  remotePath : ∀ path, profile.options.lookup remotePathKey = some path →
    trim path = path ∧ path ≠ ""
  secrets : ∀ field ∈ form.options, field.kind = .secret →
    profile.options.lookup field.key = none
  values : ∀ field ∈ form.options, ∀ value, profile.options.lookup field.key = some value →
    trim value = value ∧ value ≠ "" ∧ accepted field value = .ok ()
  required : ∀ field ∈ form.options, field.kind ≠ .secret → field.required = true →
    profile.options.lookup field.key ≠ none

variable {lowercase : String → String} {draft : ProfileDraft} {form : ConnectionForm}
  {preserveFrom : Option ConnectionEntry}

theorem parsePort_lt {text : String} {port : Nat} (parsed : parsePort text = some port) :
    port < 65536 := by
  unfold parsePort at parsed
  dsimp only at parsed
  split_ifs at parsed with isPort
  cases parsed
  exact isPort.2.2

theorem portOf_cases {port : Nat} (isPort : draft.portOf form = .ok port) :
    port = form.port.default ∨ 0 < port ∧ port < 65536 := by
  unfold ProfileDraft.portOf at isPort
  dsimp only at isPort
  split_ifs at isPort
  · cases isPort
    exact .inl rfl
  · cases parsed : parsePort (trim draft.port) with
    | none =>
      rw [parsed] at isPort
      cases isPort
    | some number =>
      rw [parsed] at isPort
      dsimp only at isPort
      split_ifs at isPort with notZero
      cases isPort
      exact .inr ⟨Nat.pos_of_ne_zero notZero, parsePort_lt parsed⟩

theorem portOf_pos (proper : form.Proper) {port : Nat} (isPort : draft.portOf form = .ok port) :
    0 < port ∧ port < 65536 := by
  rcases portOf_cases isPort with rfl | typed
  · exact proper.port
  · exact typed

theorem ConnectionForm.not_reserved (noCollision : form.reservedKeyCollisions = [])
    {field : OptionField} (member : field ∈ form.options) : field.key ∉ reservedKeys := by
  intro reserved
  have collides : field.key ∈ form.reservedKeyCollisions :=
    List.mem_filter.mpr ⟨List.mem_map_of_mem member, List.contains_iff_mem.mpr reserved⟩
  rw [noCollision] at collides
  exact List.not_mem_nil collides

theorem ConnectionForm.Proper.not_reserved (proper : form.Proper) {field : OptionField}
    (member : field ∈ form.options) : field.key ∉ reservedKeys :=
  ConnectionForm.not_reserved proper.noCollision member

theorem find?_key {fields : List OptionField} (distinct : (fields.map OptionField.key).Nodup)
    {field : OptionField} (member : field ∈ fields) :
    (fields.find? fun other => other.key = field.key) = some field := by
  induction fields with
  | nil => cases member
  | cons first fields ih =>
    obtain ⟨isNew, distinct⟩ := List.nodup_cons.mp distinct
    rw [List.find?_cons]
    cases member with
    | head => simp
    | tail _ member =>
      have another : first.key ≠ field.key := fun same => isNew (same ▸ List.mem_map_of_mem member)
      simp [another, ih distinct member]

theorem ConnectionForm.Proper.option_eq_some (proper : form.Proper) {field : OptionField}
    (member : field ∈ form.options) : form.option field.key = some field :=
  find?_key proper.distinct member

theorem ConnectionForm.Proper.option_reserved (proper : form.Proper) {key : String}
    (reserved : key ∈ reservedKeys) : form.option key = none := by
  unfold option
  rw [List.find?_eq_none]
  intro field member same
  exact proper.not_reserved member (of_decide_eq_true same ▸ reserved)

/-- The plain options of a profile, one by one. -/
theorem lookup_toProfile (proper : form.Proper) (port : Nat) (key : String) :
    (draft.toProfile lowercase form preserveFrom port).options.lookup key =
      if key = remotePathKey then
        (if trim draft.remotePath = "" then none else some (trim draft.remotePath))
      else ((form.option key).bind draft.fieldValue).or ((ProfileDraft.preserved form
          (preserveFrom.filter fun entry => entry.protocol = draft.protocol)).lookup key) := by
  have atRemotePath : form.option remotePathKey = none :=
    proper.option_reserved (by decide)
  have notPreserved (original : Option ConnectionEntry) :
      (ProfileDraft.preserved form original).lookup remotePathKey = none := by
    cases original with
    | none => rfl
    | some entry =>
      have kept := lookup_filter entry.options
        (fun name => decide (name ≠ remotePathKey ∧ form.option name = none)) remotePathKey
      exact kept.trans (if_neg (by simp))
  unfold ProfileDraft.toProfile
  dsimp only
  by_cases isEmpty : trim draft.remotePath = ""
  · rw [if_neg (not_not_intro isEmpty), if_pos isEmpty,
      ProfileDraft.lookup_foldl_withField proper.distinct]
    by_cases isPath : key = remotePathKey
    · rw [isPath, if_pos rfl, notPreserved]
      have noField : (form.options.find? fun field => field.key = remotePathKey) = none :=
        atRemotePath
      simp [noField]
    · rw [if_neg isPath]
      rfl
  · rw [if_pos isEmpty, if_neg isEmpty, lookup_insertOption,
      ProfileDraft.lookup_foldl_withField proper.distinct]
    rfl

theorem fieldValue_eq_some {field : OptionField} {value : String}
    (isValue : draft.fieldValue field = some value) :
    field.kind ≠ .secret ∧ trim value = value ∧ value ≠ "" := by
  unfold ProfileDraft.fieldValue at isValue
  dsimp only at isValue
  split_ifs at isValue with isSecret isEmpty
  cases isValue
  exact ⟨isSecret, trim_trim _, isEmpty⟩

theorem lookup_toProfile_field (lowercase : String → String) (draft : ProfileDraft)
    (preserveFrom : Option ConnectionEntry) (proper : form.Proper) (port : Nat) {field : OptionField}
    (member : field ∈ form.options) :
    (draft.toProfile lowercase form preserveFrom port).options.lookup field.key =
      draft.fieldValue field := by
  have notPath : field.key ≠ remotePathKey := fun isPath =>
    proper.not_reserved member (isPath ▸ by decide)
  have isField := proper.option_eq_some member
  have notPreserved (original : Option ConnectionEntry) :
      (ProfileDraft.preserved form original).lookup field.key = none := by
    cases original with
    | none => rfl
    | some entry =>
      have kept := lookup_filter entry.options
        (fun name => decide (name ≠ remotePathKey ∧ form.option name = none)) field.key
      exact kept.trans (if_neg (by simp [isField]))
  rw [lookup_toProfile proper, if_neg notPath, isField, notPreserved]
  simp

section Markers

variable (lowercase) (draft) (preserveFrom)

/-- Whether the password stays in the keyring. -/
def ProfileDraft.keepsPassword (draft : ProfileDraft) (original : Option ConnectionEntry) : Prop :=
  hasMarker original passwordMarker = true ∧ draft.password = .keep

instance (original : Option ConnectionEntry) : Decidable (draft.keepsPassword original) :=
  inferInstanceAs (Decidable (_ ∧ _))

theorem inKeyring_toProfile (form : ConnectionForm) (port : Nat) :
    let original := preserveFrom.filter fun entry => entry.protocol = draft.protocol
    (draft.toProfile lowercase form preserveFrom port).inKeyring =
      (if draft.keepsPassword original then [passwordMarker] else []) ++
        (form.options.filter (draft.keeps original)).map OptionField.key :=
  draft.foldl_withField_fst ..

theorem password_mem_toProfile (proper : form.Proper) (port : Nat) :
    passwordMarker ∈ (draft.toProfile lowercase form preserveFrom port).inKeyring ↔
      draft.keepsPassword (preserveFrom.filter fun entry => entry.protocol = draft.protocol) := by
  rw [inKeyring_toProfile, List.mem_append]
  constructor
  · rintro (isMarker | isField)
    · split_ifs at isMarker with stays
      · exact stays
      · cases isMarker
    · obtain ⟨field, member, isMarker⟩ := List.mem_map.mp isField
      exact absurd (isMarker ▸ by decide) (proper.not_reserved (List.mem_filter.mp member).1)
  · intro stays
    simp [stays]

theorem mem_toProfile (proper : form.Proper) (port : Nat) {field : OptionField}
    (member : field ∈ form.options) :
    field.key ∈ (draft.toProfile lowercase form preserveFrom port).inKeyring ↔
      draft.keeps (preserveFrom.filter fun entry => entry.protocol = draft.protocol) field =
        true := by
  rw [inKeyring_toProfile, List.mem_append]
  constructor
  · rintro (isMarker | isField)
    · split_ifs at isMarker with stays
      · exact absurd (List.mem_singleton.mp isMarker ▸ by decide) (proper.not_reserved member)
      · cases isMarker
    · obtain ⟨other, kept, sameKey⟩ := List.mem_map.mp isField
      obtain ⟨isOther, kept⟩ := List.mem_filter.mp kept
      have same : other = field := by
        have found := proper.option_eq_some isOther
        rw [sameKey, proper.option_eq_some member] at found
        exact (Option.some_inj.mp found).symm
      exact same ▸ kept
  · intro stays
    exact .inr (List.mem_map_of_mem (List.mem_filter.mpr ⟨member, stays⟩))

end Markers

theorem wellFormed_toProfile (proper : form.Proper) {port : Nat}
    (valid : draft.Valid form preserveFrom port) :
    WellFormed lowercase form (draft.toProfile lowercase form preserveFrom port) := by
  have isField {field : OptionField} (member : field ∈ form.options) :=
    lookup_toProfile_field lowercase draft preserveFrom proper port member
  constructor
  case name => exact ⟨trim_trim _, valid.name⟩
  case host => exact ⟨trim_trim _, valid.host⟩
  case username => exact ⟨trim_trim _, valid.username⟩
  case port => exact ⟨port, rfl, portOf_pos proper valid.port⟩
  case group => exact ⟨draft.group, rfl⟩
  case tags => exact cleanTags_parseTags lowercase draft.tags
  case inKeyring =>
      have sameFields : form.options.filter (draft.keeps
            (preserveFrom.filter fun entry => entry.protocol = draft.protocol)) =
          form.options.filter fun field => field.kind = .secret ∧
            field.key ∈ (draft.toProfile lowercase form preserveFrom port).inKeyring := by
        refine List.filter_congr fun field member => Bool.eq_iff_iff.mpr ?_
        rw [decide_eq_true_eq, mem_toProfile lowercase draft preserveFrom proper port member]
        simp only [ProfileDraft.keeps, decide_eq_true_eq]
        exact ⟨fun stays => ⟨stays.1, stays⟩, And.right⟩
      rw [← sameFields]
      refine (inKeyring_toProfile ..).trans (congrArg (· ++ _) ?_)
      exact if_congr (password_mem_toProfile lowercase draft preserveFrom proper port).symm rfl rfl
  case remotePath =>
      intro path isPath
      rw [lookup_toProfile proper, if_pos rfl] at isPath
      split_ifs at isPath with isEmpty
      cases isPath
      exact ⟨trim_trim _, isEmpty⟩
  case secrets =>
      intro field member isSecret
      exact (isField member).trans (if_pos isSecret)
  case values =>
      intro field member value isValue
      rw [isField member] at isValue
      obtain ⟨_, trimmed, notEmpty⟩ := fieldValue_eq_some isValue
      exact ⟨trimmed, notEmpty, (valid.fields field member).accepted value isValue⟩
  case required =>
      intro field member isPlain isRequired
      rw [isField member]
      exact (valid.fields field member).plain isPlain isRequired

end Porthmos
