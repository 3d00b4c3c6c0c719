import Porthmos.ConnectionDialog
import Porthmos.ConnectionLabels

/-!
# What a draft is valid for

A draft is valid if each of its parts is, and the profile is then made of the parts one by one.
-/

namespace Porthmos

variable {lowercase : String → String} {draft : ProfileDraft} {form : ConnectionForm}
  {original preserveFrom : Option ConnectionEntry} {profile : ConnectionProfile}

/-! ### Options -/

section Options

variable {α : Type} {options : List (String × α)}

theorem lookup_cons (name key : String) (value : α) :
    ((name, value) :: options).lookup key = if key = name then some value else options.lookup key := by
  rw [List.lookup_cons]
  by_cases same : key = name
  · rw [if_pos same, same, beq_self_eq_true]
  · rw [if_neg same, beq_eq_false_iff_ne.mpr same]

theorem lookup_filter (options : List (String × α)) (keeps : String → Bool) (key : String) :
    (options.filter fun option => keeps option.1).lookup key =
      if keeps key then options.lookup key else none := by
  induction options with
  | nil => simp
  | cons option options ih =>
    obtain ⟨name, value⟩ := option
    rw [List.filter_cons, lookup_cons]
    by_cases isKey : key = name
    · subst isKey
      cases kept : keeps key with
      | true => rw [if_pos rfl, if_pos rfl, lookup_cons, if_pos rfl, if_pos rfl]
      | false =>
        rw [kept] at ih
        exact ih
    · rw [if_neg isKey, ← ih]
      split_ifs
      · rw [lookup_cons, if_neg isKey]
      · rfl

theorem lookup_insertOption (key other : String) (value : α) :
    (insertOption options key value).lookup other =
      if other = key then some value else options.lookup other := by
  have kept := lookup_filter options (fun name => decide (name ≠ key)) other
  unfold insertOption
  rw [List.lookup_append, kept, lookup_cons, List.lookup_nil]
  by_cases same : other = key <;> simp [same]

end Options

theorem bind_eq_ok {error α β : Type} {first : Except error α} {next : α → Except error β}
    {result : β} : first >>= next = .ok result ↔ ∃ value, first = .ok value ∧
      next value = .ok result := by
  cases first with
  | error err => simp [Bind.bind, Except.bind]
  | ok value => simp [Bind.bind, Except.bind]

/-! ### The parts of a draft -/

@[simp]
theorem required_eq_ok {value label : String} {isRequired : Bool} :
    required value label isRequired = .ok () ↔ (isRequired = true → value ≠ "") := by
  unfold required
  split_ifs <;> simp_all

namespace ProfileDraft

/-- What the draft gives for a plain option. -/
def fieldValue (draft : ProfileDraft) (field : OptionField) : Option String :=
  if field.kind = .secret then none
  else
    let value := trim ((draft.options.lookup field.key).getD "")
    if value = "" then none else some value

/-- Whether a secret stays in the keyring. -/
def keeps (draft : ProfileDraft) (original : Option ConnectionEntry) (field : OptionField) : Bool :=
  field.kind = .secret ∧ hasMarker original field.key ∧
    (draft.secretOptions.lookup field.key).getD .keep = .keep

structure FieldValid (draft : ProfileDraft) (original : Option ConnectionEntry)
    (field : OptionField) : Prop where
  secret : field.kind = .secret → requiredSecret ((draft.secretOptions.lookup field.key).getD .keep)
    field.label field.required (hasMarker original field.key) true = .ok ()
  plain : field.kind ≠ .secret → field.required = true → draft.fieldValue field ≠ none
  accepted : ∀ value, draft.fieldValue field = some value → accepted field value = .ok ()

/-- What a field adds to the markers and the options. -/
def withField (draft : ProfileDraft) (original : Option ConnectionEntry)
    (sofar : List String × List (String × String)) (field : OptionField) :
    List String × List (String × String) :=
  (if draft.keeps original field then sofar.1 ++ [field.key] else sofar.1,
    match draft.fieldValue field with
    | none => sofar.2
    | some value => insertOption sofar.2 field.key value)

theorem addField_eq_ok {sofar next : List String × List (String × String)} {field : OptionField} :
    draft.addField original sofar field = .ok next ↔
      draft.FieldValid original field ∧ next = draft.withField original sofar field := by
  unfold addField
  split_ifs with isSecret
  · have noValue : draft.fieldValue field = none := if_pos isSecret
    have stays : draft.keeps original field = true ↔ hasMarker original field.key = true ∧
        (draft.secretOptions.lookup field.key).getD .keep = .keep := by
      simp [keeps, isSecret]
    cases checked : requiredSecret ((draft.secretOptions.lookup field.key).getD .keep) field.label
        field.required (hasMarker original field.key) true with
    | error err =>
      constructor
      · intro failed
        simp [checked, Bind.bind, Except.bind] at failed
      · rintro ⟨valid, _⟩
        rw [valid.secret isSecret] at checked
        cases checked
    | ok _ =>
      have valid : draft.FieldValid original field :=
        ⟨fun _ => checked, fun isPlain => absurd isSecret isPlain, by simp [noValue]⟩
      simp only [checked, Bind.bind, Except.bind, valid, true_and, withField, noValue, stays,
        Except.ok.injEq]
      split_ifs <;> exact eq_comm
  · have isValue : draft.fieldValue field =
        if trim ((draft.options.lookup field.key).getD "") = "" then none
        else some (trim ((draft.options.lookup field.key).getD "")) := if_neg isSecret
    have stays : draft.keeps original field = false := by simp [keeps, isSecret]
    generalize trim ((draft.options.lookup field.key).getD "") = value at isValue ⊢
    by_cases isEmpty : value = ""
    · rw [if_pos isEmpty] at isValue
      cases checked : required value field.label field.required with
      | error err =>
        constructor
        · intro failed
          simp [checked, Bind.bind, Except.bind] at failed
        · rintro ⟨valid, _⟩
          have isOptional : ¬field.required = true := fun isRequired =>
            valid.plain isSecret isRequired isValue
          rw [required_eq_ok.mpr fun isRequired => absurd isRequired isOptional] at checked
          cases checked
      | ok _ =>
        have isOptional : ¬field.required = true := fun isRequired =>
          required_eq_ok.mp checked isRequired isEmpty
        have valid : draft.FieldValid original field :=
          ⟨fun isPlain => absurd isPlain isSecret, fun _ isRequired => absurd isRequired isOptional,
            by simp [isValue]⟩
        simp only [checked, Bind.bind, Except.bind, if_pos isEmpty, valid, true_and, withField,
          isValue, stays, Except.ok.injEq, Bool.false_eq_true, if_false]
        exact eq_comm
    · rw [if_neg isEmpty] at isValue
      have checked : required value field.label field.required = .ok () :=
        required_eq_ok.mpr fun _ => isEmpty
      cases isAccepted : accepted field value with
      | error err =>
        constructor
        · intro failed
          simp [checked, isAccepted, if_neg isEmpty, Bind.bind, Except.bind] at failed
        · rintro ⟨valid, _⟩
          rw [valid.accepted value isValue] at isAccepted
          cases isAccepted
      | ok _ =>
        have valid : draft.FieldValid original field := by
          refine ⟨fun isPlain => absurd isPlain isSecret, fun _ _ => by simp [isValue], ?_⟩
          intro other isOther
          cases isValue.symm.trans isOther
          exact isAccepted
        simp only [checked, isAccepted, Bind.bind, Except.bind, if_neg isEmpty, valid, true_and,
          withField, isValue, stays, Except.ok.injEq, Bool.false_eq_true, if_false]
        exact eq_comm

theorem foldlM_addField_eq_ok {fields : List OptionField}
    {sofar next : List String × List (String × String)} :
    fields.foldlM (draft.addField original) sofar = .ok next ↔
      (∀ field ∈ fields, draft.FieldValid original field) ∧
        next = fields.foldl (draft.withField original) sofar := by
  induction fields generalizing sofar with
  | nil => simp [Pure.pure, Except.pure, eq_comm]
  | cons field fields ih =>
    rw [List.foldlM_cons, List.forall_mem_cons, List.foldl_cons]
    cases added : draft.addField original sofar field with
    | error err =>
      constructor
      · intro failed
        cases failed
      · rintro ⟨⟨valid, _⟩, _⟩
        rw [addField_eq_ok.mpr ⟨valid, rfl⟩] at added
        cases added
    | ok middle =>
      obtain ⟨valid, rfl⟩ := addField_eq_ok.mp added
      exact ih.trans (and_congr_left fun _ => (and_iff_right valid).symm)

theorem foldl_withField_fst (fields : List OptionField)
    (sofar : List String × List (String × String)) :
    (fields.foldl (draft.withField original) sofar).1 =
      sofar.1 ++ (fields.filter (draft.keeps original)).map OptionField.key := by
  induction fields generalizing sofar with
  | nil => simp
  | cons field fields ih =>
    rw [List.foldl_cons, ih, List.filter_cons, withField]
    split_ifs <;> simp

/-- Each plain option is what its field gives, and the others are as they were. -/
theorem lookup_foldl_withField {fields : List OptionField}
    (distinct : (fields.map OptionField.key).Nodup)
    (sofar : List String × List (String × String)) (key : String) :
    (fields.foldl (draft.withField original) sofar).2.lookup key =
      ((fields.find? fun field => field.key = key).bind draft.fieldValue).or
        (sofar.2.lookup key) := by
  induction fields generalizing sofar with
  | nil => simp
  | cons field fields ih =>
    obtain ⟨isNew, distinct⟩ := List.nodup_cons.mp distinct
    rw [List.foldl_cons, ih distinct, List.find?_cons]
    by_cases isKey : field.key = key
    · have noOther : (fields.find? fun other => other.key = key) = none := by
        rw [List.find?_eq_none]
        intro other member same
        exact isNew (List.mem_map.mpr ⟨other, member, (of_decide_eq_true same).trans isKey.symm⟩)
      rw [noOther, withField]
      cases isValue : draft.fieldValue field <;>
        simp [isKey, isValue, lookup_insertOption]
    · have unchanged : (draft.withField original sofar field).2.lookup key =
          sofar.2.lookup key := by
        rw [withField]
        cases draft.fieldValue field with
        | none => rfl
        | some value => exact (lookup_insertOption ..).trans (if_neg (Ne.symm isKey))
      rw [unchanged]
      simp [isKey]

/-- The parts of a valid draft. -/
structure Valid (draft : ProfileDraft) (form : ConnectionForm) (preserveFrom : Option ConnectionEntry)
    (port : Nat) : Prop where
  name : trim draft.name ≠ ""
  host : form.host.required = true → trim draft.host ≠ ""
  username : form.username.required = true → trim draft.username ≠ ""
  password : requiredSecret draft.password form.password.label form.password.required
    (hasMarker (preserveFrom.filter fun entry => entry.protocol = draft.protocol) passwordMarker)
    false = .ok ()
  port : draft.portOf form = .ok port
  fields : ∀ field ∈ form.options, draft.FieldValid
    (preserveFrom.filter fun entry => entry.protocol = draft.protocol) field

/-- The profile of a valid draft. -/
def toProfile (lowercase : String → String) (draft : ProfileDraft) (form : ConnectionForm)
    (preserveFrom : Option ConnectionEntry) (port : Nat) : ConnectionProfile :=
  let original := preserveFrom.filter fun entry => entry.protocol = draft.protocol
  let sofar := form.options.foldl (draft.withField original)
    (if hasMarker original passwordMarker ∧ draft.password = .keep then [passwordMarker] else [],
      preserved form original)
  { name := trim draft.name
    protocol := draft.protocol
    host := trim draft.host
    port := some port
    username := trim draft.username
    group := normalizeGroup draft.group
    tags := parseTags lowercase draft.tags
    inKeyring := sofar.1
    options := if trim draft.remotePath ≠ "" then
      insertOption sofar.2 remotePathKey (trim draft.remotePath) else sofar.2 }

theorem validate_eq_ok : draft.validate lowercase form preserveFrom = .ok profile ↔
    ∃ port, draft.Valid form preserveFrom port ∧
      profile = draft.toProfile lowercase form preserveFrom port := by
  unfold validate
  dsimp only
  simp only [bind_eq_ok, foldlM_addField_eq_ok, Except.ok.injEq]
  constructor
  · rintro ⟨_, name, _, host, _, username, _, password, port, isPort, sofar, ⟨fields, rfl⟩, rfl⟩
    exact ⟨port, ⟨required_eq_ok.mp name rfl, required_eq_ok.mp host, required_eq_ok.mp username,
      password, isPort, fields⟩, rfl⟩
  · rintro ⟨port, valid, rfl⟩
    exact ⟨(), required_eq_ok.mpr fun _ => valid.name, (), required_eq_ok.mpr valid.host, (),
      required_eq_ok.mpr valid.username, (), valid.password, port, valid.port, _,
      ⟨valid.fields, rfl⟩, rfl⟩

end ProfileDraft

end Porthmos
