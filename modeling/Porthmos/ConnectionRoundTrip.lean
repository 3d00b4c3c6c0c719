import Porthmos.ConnectionUntouched

/-!
# Saving a connection that was not edited

The dialog of a saved connection is submitted as it was opened.  Its draft is valid and gives the
connection back, as long as every secret that the form requires is saved.
-/

namespace Porthmos

open ConnectionDialog

/-! ### Connections that are the same -/

/-- An option counts if it is not what its field is without it. -/
def ConnectionForm.significant (form : ConnectionForm) (options : List (String × String))
    (key : String) : Option String :=
  (options.lookup key).filter fun value =>
    decide (((form.option key).bind fun field => field.kind.defaultValue) ≠ some value)

structure SameProfile (form : ConnectionForm) (first second : ConnectionProfile) : Prop where
  name : second.name = first.name
  protocol : second.protocol = first.protocol
  host : second.host = first.host
  port : second.port = first.port
  username : second.username = first.username
  group : second.group = first.group
  tags : second.tags = first.tags
  inKeyring : second.inKeyring = first.inKeyring
  options : ∀ key, form.significant second.options key = form.significant first.options key

/-- No secret is replaced, and only one that is not saved is given as empty. -/
structure KeepsSecrets (draft : ProfileDraft) (entry : ConnectionEntry) : Prop where
  password : draft.password = .keep ∨
    draft.password = .clear ∧ passwordMarker ∉ entry.inKeyring
  options : ∀ key edit, draft.secretOptions.lookup key = some edit →
    edit = .keep ∨ edit = .clear ∧ key ∉ entry.inKeyring

/-- The form requires no secret that is not saved. -/
structure SecretsSaved (form : ConnectionForm) (profile : ConnectionProfile) : Prop where
  password : form.password.required = true → passwordMarker ∈ profile.inKeyring
  options : ∀ field ∈ form.options, field.kind = .secret → field.required = true →
    field.key ∈ profile.inKeyring

/-- No tag begins with the sign that is taken off. -/
def NoSigns (profile : ConnectionProfile) : Prop :=
  ∀ tag ∈ profile.tags, tag.toList.head? ≠ some '#'

/-- Opening and saving changes nothing. -/
def RoundTrips (lowercase : String → String) (protocols : List ProtocolInfo) (form : ConnectionForm)
    (profile : ConnectionProfile) : Prop :=
  ∀ title defaultPort,
    let entry := listedEntry lowercase profile defaultPort
    let draft := untouchedDraft protocols title entry
    KeepsSecrets draft entry ∧ ∃ again form', savingForm protocols draft (some entry) = some form' ∧
      draft.validate lowercase form' (some entry) = .ok again ∧ SameProfile form profile again

variable {lowercase : String → String} {draft : ProfileDraft} {form : ConnectionForm}
  {preserveFrom : Option ConnectionEntry}

/-! ### Validating what was not touched -/

section Listed

variable {profile : ConnectionProfile} {defaultPort : Nat}

theorem hasMarker_listedEntry (marker : String) :
    hasMarker (some (listedEntry lowercase profile defaultPort)) marker = true ↔
      marker ∈ profile.inKeyring := by
  simp [hasMarker, listedEntry, ConnectionEntry.normalized, ConnectionEntry.fromProfile]

theorem savedPassword_listedEntry :
    (listedEntry lowercase profile defaultPort).savedPassword = true ↔
      passwordMarker ∈ profile.inKeyring := by
  simp [listedEntry, ConnectionEntry.normalized, ConnectionEntry.fromProfile]

theorem tags_listedEntry (clean : CleanTags lowercase profile.tags) (noSigns : NoSigns profile) :
    (listedEntry lowercase profile defaultPort).tags = profile.tags :=
  normalizeTags_of_clean clean noSigns

theorem filter_listedEntry
    (untouched : Untouched form (listedEntry lowercase profile defaultPort) draft) :
    ((some (listedEntry lowercase profile defaultPort)).filter fun entry =>
      entry.protocol = draft.protocol) = some (listedEntry lowercase profile defaultPort) := by
  simp [untouched.protocol]

theorem portOf_untouched
    (untouched : Untouched form (listedEntry lowercase profile defaultPort) draft) {port : Nat}
    (isPort : profile.port = some port) (positive : 0 < port) (small : port < 65536) :
    draft.portOf form = .ok port := by
  have isText : draft.port = port.repr := by
    rw [untouched.port]
    simp [listedEntry, ConnectionEntry.normalized, ConnectionEntry.fromProfile, isPort]
  simp only [ProfileDraft.portOf, isText, trim_repr, if_neg Nat.repr_ne_empty,
    parsePort_repr small, if_pos positive.ne']

/-- An option that was not touched is as it was, or it is the default. -/
theorem fieldValue_untouched (wellFormed : WellFormed lowercase form profile) (proper : form.Proper)
    (untouched : Untouched form (listedEntry lowercase profile defaultPort) draft)
    {field : OptionField} (member : field ∈ form.options) :
    draft.fieldValue field = (profile.options.lookup field.key).or
      (field.kind.defaultValue.filter fun default => default ≠ "") := by
  unfold ProfileDraft.fieldValue
  split_ifs with isSecret
  · rw [wellFormed.secrets field member isSecret, isSecret]
    rfl
  · obtain ⟨default, isDefault⟩ : ∃ default, field.kind.defaultValue = some default := by
      cases isKind : field.kind <;> simp_all [OptionKind.defaultValue]
    have isOption : draft.options.lookup field.key =
        some ((profile.options.lookup field.key).getD default) :=
      untouched.plain field member default isDefault fun value isValue =>
        (wellFormed.values field member value isValue).2.2
    rw [isOption, isDefault]
    cases isValue : profile.options.lookup field.key with
    | none =>
      simp only [Option.getD_none, Option.getD_some, proper.trimmed field member default isDefault]
      by_cases isEmpty : default = "" <;> simp [isEmpty, Option.filter_some]
    | some value =>
      obtain ⟨trimmed, notEmpty, _⟩ := wellFormed.values field member value isValue
      simp [trimmed, notEmpty]

theorem fieldValid_untouched (wellFormed : WellFormed lowercase form profile)
    (proper : form.Proper) (saved : SecretsSaved form profile)
    (untouched : Untouched form (listedEntry lowercase profile defaultPort) draft)
    {field : OptionField} (member : field ∈ form.options) :
    draft.FieldValid (some (listedEntry lowercase profile defaultPort)) field := by
  have isValue := fieldValue_untouched wellFormed proper untouched member
  constructor
  case secret =>
      intro isSecret
      have inKeyring : (listedEntry lowercase profile defaultPort).inKeyring = profile.inKeyring :=
        rfl
      rw [untouched.secret field member isSecret, inKeyring, Option.getD_some]
      split_ifs with isSaved
      · simp [requiredSecret, (hasMarker_listedEntry _).mpr isSaved]
      · have optional : ¬field.required = true := fun isRequired =>
          isSaved (saved.options field member isSecret isRequired)
        simp [requiredSecret, optional]
  case plain =>
      intro isPlain isRequired
      rw [isValue]
      have present := wellFormed.required field member isPlain isRequired
      cases isOption : profile.options.lookup field.key with
      | none => exact absurd isOption present
      | some value => simp
  case accepted =>
      intro value isGiven
      rw [isValue] at isGiven
      cases isOption : profile.options.lookup field.key with
      | none =>
        rw [isOption, Option.none_or, Option.filter_eq_some_iff] at isGiven
        exact proper.accepted field member value isGiven.1
      | some kept =>
        rw [isOption, Option.some_or] at isGiven
        cases isGiven
        exact (wellFormed.values field member value isOption).2.2

theorem valid_untouched (wellFormed : WellFormed lowercase form profile) (proper : form.Proper)
    (saved : SecretsSaved form profile)
    (untouched : Untouched form (listedEntry lowercase profile defaultPort) draft) {port : Nat}
    (isPort : profile.port = some port) (positive : 0 < port) (small : port < 65536) :
    draft.Valid form (some (listedEntry lowercase profile defaultPort)) port := by
  have isName : draft.name = profile.name := untouched.name
  have isHost : draft.host = profile.host := untouched.host
  have isUsername : draft.username = profile.username := untouched.username
  constructor
  case name =>
      rw [isName, wellFormed.name.1]
      exact wellFormed.name.2
  case host =>
      rw [isHost, wellFormed.host.1]
      exact wellFormed.host.2
  case username =>
      rw [isUsername, wellFormed.username.1]
      exact wellFormed.username.2
  case password =>
      rw [filter_listedEntry untouched, untouched.password]
      by_cases isSaved : passwordMarker ∈ profile.inKeyring
      · simp [savedPassword_listedEntry.mpr isSaved, requiredSecret,
          (hasMarker_listedEntry _).mpr isSaved]
      · have notSaved : ¬(listedEntry lowercase profile defaultPort).savedPassword = true :=
          fun isMarked => isSaved (savedPassword_listedEntry.mp isMarked)
        rw [if_neg notSaved]
        exact required_eq_ok.mpr fun isRequired => absurd (saved.password isRequired) isSaved
  case port => exact portOf_untouched untouched isPort positive small
  case fields =>
      rw [filter_listedEntry untouched]
      exact fun field member => fieldValid_untouched wellFormed proper saved untouched member

theorem inKeyring_untouched (wellFormed : WellFormed lowercase form profile)
    (untouched : Untouched form (listedEntry lowercase profile defaultPort) draft) (port : Nat) :
    (draft.toProfile lowercase form (some (listedEntry lowercase profile defaultPort))
      port).inKeyring = profile.inKeyring := by
  have isListed : (listedEntry lowercase profile defaultPort).inKeyring = profile.inKeyring := rfl
  rw [inKeyring_toProfile, filter_listedEntry untouched, wellFormed.inKeyring]
  congr 1
  · refine if_congr ?_ rfl rfl
    unfold ProfileDraft.keepsPassword
    rw [hasMarker_listedEntry, untouched.password]
    refine ⟨And.left, fun isSaved => ⟨isSaved, if_pos (savedPassword_listedEntry.mpr isSaved)⟩⟩
  · refine congrArg (List.map _) (List.filter_congr fun field member => Bool.eq_iff_iff.mpr ?_)
    simp only [ProfileDraft.keeps, decide_eq_true_eq, hasMarker_listedEntry]
    constructor
    · exact fun kept => ⟨kept.1, kept.2.1⟩
    · rintro ⟨isSecret, isSaved⟩
      rw [untouched.secret field member isSecret, isListed, if_pos isSaved]
      exact ⟨isSecret, isSaved, rfl⟩

/-- Only an option that is as without it can be new. -/
theorem significant_untouched (wellFormed : WellFormed lowercase form profile)
    (proper : form.Proper)
    (untouched : Untouched form (listedEntry lowercase profile defaultPort) draft) (port : Nat)
    (key : String) :
    form.significant (draft.toProfile lowercase form
      (some (listedEntry lowercase profile defaultPort)) port).options key =
      form.significant profile.options key := by
  have isListed : (listedEntry lowercase profile defaultPort).options = profile.options := rfl
  unfold ConnectionForm.significant
  cases isField : form.option key with
  | some field =>
    have member : field ∈ form.options := List.mem_of_find?_eq_some isField
    have isKey : field.key = key := of_decide_eq_true
      (List.find?_some (p := fun field : OptionField => decide (field.key = key)) isField)
    rw [← isKey, lookup_toProfile_field _ _ _ proper port member,
      fieldValue_untouched wellFormed proper untouched member]
    cases profile.options.lookup field.key with
    | some value => rfl
    | none =>
      cases isDefault : field.kind.defaultValue with
      | none => simp
      | some default => simp [Option.filter_some, isDefault]
  | none =>
    have same : (draft.toProfile lowercase form
        (some (listedEntry lowercase profile defaultPort)) port).options.lookup key =
        profile.options.lookup key := by
      rw [lookup_toProfile proper, filter_listedEntry untouched, isField]
      split_ifs with isPath isEmpty
      · rw [untouched.remotePath, isListed] at isEmpty
        cases isRemote : profile.options.lookup remotePathKey with
        | none => rw [isPath, isRemote]
        | some path =>
          obtain ⟨trimmed, notEmpty⟩ := wellFormed.remotePath path isRemote
          rw [isRemote, Option.getD_some, trimmed] at isEmpty
          exact absurd isEmpty notEmpty
      · rw [untouched.remotePath, isListed] at isEmpty ⊢
        cases isRemote : profile.options.lookup remotePathKey with
        | none =>
          rw [isRemote] at isEmpty
          exact absurd rfl isEmpty
        | some path =>
          rw [isPath, isRemote, Option.getD_some, (wellFormed.remotePath path isRemote).1]
      · have kept := lookup_filter profile.options
          (fun name => decide (name ≠ remotePathKey ∧ form.option name = none)) key
        exact (Option.none_or ..).trans (kept.trans (if_pos (by simp [isPath, isField])))
    rw [same]

/-- The profile that comes back is the one that was listed. -/
theorem sameProfile_untouched (wellFormed : WellFormed lowercase form profile)
    (proper : form.Proper) (noSigns : NoSigns profile)
    (untouched : Untouched form (listedEntry lowercase profile defaultPort) draft) {port : Nat}
    (isPort : profile.port = some port) :
    SameProfile form profile (draft.toProfile lowercase form
      (some (listedEntry lowercase profile defaultPort)) port) := by
  constructor
  case name => exact (congrArg trim untouched.name).trans wellFormed.name.1
  case protocol => exact untouched.protocol
  case host => exact (congrArg trim untouched.host).trans wellFormed.host.1
  case port => exact isPort.symm
  case username => exact (congrArg trim untouched.username).trans wellFormed.username.1
  case group =>
      obtain ⟨raw, isGroup⟩ := wellFormed.group
      have listed : (listedEntry lowercase profile defaultPort).group =
          (normalizeGroup raw).bind normalizeGroup := by
        rw [← isGroup]
        rfl
      rw [isGroup, ← normalizeGroup_getD raw, ← listed, ← untouched.group]
      rfl
  case tags =>
      have isTags := untouched.tags
      rw [tags_listedEntry wellFormed.tags noSigns] at isTags
      exact (congrArg (parseTags lowercase) isTags).trans
        (parseTags_intercalate wellFormed.tags noSigns)
  case inKeyring => exact inKeyring_untouched wellFormed untouched port
  case options => exact significant_untouched wellFormed proper untouched port

theorem Untouched.keepsSecrets
    (untouched : Untouched form (listedEntry lowercase profile defaultPort) draft) :
    KeepsSecrets draft (listedEntry lowercase profile defaultPort) := by
  constructor
  · rw [untouched.password]
    split_ifs with isSaved
    · exact .inl rfl
    · exact .inr ⟨rfl, fun member => isSaved (savedPassword_listedEntry.mpr member)⟩
  · intro key edit isEdit
    rw [untouched.noOther key edit isEdit]
    split_ifs with isSaved
    · exact .inl rfl
    · exact .inr ⟨rfl, isSaved⟩

end Listed

/-! ### The form of a protocol -/

theorem savingForm_eq_some {protocols : List ProtocolInfo}
    (isForm : savingForm protocols draft preserveFrom = some form) :
    formFor protocols draft.protocol = form ∧
        (∀ other entry, other.protocol = draft.protocol → entry.protocol = draft.protocol →
          savingForm protocols other (some entry) = some form) ∨
      (∃ port, form = .standard port) ∧
        formFor protocols draft.protocol = .standard unavailablePort ∧
        ∀ other entry, other.protocol = draft.protocol → entry.protocol = draft.protocol →
          savingForm protocols other (some entry) = some (.standard entry.port) := by
  unfold savingForm at isForm ⊢
  cases registered : protocols.find? fun info => info.id = draft.protocol with
  | some info =>
    rw [registered] at isForm
    left
    refine ⟨?_, fun other entry same _ => ?_⟩
    · rw [formFor, registered]
      exact Option.some_inj.mp isForm
    · rw [same, registered]
      exact isForm
  | none =>
    rw [registered] at isForm
    right
    obtain ⟨entry, _, isStandard⟩ := Option.map_eq_some_iff.mp isForm
    refine ⟨⟨entry.port, isStandard.symm⟩, ?_, fun other entry same sameEntry => ?_⟩
    · rw [formFor, registered]
      rfl
    · rw [same, registered]
      simp [sameEntry]

theorem proper_standard {port : Nat} (positive : 0 < port) (small : port < 65536) :
    (ConnectionForm.standard port).Proper where
  distinct := List.nodup_nil
  noCollision := rfl
  port := ⟨positive, small⟩
  trimmed _ member := (List.not_mem_nil member).elim
  accepted _ member := (List.not_mem_nil member).elim

theorem WellFormed.standard {profile : ConnectionProfile} {port : Nat}
    (wellFormed : WellFormed lowercase (.standard port) profile) (other : Nat) :
    WellFormed lowercase (.standard other) profile :=
  ⟨wellFormed.name, wellFormed.host, wellFormed.username, wellFormed.port, wellFormed.group,
    wellFormed.tags, wellFormed.inKeyring, wellFormed.remotePath, wellFormed.secrets,
    wellFormed.values, wellFormed.required⟩

theorem roundTrips_of_wellFormed {protocols : List ProtocolInfo} {profile : ConnectionProfile}
    (isForm : savingForm protocols draft preserveFrom = some form) (proper : form.Proper)
    (isProtocol : profile.protocol = draft.protocol)
    (wellFormed : WellFormed lowercase form profile)
    (noSigns : NoSigns profile) (saved : SecretsSaved form profile) :
    RoundTrips lowercase protocols form profile := by
  obtain ⟨port, isPort, positive, small⟩ := wellFormed.port
  intro title defaultPort entry again
  have isEntry : entry.protocol = draft.protocol := isProtocol
  have validates {form' : ConnectionForm} (proper : form'.Proper)
      (wellFormed : WellFormed lowercase form' profile) (saved : SecretsSaved form' profile)
      (isForm : (formFor protocols draft.protocol).options = form'.options) :
      KeepsSecrets again entry ∧ again.protocol = draft.protocol ∧
        ∃ result, again.validate lowercase form' (some entry) = .ok result ∧
          SameProfile form' profile result := by
    have untouched : Untouched form' entry again :=
      untouched_untouchedDraft protocols title entry proper (isEntry ▸ isForm)
    have valid := valid_untouched wellFormed proper saved untouched isPort positive small
    exact ⟨untouched.keepsSecrets, untouched.protocol.trans isEntry, _,
      ProfileDraft.validate_eq_ok.mpr ⟨port, valid, rfl⟩,
      sameProfile_untouched wellFormed proper noSigns untouched isPort⟩
  rcases savingForm_eq_some isForm with ⟨same, saving⟩ | ⟨⟨standardPort, rfl⟩, isDialog, saving⟩
  · obtain ⟨keeps, sameProtocol, result, isResult, isSame⟩ :=
      validates proper wellFormed saved (same ▸ rfl)
    exact ⟨keeps, result, form, saving again entry sameProtocol isEntry, isResult, isSame⟩
  · have entryPort : entry.port = port := by
      have isListed : entry.port = profile.port.getD defaultPort := rfl
      rw [isListed, isPort, Option.getD_some]
    obtain ⟨keeps, sameProtocol, result, isResult, isSame⟩ :=
      validates (proper_standard positive small) (wellFormed.standard port)
        ⟨saved.password, saved.options⟩ (isDialog ▸ rfl)
    refine ⟨keeps, result, .standard port, ?_, isResult, ?_⟩
    · rw [saving again entry sameProtocol isEntry, entryPort]
    · exact ⟨isSame.name, isSame.protocol, isSame.host, isSame.port, isSame.username, isSame.group,
        isSame.tags, isSame.inKeyring, isSame.options⟩

/-- Saving a connection as its dialog was opened gives the connection back. -/
theorem roundTrips_of_validate {protocols : List ProtocolInfo} {profile : ConnectionProfile}
    (isForm : savingForm protocols draft preserveFrom = some form) (proper : form.Proper)
    (validated : draft.validate lowercase form preserveFrom = .ok profile)
    (noSigns : NoSigns profile) (saved : SecretsSaved form profile) :
    RoundTrips lowercase protocols form profile := by
  obtain ⟨port, valid, rfl⟩ := ProfileDraft.validate_eq_ok.mp validated
  exact roundTrips_of_wellFormed isForm proper rfl (wellFormed_toProfile proper valid) noSigns saved

theorem roundTrips_of_validate_ftp :
    RoundTrips id builtinProtocols ftpForm
      ⟨"web", "ftp", "box", some 2121, "", some "work/old", ["eu", "nightly"], [],
        [("passive", "false"), ("remote_path", "/srv")]⟩ := by
  let draft : ProfileDraft :=
    ⟨"ftp", " web ", "box", "2121", "", .keep, "/srv", " work / old/", "eu,#nightly",
      [("security", ""), ("passive", "false")], []⟩
  have isForm : savingForm builtinProtocols draft none = some ftpForm := by decide
  have proper : ftpForm.Proper := proper_of_builtin ⟨"ftp", "FTP", ftpForm⟩ (by decide)
  refine roundTrips_of_validate isForm proper (by decide) ?_ ⟨by decide, by decide⟩
  simp [NoSigns]

/-! ### Connections that do not come back -/

section Samples

/-- A form of a protocol that is registered on its own -/
def registering (form : ConnectionForm) : List ProtocolInfo := [⟨"demo", "Demo", form⟩]

def sampleDraft : ProfileDraft :=
  { ProfileDraft.default with protocol := "demo", name := "web", host := "box", username := "ann" }

def sampleProfile : ConnectionProfile := ⟨"web", "demo", "box", some 22, "ann", none, [], [], []⟩

def sampleForm (options : List OptionField) : ConnectionForm :=
  { ConnectionForm.standard 22 with options := options }

/-- What comes of the dialog that was not touched. -/
def savedAgain (form : ConnectionForm) (profile : ConnectionProfile) :
    Option (Except String ConnectionProfile) :=
  let entry := listedEntry id profile 22
  let draft := untouchedDraft (registering form) "Edit connection" entry
  (savingForm (registering form) draft (some entry)).map fun form' =>
    draft.validate id form' (some entry)

/-- The host, the tags or an option came back as another. -/
def comesBackAs (form : ConnectionForm) (profile : ConnectionProfile)
    (other : Except String ConnectionProfile) : Bool :=
  match other with
  | .error _ => false
  | .ok other => other.host = profile.host ∧ other.tags = profile.tags ∧
      ((form.options.map OptionField.key).all fun key =>
        form.significant other.options key = form.significant profile.options key)

theorem RoundTrips.savedAgain {form : ConnectionForm} {profile : ConnectionProfile}
    (roundTrips : RoundTrips id (registering form) form profile) :
    (savedAgain form profile).any (comesBackAs form profile) = true := by
  obtain ⟨_, result, form', isForm, validated, same⟩ := roundTrips "Edit connection" 22
  unfold Porthmos.savedAgain
  dsimp only at isForm validated ⊢
  rw [isForm, Option.map_some, validated]
  simp [comesBackAs, same.host, same.tags, same.options]

/-- A password that is required and was just typed, a port that may not be typed, a default that is
no choice or has blanks around it, keys that belong to others, and a tag with two signs. -/
def strayed : List (ConnectionForm × ProfileDraft × ConnectionProfile) :=
  [({ ConnectionForm.standard 22 with password := ⟨"Password", true⟩ },
      { sampleDraft with password := .replace "secret" }, sampleProfile),
    (sampleForm [⟨"token", "Token", true, .secret⟩],
      { sampleDraft with secretOptions := [("token", .replace "secret")] }, sampleProfile),
    (.standard 0, sampleDraft, { sampleProfile with port := some 0 }),
    (sampleForm [⟨"mode", "Mode", false, .choice [⟨"a", "A"⟩] "b"⟩], sampleDraft, sampleProfile),
    (sampleForm [⟨"root", "Root", false, .text " /"⟩], sampleDraft, sampleProfile),
    (sampleForm [⟨"host", "Other host", false, .text ""⟩],
      { sampleDraft with options := [("host", "other")] },
      { sampleProfile with options := [("host", "other")] }),
    (sampleForm [⟨"root", "Root", false, .text ""⟩, ⟨"root", "Other root", false, .text "/"⟩],
      sampleDraft, sampleProfile),
    (sampleForm [], { sampleDraft with tags := "##web" }, { sampleProfile with tags := ["#web"] })]

theorem not_roundTrips_of_strayed : strayed ≠ [] ∧ ∀ sample ∈ strayed,
    savingForm (registering sample.1) sample.2.1 none = some sample.1 ∧
      sample.2.1.validate id sample.1 none = .ok sample.2.2 ∧
      ¬RoundTrips id (registering sample.1) sample.1 sample.2.2 := by
  have computed : ∀ sample ∈ strayed,
      savingForm (registering sample.1) sample.2.1 none = some sample.1 ∧
        sample.2.1.validate id sample.1 none = .ok sample.2.2 ∧
        (savedAgain sample.1 sample.2.2).any (comesBackAs sample.1 sample.2.2) = false := by
    decide
  refine ⟨List.cons_ne_nil _ _, ?_⟩
  intro sample member
  obtain ⟨isForm, validated, strays⟩ := computed sample member
  refine ⟨isForm, validated, fun roundTrips => ?_⟩
  rw [roundTrips.savedAgain] at strays
  cases strays

end Samples

/-! ### The protocols of the program -/

theorem roundTrips_of_builtin {profile : ConnectionProfile} {info : ProtocolInfo}
    (registered : info ∈ builtinProtocols) (isProtocol : draft.protocol = info.id)
    (validated : draft.validate lowercase info.form preserveFrom = .ok profile)
    (noSigns : NoSigns profile) : RoundTrips lowercase builtinProtocols info.form profile := by
  obtain ⟨port, valid, rfl⟩ := ProfileDraft.validate_eq_ok.mp validated
  have proper := proper_of_builtin info registered
  have found : ∀ info ∈ builtinProtocols, (builtinProtocols.find? fun other => other.id = info.id) =
      some info ∧ info.form.password.required = false ∧
        ∀ field ∈ info.form.options, field.required = false := by decide
  obtain ⟨found, noPassword, noOption⟩ := found info registered
  have isForm : savingForm builtinProtocols draft preserveFrom = some info.form := by
    simp only [savingForm, isProtocol, found]
  have saved : SecretsSaved info.form (draft.toProfile lowercase info.form preserveFrom port) := by
    constructor
    · simp [noPassword]
    · intro field member _ isRequired
      simp [noOption field member] at isRequired
  exact roundTrips_of_wellFormed isForm proper rfl (wellFormed_toProfile proper valid) noSigns saved

end Porthmos
