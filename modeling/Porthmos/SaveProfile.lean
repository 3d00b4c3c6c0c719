import Porthmos.ConfigStore
import Porthmos.ConnectionValid

/-!
# Saving a profile

The entries are listed, the draft is validated, and the profile is stored.  A profile with a new
name is deleted under its old one first, in a change of its own.
-/

namespace Porthmos

open ConnectionDialog

/-! ### The entries of the list -/

/-- What a protocol finds in the settings of another program. -/
structure Target where
  name : String
  host : String
  port : Nat
  username : String
  password : Option String
  options : List (String × String)
  deriving DecidableEq, Repr

/-- `Arc<dyn Protocol>`, as far as connections are concerned. -/
structure RegisteredProtocol where
  info : ProtocolInfo
  defaultPort : Nat
  deriving DecidableEq, Repr

/-- `default_port_for` -/
def defaultPortFor (protocols : List RegisteredProtocol) (protocolId : String) : Nat :=
  ((protocols.find? fun protocol => protocol.info.id = protocolId).map
    RegisteredProtocol.defaultPort).getD 22

namespace ConnectionEntry

def discovered (protocol : String) (target : Target) : ConnectionEntry where
  name := target.name
  protocol := protocol
  host := target.host
  port := target.port
  username := target.username
  password := target.password
  options := target.options
  group := none
  tags := []
  savedPassword := false
  inKeyring := []
  source := .sshConfig

/-- `orphan_labels`, with the markers that `list_all` gives it. -/
def orphanLabels (name : String) (labels : Labels) (source : ConnectionSource) :
    ConnectionEntry where
  name := name
  protocol := defaultProtocol
  host := ""
  port := 0
  username := ""
  password := none
  options := []
  group := labels.group
  tags := labels.tags
  savedPassword := labels.inKeyring.any fun marker => marker = passwordMarker
  inKeyring := labels.inKeyring
  source := source

/-- What the labels of a host add to its entry. -/
def labelled (labels : List (String × Labels)) (entry : ConnectionEntry) : ConnectionEntry :=
  match entry.source, labels.lookup entry.name with
  | .sshConfig, some found =>
    { entry with
      group := found.group
      tags := found.tags
      savedPassword := found.inKeyring.any fun marker => marker = passwordMarker
      inKeyring := found.inKeyring }
  | _, _ => entry

end ConnectionEntry

/-- The entries so far, with the names that were found under one that is known. -/
structure Discovery where
  entries : List ConnectionEntry
  shadowed : List String

def Discovery.add (protocol : String) (found : Discovery) (target : Target) : Discovery :=
  if found.entries.any fun entry => entry.name = target.name then
    { found with shadowed := found.shadowed ++ [target.name] }
  else { found with entries := found.entries ++ [.discovered protocol target] }

def discoverAll (discover : RegisteredProtocol → Except String (List Target))
    (found : Discovery) (protocols : List RegisteredProtocol) : Except String Discovery :=
  protocols.foldlM (fun found protocol =>
    (discover protocol).map fun targets => targets.foldl (.add protocol.info.id) found) found

/-- `list_all` of what was loaded and found -/
def listEntries (lowercase : String → String) (found : Discovery) (labels : List (String × Labels)) :
    List ConnectionEntry :=
  let hosts := found.entries.filter fun entry => entry.source = .sshConfig
  let orphans := (sortFields labels).filter fun label =>
    !hosts.any fun entry => entry.name = label.1
  let orphans := orphans.map fun label => ConnectionEntry.orphanLabels label.1 label.2
    (if label.1 ∈ found.shadowed then .shadowedSshHost else .missingSshHost)
  let entries := found.entries.map (ConnectionEntry.labelled labels) ++ orphans
  (entries.map (ConnectionEntry.normalized lowercase)).insertionSort fun first second =>
    lowercase first.name ≤ lowercase second.name

/-! ### Secrets -/

/-- What a saved draft changes in the keyring. -/
structure SecretChanges where
  name : String
  renamedFrom : Option String
  savedBefore : List String
  kept : List String
  replaced : List (String × String)
  deriving DecidableEq, Repr

namespace SecretChanges

/-- The secrets that an edit gives, in the order of their markers. -/
def replacedBy (edits : List (String × SecretEdit)) : List (String × String) :=
  sortFields (edits.foldl (fun replaced edit =>
    match edit.2 with
    | .replace secret => insertOption replaced edit.1 secret
    | .keep | .clear => replaced) [])

def dropped (changes : SecretChanges) : List String :=
  changes.savedBefore.filter fun marker =>
    !changes.kept.contains marker && (changes.replaced.lookup marker).isNone

/-- Whether the keyring has anything to do. -/
def needKeyring (changes : SecretChanges) : Bool :=
  changes.renamedFrom.isSome && !changes.savedBefore.isEmpty || !changes.replaced.isEmpty ||
    !changes.dropped.isEmpty

/-- The markers that are written before the keyring is asked. -/
def markers (changes : SecretChanges) : List String :=
  changes.kept ++ (changes.replaced.map Prod.fst).filter fun marker => !changes.kept.contains marker

end SecretChanges

/-! ### The command -/

/-- The reads and changes of the file, in their order. -/
inductive SaveStep
  | profilesBefore
  | labelsBefore
  | existing
  | deleting
  | saving
  | profilesAfter
  | labelsAfter
  | marking
  deriving DecidableEq, Repr

inductive SaveEvent
  | profileRejected (message : String)
  | report (message : String)
  | profileSaved
  | profiles (entries : List ConnectionEntry)
  deriving DecidableEq, Repr

/-- What a command runs in: the protocols and what they find, the file, the calls that fail, and
whether there is a keyring. -/
structure Saving where
  format : ConfigFormat
  path : Path
  lowercase : String → String
  protocols : List RegisteredProtocol
  discover : SaveStep → RegisteredProtocol → Except String (List Target)
  faults : SaveStep → CallFaults
  keyringAvailable : Bool

/-- What is left to do once a profile is stored. -/
structure StoredDraft where
  profile : ConnectionProfile
  changes : SecretChanges
  deriving DecidableEq, Repr

namespace Saving

variable (env : Saving)

/-- `all_profiles`, which reads the file twice -/
def allProfiles (profilesStep labelsStep : SaveStep) (files : FileContents) :
    Except String (List ConnectionEntry) := do
  let profiles ← loadProfiles env.format env.path (env.faults profilesStep) files
  let entries := profiles.map fun profile =>
    .fromProfile profile (defaultPortFor env.protocols profile.protocol)
  let found ← discoverAll (env.discover profilesStep) ⟨entries, []⟩ env.protocols
  let labels ← loadSshLabels env.format env.path (env.faults labelsStep) files
  .ok (listEntries env.lowercase found labels)

def listProfiles (files : FileContents) : SaveEvent :=
  match env.allProfiles .profilesAfter .labelsAfter files with
  | .ok entries => .profiles entries
  | .error err => .report err

/-- The entry that is edited, unless the entries cannot be listed. -/
def preserveFrom (original : Option String) (files : FileContents) : Option ConnectionEntry :=
  original.bind fun name =>
    (env.allProfiles .profilesBefore .labelsBefore files).toOption.bind fun entries =>
      entries.find? fun entry => entry.name = name

/-- The form and the profile, or what is sent instead. -/
def validated (original : Option String) (draft : ProfileDraft) (files : FileContents) :
    Except SaveEvent (ConnectionForm × ConnectionProfile) :=
  let preserveFrom := env.preserveFrom original files
  match savingForm (env.protocols.map RegisteredProtocol.info) draft preserveFrom with
  | none => .error (.profileRejected ("No \"" ++ draft.protocol ++ "\" protocol is available"))
  | some form =>
    match draft.validate env.lowercase form preserveFrom with
    | .error message => .error (.profileRejected message)
    | .ok profile => .ok (form, profile)

def nameTaken (profiles : List ConnectionProfile) (profile : ConnectionProfile)
    (original : Option String) : Bool :=
  profiles.any fun saved => saved.name = profile.name ∧ some saved.name ≠ original

/-- Delete what had the old name. -/
def deleteOriginal (original : Option String) (profile : ConnectionProfile) (files : FileContents) :
    Except String Unit × FileContents :=
  match original with
  | none => (.ok (), files)
  | some old =>
    if profile.name ≠ old then deleteStored env.format env.path (env.faults .deleting) old files
    else (.ok (), files)

def secretChanges (original : Option String) (draft : ProfileDraft)
    (preserveFrom : Option ConnectionEntry) (form : ConnectionForm) (profile : ConnectionProfile) :
    SecretChanges where
  name := profile.name
  renamedFrom := original.filter fun old => old ≠ profile.name
  savedBefore := (preserveFrom.map ConnectionEntry.inKeyring).getD []
  kept := profile.inKeyring
  replaced := SecretChanges.replacedBy ((passwordMarker, draft.password) ::
    draft.secretOptions.filter fun option =>
      form.options.any fun field => field.kind = .secret ∧ field.key = option.1)

/-- `save_profile` up to the event that says that the profile is saved -/
def storeDraft (original : Option String) (draft : ProfileDraft) (files : FileContents) :
    Except SaveEvent StoredDraft × FileContents :=
  match env.validated original draft files with
  | .error event => (.error event, files)
  | .ok (form, profile) =>
    match loadProfiles env.format env.path (env.faults .existing) files with
    | .error err => (.error (.report err), files)
    | .ok existing =>
      if nameTaken existing profile original then
        (.error (.profileRejected ("A connection named \"" ++ profile.name ++
          "\" already exists")), files)
      else
        match env.deleteOriginal original profile files with
        | (.error err, files) => (.error (.report err), files)
        | (.ok _, deleted) =>
          match storeProfile env.format env.path (env.faults .saving) profile deleted with
          | (.error err, files) => (.error (.report err), files)
          | (.ok _, stored) =>
            (.ok ⟨profile, secretChanges original draft (env.preserveFrom original files)
              form profile⟩, stored)

/-- `apply_secret_changes`, as far as the file is concerned -/
def applySecretChanges (changes : SecretChanges) (files : FileContents) :
    List SaveEvent × FileContents :=
  if env.keyringAvailable && changes.needKeyring then
    match setProfileMarkers env.format env.path (env.faults .marking) changes.name changes.markers
        files with
    | (.ok _, files) => ([], files)
    | (.error err, files) => ([.report err], files)
  else ([], files)

def saveProfile (original : Option String) (draft : ProfileDraft) (files : FileContents) :
    List SaveEvent × FileContents :=
  match env.storeDraft original draft files with
  | (.error event, files) => ([event], files)
  | (.ok stored, files) =>
    let listed := env.listProfiles files
    let (reports, files) := env.applySecretChanges stored.changes files
    (.profileSaved :: listed :: reports, files)

end Saving

/-! ### What may be stored -/

/-- Options that a profile may be stored with. -/
structure StorableOptions (options : List (String × String)) : Prop where
  plain : ∀ option ∈ options, option.1 ∉ profileKeys ∧ option.1 ≠ passwordMarker
  distinct : (options.map Prod.fst).Nodup

/-- What a validated draft may take over from an entry. -/
structure StorableEntry (entry : ConnectionEntry) : Prop where
  port : entry.port < 65536
  options : StorableOptions entry.options

namespace StorableOptions

variable {options : List (String × String)}

theorem filter (storable : StorableOptions options) (test : String × String → Bool) :
    StorableOptions (options.filter test) where
  plain option member := storable.plain option (List.mem_filter.mp member).1
  distinct := storable.distinct.sublist (List.filter_sublist.map _)

theorem insertOption (storable : StorableOptions options) {key : String}
    (plainKey : key ∉ profileKeys ∧ key ≠ passwordMarker) (value : String) :
    StorableOptions (Porthmos.insertOption options key value) where
  plain option member := by
    rcases List.mem_append.mp member with member | isNew
    · exact storable.plain option (List.mem_filter.mp member).1
    · cases List.mem_singleton.mp isNew
      exact plainKey
  distinct := nodup_insertOption storable.distinct ..

theorem foldl_withField (draft : ProfileDraft) (original : Option ConnectionEntry)
    {fields : List OptionField}
    (plainKeys : ∀ field ∈ fields, field.key ∉ profileKeys ∧ field.key ≠ passwordMarker)
    {sofar : List String × List (String × String)} (storable : StorableOptions sofar.2) :
    StorableOptions (fields.foldl (draft.withField original) sofar).2 := by
  induction fields generalizing sofar with
  | nil => exact storable
  | cons field fields ih =>
    obtain ⟨plainKey, plainKeys⟩ := List.forall_mem_cons.mp plainKeys
    apply ih plainKeys
    unfold ProfileDraft.withField
    cases draft.fieldValue field with
    | none => exact storable
    | some value => exact storable.insertOption plainKey value

end StorableOptions

theorem not_reserved_storable {key : String} (free : key ∉ reservedKeys) :
    key ∉ profileKeys ∧ key ≠ passwordMarker := by
  constructor
  · intro member
    exact free ((show profileKeys ⊆ reservedKeys by decide) member)
  · rintro rfl
    exact free (by decide)

/-- What validation lets through may be stored. -/
theorem plain_of_validate {lowercase : String → String} {draft : ProfileDraft}
    {form : ConnectionForm} {preserveFrom : Option ConnectionEntry} {profile : ConnectionProfile}
    (noCollision : form.reservedKeyCollisions = []) (small : form.port.default < 65536)
    (storable : ∀ entry ∈ preserveFrom, StorableEntry entry)
    (validated : draft.validate lowercase form preserveFrom = .ok profile) : profile.Plain := by
  obtain ⟨port, valid, rfl⟩ := ProfileDraft.validate_eq_ok.mp validated
  have plainKeys : ∀ field ∈ form.options, field.key ∉ profileKeys ∧ field.key ≠ passwordMarker :=
    fun field member => not_reserved_storable (ConnectionForm.not_reserved noCollision member)
  have preserved : StorableOptions (ProfileDraft.preserved form
      (preserveFrom.filter fun entry => entry.protocol = draft.protocol)) := by
    unfold ProfileDraft.preserved
    split
    · exact ⟨by simp, List.nodup_nil⟩
    · rename_i entry isOriginal
      exact (storable entry (Option.filter_eq_some_iff.mp isOriginal).1).options.filter _
  have sofar (markers : List String) := StorableOptions.foldl_withField draft
    (preserveFrom.filter fun entry => entry.protocol = draft.protocol) plainKeys
    (show StorableOptions (markers, ProfileDraft.preserved form _).2 from preserved)
  have plainPath : remotePathKey ∉ profileKeys ∧ remotePathKey ≠ passwordMarker := by decide
  have options : StorableOptions (draft.toProfile lowercase form preserveFrom port).options := by
    unfold ProfileDraft.toProfile
    dsimp only
    by_cases isEmpty : trim draft.remotePath ≠ ""
    · rw [if_pos isEmpty]
      exact (sofar _).insertOption plainPath _
    · rw [if_neg isEmpty]
      exact sofar _
  constructor
  · intro port' isPort
    cases isPort
    rcases portOf_cases valid.port with rfl | typed
    · exact small
    · exact typed.2
  · exact options.plain
  · exact options.distinct

/-! ### The entries may be stored -/

namespace Saving

/-- What a command may rely on: the crate, the operating system, the forms and the targets. -/
structure Proper (env : Saving) : Prop where
  documented : env.format.Documented
  honest : ∀ step, (env.faults step).Honest
  forms : ∀ protocol ∈ env.protocols, protocol.info.form.reservedKeyCollisions = [] ∧
    protocol.info.form.port.default < 65536 ∧ protocol.defaultPort < 65536
  targets : ∀ step, ∀ protocol ∈ env.protocols, ∀ targets,
    env.discover step protocol = .ok targets →
      ∀ target ∈ targets, target.port < 65536 ∧ StorableOptions target.options

variable {env : Saving} {files : FileContents}

theorem defaultPortFor_lt (proper : env.Proper) (protocolId : String) :
    defaultPortFor env.protocols protocolId < 65536 := by
  unfold defaultPortFor
  cases found : env.protocols.find? fun protocol => protocol.info.id = protocolId with
  | none => decide
  | some protocol => exact (proper.forms protocol (List.mem_of_find?_eq_some found)).2.2

theorem storable_add {found : Discovery} (storable : ∀ entry ∈ found.entries, StorableEntry entry)
    {target : Target} (plain : target.port < 65536 ∧ StorableOptions target.options)
    (protocol : String) : ∀ entry ∈ (found.add protocol target).entries, StorableEntry entry := by
  unfold Discovery.add
  split_ifs
  · exact storable
  · intro entry member
    rcases List.mem_append.mp member with member | isNew
    · exact storable entry member
    · cases List.mem_singleton.mp isNew
      exact ⟨plain.1, plain.2⟩

theorem storable_foldl_add {found : Discovery}
    (storable : ∀ entry ∈ found.entries, StorableEntry entry) {targets : List Target}
    (plain : ∀ target ∈ targets, target.port < 65536 ∧ StorableOptions target.options)
    (protocol : String) :
    ∀ entry ∈ (targets.foldl (.add protocol) found).entries, StorableEntry entry := by
  induction targets generalizing found with
  | nil => exact storable
  | cons target targets ih =>
    obtain ⟨plainTarget, plain⟩ := List.forall_mem_cons.mp plain
    exact ih (storable_add storable plainTarget protocol) plain

theorem storable_discoverAll {discover : RegisteredProtocol → Except String (List Target)}
    {protocols : List RegisteredProtocol} (plain : ∀ protocol ∈ protocols, ∀ targets,
      discover protocol = .ok targets →
        ∀ target ∈ targets, target.port < 65536 ∧ StorableOptions target.options)
    {found after : Discovery} (storable : ∀ entry ∈ found.entries, StorableEntry entry)
    (done : discoverAll discover found protocols = .ok after) :
    ∀ entry ∈ after.entries, StorableEntry entry := by
  induction protocols generalizing found with
  | nil =>
    cases done
    exact storable
  | cons protocol protocols ih =>
    obtain ⟨plainTargets, plain⟩ := List.forall_mem_cons.mp plain
    unfold discoverAll at done
    rw [List.foldlM_cons, bind_eq_ok] at done
    obtain ⟨middle, isMiddle, done⟩ := done
    cases answered : discover protocol with
    | error err =>
      rw [answered] at isMiddle
      cases isMiddle
    | ok targets =>
      rw [answered] at isMiddle
      cases isMiddle
      exact ih plain (storable_foldl_add storable (plainTargets targets answered) _) done

theorem storable_listEntries {lowercase : String → String} {found : Discovery}
    (storable : ∀ entry ∈ found.entries, StorableEntry entry) (labels : List (String × Labels)) :
    ∀ entry ∈ listEntries lowercase found labels, StorableEntry entry := by
  intro entry member
  obtain ⟨entry, isEntry, rfl⟩ := List.mem_map.mp ((List.mem_insertionSort _).mp member)
  suffices storable : StorableEntry entry from ⟨storable.port, storable.options⟩
  rcases List.mem_append.mp isEntry with isFound | isOrphan
  · obtain ⟨original, isOriginal, rfl⟩ := List.mem_map.mp isFound
    have kept := storable original isOriginal
    unfold ConnectionEntry.labelled
    split
    · exact ⟨kept.port, kept.options⟩
    · exact kept
  · obtain ⟨label, _, rfl⟩ := List.mem_map.mp isOrphan
    exact ⟨Nat.succ_pos _, by simp [ConnectionEntry.orphanLabels], List.nodup_nil⟩

theorem storable_allProfiles (proper : env.Proper) {profilesStep labelsStep : SaveStep}
    {entries : List ConnectionEntry}
    (listed : env.allProfiles profilesStep labelsStep files = .ok entries) :
    ∀ entry ∈ entries, StorableEntry entry := by
  simp only [allProfiles, bind_eq_ok, Except.ok.injEq] at listed
  obtain ⟨profiles, areProfiles, found, isFound, labels, _, rfl⟩ := listed
  apply storable_listEntries
  apply storable_discoverAll (proper.targets profilesStep) _ isFound
  intro entry member
  obtain ⟨profile, isProfile, rfl⟩ := List.mem_map.mp member
  unfold loadProfiles at areProfiles
  cases isRead : readConfigFile env.format env.path (env.faults profilesStep) files with
  | error err =>
    rw [isRead] at areProfiles
    cases areProfiles
  | ok file =>
    rw [isRead] at areProfiles
    cases areProfiles
    obtain ⟨connection, isConnection, rfl⟩ := List.mem_map.mp isProfile
    have plain := (plain_readConfigFile proper.documented isRead).profiles connection
      (mem_sortFields.mp isConnection)
    refine ⟨?_, plain.options, plain.distinct⟩
    cases isPort : connection.2.port with
    | none => simpa [ConnectionEntry.fromProfile, isPort] using defaultPortFor_lt proper _
    | some port => simpa [ConnectionEntry.fromProfile, isPort] using plain.port port isPort

theorem storable_preserveFrom (files : FileContents) (proper : env.Proper) (original : Option String) :
    ∀ entry ∈ env.preserveFrom original files, StorableEntry entry := by
  intro entry found
  obtain ⟨name, _, found⟩ := Option.bind_eq_some_iff.mp found
  obtain ⟨entries, listed, found⟩ := Option.bind_eq_some_iff.mp found
  cases isListed : env.allProfiles .profilesBefore .labelsBefore files with
  | error err =>
    rw [isListed] at listed
    cases listed
  | ok others =>
    rw [isListed] at listed
    cases listed
    exact storable_allProfiles proper isListed entry (List.mem_of_find?_eq_some found)

theorem of_validated {original : Option String} {draft : ProfileDraft} {form : ConnectionForm}
    {profile : ConnectionProfile}
    (validated : env.validated original draft files = .ok (form, profile)) :
    savingForm (env.protocols.map RegisteredProtocol.info) draft
        (env.preserveFrom original files) = some form ∧
      draft.validate env.lowercase form (env.preserveFrom original files) = .ok profile := by
  unfold Saving.validated at validated
  dsimp only at validated
  split at validated
  · cases validated
  · rename_i other isForm
    split at validated
    · cases validated
    · rename_i kept isProfile
      cases validated
      exact ⟨isForm, isProfile⟩

theorem plain_of_validated (proper : env.Proper) {original : Option String} {draft : ProfileDraft}
    {form : ConnectionForm} {profile : ConnectionProfile}
    (validated : env.validated original draft files = .ok (form, profile)) : profile.Plain := by
  obtain ⟨isForm, isProfile⟩ := of_validated validated
  have storable := storable_preserveFrom files proper original
  unfold savingForm at isForm
  split at isForm
  · rename_i info found
    cases isForm
    obtain ⟨protocol, member, rfl⟩ := List.mem_map.mp (List.mem_of_find?_eq_some found)
    obtain ⟨noCollision, small, _⟩ := proper.forms protocol member
    exact plain_of_validate noCollision small storable isProfile
  · obtain ⟨entry, isEntry, rfl⟩ := Option.map_eq_some_iff.mp isForm
    have small := (storable entry (Option.filter_eq_some_iff.mp isEntry).1).port
    exact plain_of_validate rfl small storable isProfile

end Saving

end Porthmos
