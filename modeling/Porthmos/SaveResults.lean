import Porthmos.SaveProfile

/-!
# A saved profile replaces the one it was made of

Whatever fails, the file says what it said before or what was saved, with one exception: a profile
that is renamed is lost when it was deleted under its old name and the change that stores it under
its new one fails.
-/

namespace Porthmos

namespace ConfigView

/-- What a saved profile takes the place of. -/
def replaced (view : ConfigView) (original : Option String) (profile : ConnectionProfile) :
    ConfigView :=
  (match original with
    | none => view
    | some old => view.delete old).save profile

theorem delete_of_absent {view : ConfigView} {name : String} (absent : view.profiles name = none) :
    view.delete name = view := by
  refine ConfigView.ext (funext fun other => ?_) rfl
  simp only [delete]
  split_ifs with same
  · rw [same, absent]
  · rfl

theorem replaced_of_kept {original : Option String} {profile : ConnectionProfile}
    (kept : ∀ old, original = some old → profile.name = old) (view : ConfigView) :
    view.replaced original profile = view.save profile := by
  cases original with
  | none => rfl
  | some old =>
    refine ConfigView.ext (funext fun name => ?_) rfl
    have isName := kept old rfl
    by_cases same : name = profile.name <;> simp_all [replaced, delete, save]

theorem save_save (view : ConfigView) (first : ConnectionProfile) {second : ConnectionProfile}
    (sameName : second.name = first.name) : (view.save first).save second = view.save second := by
  refine ConfigView.ext (funext fun name => ?_) rfl
  simp only [save, sameName]
  split_ifs <;> rfl

end ConfigView

theorem view_setMarkers {file : ConfigFile} {profile found : ConnectionProfile}
    (isFound : file.connections.lookup profile.name = some found)
    (isProfile : file.view.profiles profile.name = some profile.view) (markers : List String) :
    (file.put profile.name { found with inKeyring := markers }).view =
      file.view.save { profile with inKeyring := markers } := by
  have same : { found with name := profile.name }.view = profile.view := by
    simpa [ConfigFile.view, isFound] using isProfile
  obtain ⟨fields, options⟩ := Prod.mk.injEq .. ▸ same
  have sameMarked : { found with name := profile.name, inKeyring := markers }.view =
      { profile with inKeyring := markers }.view :=
    Prod.ext (congrArg (fun kept : ConnectionProfile => { kept with inKeyring := markers }) fields)
      options
  rw [view_put]
  refine ConfigView.ext (funext fun name => ?_) rfl
  simp only [ConfigView.save, sameMarked]

/-- The markers are set, or they stay as they were. -/
theorem setProfileMarkers_cases {format : ConfigFormat} {path : Path} {faults : CallFaults}
    {files : FileContents} {view : ConfigView} {profile : ConnectionProfile}
    (documented : format.Documented) (honest : faults.Honest)
    (isStored : stored format path files = some view)
    (isProfile : view.profiles profile.name = some profile.view) (markers : List String) :
    stored format path (setProfileMarkers format path faults profile.name markers files).2 =
        some view ∨
      stored format path (setProfileMarkers format path faults profile.name markers files).2 =
        some (view.save { profile with inKeyring := markers }) := by
  unfold setProfileMarkers
  cases isRead : readConfigFile format path faults files with
  | error err => exact .inl isStored
  | ok file =>
    obtain ⟨_, isFile⟩ := readConfigFile_honest honest isRead
    have plain := plain_readConfigFile documented isRead
    have isView : file.view = view := by
      rw [stored, isFile] at isStored
      exact Option.some_inj.mp isStored
    rw [← isView] at isProfile isStored ⊢
    dsimp only
    cases isFound : file.connections.lookup profile.name with
    | none => exact .inl isStored
    | some found =>
      have plainFound : found.Plain :=
        plain.profiles (profile.name, found) ((lookup_eq_some_iff plain.connections).mp isFound)
      have plainMarked : (file.put profile.name { found with inKeyring := markers }).Plain :=
        plain.put profile.name ⟨plainFound.port, plainFound.options, plainFound.distinct⟩
      rw [← view_setMarkers isFound isProfile]
      rcases writeConfigFile_cases documented path faults files plainMarked with
        ⟨_, after, isWritten, same⟩ | ⟨_, err, after, isError, same⟩
      · exact .inr (by simpa [isWritten] using same)
      · exact .inl (by simpa [isError, isStored] using same)

namespace Saving

/-- Saving changes nothing, or it replaces the profile; the markers are those that validation kept,
or also those of the secrets that were given. -/
structure AllOrNothing (env : Saving) (original : Option String) (draft : ProfileDraft)
    (files : FileContents) : Prop where
  unsaved : .profileSaved ∉ (env.saveProfile original draft files).1 →
    stored env.format env.path (env.saveProfile original draft files).2 =
      stored env.format env.path files
  saved : .profileSaved ∈ (env.saveProfile original draft files).1 →
    ∃ form profile view, env.validated original draft files = .ok (form, profile) ∧
      stored env.format env.path files = some view ∧
      stored env.format env.path (env.storeDraft original draft files).2 =
        some (view.replaced original profile) ∧
      ∃ markers, stored env.format env.path (env.saveProfile original draft files).2 =
          some (view.replaced original { profile with inKeyring := markers }) ∧
        (markers = profile.inKeyring ∨ markers = (secretChanges original draft
          (env.preserveFrom original files) form profile).markers)

/-- A stored profile is renamed, its deletion goes through, and the change that stores it fails. -/
structure LosesOriginal (env : Saving) (draft : ProfileDraft) (files : FileContents)
    (old : String) (form : ConnectionForm) (profile : ConnectionProfile) (view : ConfigView) :
    Prop where
  validated : env.validated (some old) draft files = .ok (form, profile)
  renamed : profile.name ≠ old
  isStored : stored env.format env.path files = some view
  known : (view.profiles old).isSome
  free : view.profiles profile.name = none
  reads : (env.faults .existing).fails .read = false
  deletes : (env.faults .deleting).stopsChange env.path = false
  fails : (env.faults .saving).stopsChange env.path = true

variable {env : Saving} {original : Option String} {draft : ProfileDraft} {files : FileContents}

theorem loadProfiles_ok {faults : CallFaults} (honest : faults.Honest)
    {profiles : List ConnectionProfile}
    (loaded : loadProfiles env.format env.path faults files = .ok profiles) :
    faults.fails .read = false ∧ ∃ file, readConfigFile env.format env.path .none files = .ok file ∧
      profiles = file.profiles := by
  unfold loadProfiles at loaded
  cases isRead : readConfigFile env.format env.path faults files with
  | error err =>
    rw [isRead] at loaded
    cases loaded
  | ok file =>
    rw [isRead] at loaded
    cases loaded
    obtain ⟨noFault, isFile⟩ := readConfigFile_honest honest isRead
    exact ⟨by simp [CallFaults.fails, noFault], file, isFile, rfl⟩

/-- A name is free if nothing is stored under it, or if it is the name of what is edited. -/
theorem nameTaken_eq_false (file : ConfigFile) (profile : ConnectionProfile)
    (original : Option String) :
    nameTaken file.profiles profile original = false ↔
      file.view.profiles profile.name = none ∨ some profile.name = original := by
  simp only [nameTaken, ConfigFile.profiles, ConfigFile.view, List.any_eq_false,
    decide_eq_true_eq, List.mem_map, Option.map_eq_none_iff, List.lookup_eq_none_iff]
  constructor
  · intro free
    by_cases isOriginal : some profile.name = original
    · exact .inr isOriginal
    · left
      intro connection member
      have differs : profile.name ≠ connection.1 := by
        intro same
        exact free _ ⟨connection, mem_sortFields.mpr member, rfl⟩ ⟨same.symm, same ▸ isOriginal⟩
      simpa using differs
  · rintro free _ ⟨connection, member, rfl⟩ ⟨same, isOther⟩
    dsimp only at same isOther
    rcases free with absent | isOriginal
    · simpa [same] using absent connection (mem_sortFields.mp member)
    · exact isOther (same ▸ isOriginal)

theorem deleteOriginal_renamed {old : String} {profile : ConnectionProfile}
    (renamed : profile.name ≠ old) :
    env.deleteOriginal (some old) profile files =
      deleteStored env.format env.path (env.faults .deleting) old files :=
  if_pos renamed

theorem stored_eq_some {format : ConfigFormat} {path : Path} {view : ConfigView}
    (isStored : stored format path files = some view) :
    ∃ file, readConfigFile format path .none files = .ok file ∧ file.view = view := by
  unfold stored at isStored
  cases isRead : readConfigFile format path .none files with
  | error err =>
    rw [isRead] at isStored
    cases isStored
  | ok file =>
    rw [isRead] at isStored
    exact ⟨file, rfl, Option.some_inj.mp isStored⟩

theorem stored_of_read {format : ConfigFormat} {path : Path} {file : ConfigFile}
    (isRead : readConfigFile format path .none files = .ok file) :
    stored format path files = some file.view := by
  rw [stored, isRead]
  rfl

/-- What is lost stays lost. -/
theorem storeDraft_loses (proper : env.Proper) {old : String} {form : ConnectionForm}
    {profile : ConnectionProfile} {view : ConfigView}
    (loses : LosesOriginal env draft files old form profile view) :
    (∃ err, (env.storeDraft (some old) draft files).1 = .error (.report err)) ∧
      stored env.format env.path (env.storeDraft (some old) draft files).2 =
        some (view.delete old) := by
  obtain ⟨file, isRead, rfl⟩ := stored_eq_some loses.isStored
  have plain := plain_readConfigFile proper.documented isRead
  have noFault : (env.faults .existing).error .read = none := by
    simpa [CallFaults.fails] using loses.reads
  have loaded : loadProfiles env.format env.path (env.faults .existing) files =
      .ok file.profiles := by
    rw [loadProfiles, readConfigFile_ok isRead noFault]
    rfl
  have free : nameTaken file.profiles profile (some old) = false :=
    (nameTaken_eq_false file profile (some old)).mpr (.inl loses.free)
  rcases changeConfig_cases proper.documented (proper.honest .deleting) isRead (.delete old)
    (plain.delete old) with ⟨_, deleted, isDeleted, isStored⟩ | ⟨stops, _⟩
  · obtain ⟨again, isAgain, sameView⟩ := stored_eq_some isStored
    have plainAgain := plain_readConfigFile proper.documented isAgain
    rcases changeConfig_cases proper.documented (proper.honest .saving) isAgain (.save profile)
      (plainAgain.save (plain_of_validated proper loses.validated)) with
      ⟨noStop, _⟩ | ⟨_, err, after, isError, same⟩
    · rw [loses.fails] at noStop
      cases noStop
    · have isResult : env.storeDraft (some old) draft files = (.error (.report err), after) := by
        simp only [storeDraft, loses.validated, loaded, free, Bool.false_eq_true, if_false,
          deleteOriginal_renamed loses.renamed, deleteStored, isDeleted, storeProfile, isError]
      rw [isResult]
      exact ⟨⟨err, rfl⟩, same.trans (isStored.trans (congrArg some (view_delete old file)))⟩
  · rw [loses.deletes] at stops
    cases stops

theorem deleteOriginal_kept {original : Option String} {profile : ConnectionProfile}
    (kept : ∀ old, original = some old → profile.name = old) :
    env.deleteOriginal original profile files = (.ok (), files) := by
  cases original with
  | none => rfl
  | some old => exact if_neg (not_not_intro (kept old rfl))

theorem validated_error {original : Option String} {event : SaveEvent}
    (isError : env.validated original draft files = .error event) : event ≠ .profileSaved := by
  rintro rfl
  unfold Saving.validated at isError
  dsimp only at isError
  split at isError
  · cases isError
  · split at isError <;> cases isError

/-- What storing a draft comes to, unless it loses what it was made of. -/
theorem storeDraft_cases (proper : env.Proper) (original : Option String) (draft : ProfileDraft)
    (files : FileContents) :
    (∃ event, event ≠ .profileSaved ∧ (env.storeDraft original draft files).1 = .error event ∧
      stored env.format env.path (env.storeDraft original draft files).2 =
        stored env.format env.path files) ∨
    (∃ old form profile view, original = some old ∧
      LosesOriginal env draft files old form profile view) ∨
    ∃ form profile view, env.validated original draft files = .ok (form, profile) ∧
      stored env.format env.path files = some view ∧
      (env.storeDraft original draft files).1 = .ok ⟨profile, secretChanges original draft
        (env.preserveFrom original files) form profile⟩ ∧
      stored env.format env.path (env.storeDraft original draft files).2 =
        some (view.replaced original profile) := by
  unfold storeDraft
  cases isValid : env.validated original draft files with
  | error event => exact .inl ⟨event, validated_error isValid, rfl, rfl⟩
  | ok checked =>
    obtain ⟨form, profile⟩ := checked
    have plainProfile := plain_of_validated proper isValid
    dsimp only
    cases loaded : loadProfiles env.format env.path (env.faults .existing) files with
    | error err => exact .inl ⟨_, by simp, rfl, rfl⟩
    | ok profiles =>
      obtain ⟨reads, file, isRead, rfl⟩ := loadProfiles_ok (proper.honest .existing) loaded
      have plain := plain_readConfigFile proper.documented isRead
      have isStored := stored_of_read isRead
      dsimp only
      cases taken : nameTaken file.profiles profile original with
      | true => exact .inl ⟨_, by simp, rfl, rfl⟩
      | false =>
        have free := (nameTaken_eq_false file profile original).mp taken
        rw [if_neg (by simp)]
        by_cases kept : ∀ old, original = some old → profile.name = old
        · rw [deleteOriginal_kept kept]
          dsimp only [storeProfile]
          rcases changeConfig_cases proper.documented (proper.honest .saving) isRead
            (.save profile) (plain.save plainProfile) with
            ⟨_, after, isSaved, same⟩ | ⟨_, err, after, isError, same⟩
          · rw [isSaved]
            refine .inr (.inr ⟨form, profile, file.view, rfl, isStored, rfl, ?_⟩)
            rw [same, view_save, ConfigView.replaced_of_kept kept]
          · rw [isError]
            exact .inl ⟨_, by simp, rfl, same⟩
        · push Not at kept
          obtain ⟨old, rfl, renamed⟩ := kept
          rw [deleteOriginal_renamed renamed]
          dsimp only [storeProfile, deleteStored]
          rcases changeConfig_cases proper.documented (proper.honest .deleting) isRead
            (.delete old) (plain.delete old) with
            ⟨deletes, deleted, isDeleted, same⟩ | ⟨_, err, after, isError, same⟩
          · rw [isDeleted]
            dsimp only
            obtain ⟨again, isAgain, sameView⟩ := stored_eq_some same
            have plainAgain := plain_readConfigFile proper.documented isAgain
            rcases changeConfig_cases proper.documented (proper.honest .saving) isAgain
              (.save profile) (plainAgain.save plainProfile) with
              ⟨_, after, isSaved, sameAfter⟩ | ⟨fails, err, after, isError, sameAfter⟩
            · rw [isSaved]
              refine .inr (.inr ⟨form, profile, file.view, rfl, isStored, rfl, ?_⟩)
              rw [sameAfter, view_save, sameView, view_delete]
              rfl
            · rw [isError]
              cases known : file.view.profiles old with
              | none =>
                refine .inl ⟨_, by simp, rfl, ?_⟩
                rw [sameAfter, same, isStored, view_delete, ConfigView.delete_of_absent known]
              | some _ =>
                refine .inr (.inl ⟨old, form, profile, file.view, rfl, isValid, renamed,
                  isStored, by simp [known], ?_, reads, deletes, fails⟩)
                simpa [renamed] using free
          · rw [isError]
            exact .inl ⟨_, by simp, rfl, same⟩

/-- The secrets of a saved profile change its markers at most. -/
theorem applySecretChanges_cases (proper : env.Proper) {view : ConfigView}
    {profile : ConnectionProfile} (isStored : stored env.format env.path files = some view)
    (isProfile : view.profiles profile.name = some profile.view) {changes : SecretChanges}
    (isName : changes.name = profile.name) :
    .profileSaved ∉ (env.applySecretChanges changes files).1 ∧
      ∃ markers, stored env.format env.path (env.applySecretChanges changes files).2 =
          some (view.save { profile with inKeyring := markers }) ∧
        (markers = profile.inKeyring ∨ markers = changes.markers) := by
  have unchanged : view.save { profile with inKeyring := profile.inKeyring } = view := by
    refine ConfigView.ext (funext fun name => ?_) rfl
    simp only [ConfigView.save]
    split_ifs with same
    · rw [same, isProfile]
    · rfl
  unfold applySecretChanges
  rw [isName]
  split_ifs
  · have marked := setProfileMarkers_cases proper.documented (proper.honest .marking) isStored
      isProfile changes.markers
    revert marked
    rcases setProfileMarkers env.format env.path (env.faults .marking) profile.name changes.markers
      files with ⟨err | _, after⟩
    · rintro (same | same)
      · exact ⟨by simp, profile.inKeyring, same.trans (congrArg some unchanged.symm), .inl rfl⟩
      · exact ⟨by simp, changes.markers, same, .inr rfl⟩
    · rintro (same | same)
      · exact ⟨by simp, profile.inKeyring, same.trans (congrArg some unchanged.symm), .inl rfl⟩
      · exact ⟨by simp, changes.markers, same, .inr rfl⟩
  · exact ⟨by simp, profile.inKeyring, isStored.trans (congrArg some unchanged.symm), .inl rfl⟩

theorem saveProfile_error {event : SaveEvent}
    (isError : (env.storeDraft original draft files).1 = .error event) :
    env.saveProfile original draft files = ([event], (env.storeDraft original draft files).2) := by
  unfold saveProfile
  revert isError
  rcases env.storeDraft original draft files with ⟨_ | _, after⟩
  · rintro ⟨⟩
    rfl
  · rintro ⟨⟩

theorem saveProfile_ok {saved : StoredDraft}
    (isOk : (env.storeDraft original draft files).1 = .ok saved) :
    env.saveProfile original draft files =
      (.profileSaved :: env.listProfiles (env.storeDraft original draft files).2 ::
          (env.applySecretChanges saved.changes (env.storeDraft original draft files).2).1,
        (env.applySecretChanges saved.changes (env.storeDraft original draft files).2).2) := by
  unfold saveProfile
  revert isOk
  rcases env.storeDraft original draft files with ⟨_ | _, after⟩
  · rintro ⟨⟩
  · rintro ⟨⟩
    rfl

theorem not_allOrNothing_of_loses (proper : env.Proper) {old : String} {form : ConnectionForm}
    {profile : ConnectionProfile} {view : ConfigView}
    (loses : LosesOriginal env draft files old form profile view) :
    ¬AllOrNothing env (some old) draft files := by
  intro allOrNothing
  obtain ⟨⟨err, isError⟩, same⟩ := storeDraft_loses proper loses
  have unsaved := allOrNothing.unsaved
  rw [saveProfile_error isError] at unsaved
  have kept := unsaved (by simp)
  rw [same, loses.isStored, Option.some_inj] at kept
  have known := loses.known
  rw [← kept] at known
  simp [ConfigView.delete] at known

/-- Saving is all or nothing unless it loses the profile it was made of. -/
theorem allOrNothing_iff (proper : env.Proper) (original : Option String) (draft : ProfileDraft)
    (files : FileContents) :
    AllOrNothing env original draft files ↔
      ¬∃ old form profile view, original = some old ∧
        LosesOriginal env draft files old form profile view := by
  constructor
  · rintro allOrNothing ⟨old, form, profile, view, rfl, loses⟩
    exact not_allOrNothing_of_loses proper loses allOrNothing
  · intro losesNot
    rcases storeDraft_cases proper original draft files with
      ⟨event, isOther, isError, same⟩ | loses |
        ⟨form, profile, view, isValid, isStored, isOk, same⟩
    · constructor
      · rw [saveProfile_error isError]
        exact fun _ => same
      · rw [saveProfile_error isError]
        intro member
        exact absurd (List.mem_singleton.mp member).symm isOther
    · exact absurd loses losesNot
    · have isProfile : (view.replaced original profile).profiles profile.name =
          some profile.view := if_pos rfl
      have isName : (secretChanges original draft (env.preserveFrom original files) form
          profile).name = profile.name := rfl
      obtain ⟨_, markers, isMarked, isMarkers⟩ :=
        applySecretChanges_cases proper same isProfile isName
      constructor
      · rw [saveProfile_ok isOk]
        simp
      · rw [saveProfile_ok isOk]
        intro _
        refine ⟨form, profile, view, isValid, isStored, same, markers, ?_, isMarkers⟩
        rw [isMarked]
        exact congrArg some (ConfigView.save_save _ profile rfl)

/-! ### A profile that is lost -/

section Sample

def sampleFile : ConfigFile :=
  ⟨[("web", ⟨"", "sftp", "box", some 22, "ann", none, [], [], []⟩)], []⟩

def sampleText : String := "[connections.web]\nhost = \"box\"\nport = 22\nusername = \"ann\"\n"

noncomputable def sampleFormat : ConfigFormat where
  toml := .writing sampleFile.toToml sampleText
  mismatch _ := "invalid type"

def samplePath : Path := ⟨"/config/connections.toml"⟩

def sampleFiles : FileContents :=
  Function.update (fun _ => none) samplePath (some (StateFiles.toUtf8 sampleText))

/-- The file cannot be replaced a second time. -/
noncomputable def sampleSaving : Saving where
  format := sampleFormat
  path := samplePath
  lowercase := id
  protocols := [⟨⟨"sftp", "SFTP", sftpForm⟩, 22⟩]
  discover _ _ := .ok []
  faults step :=
    if step = .saving then
      ⟨fun call => if call = .replace then some ⟨.other, "no space left on device"⟩ else none, 0⟩
    else .none
  keyringAvailable := false

def renamedDraft : ProfileDraft :=
  { ProfileDraft.default with
    protocol := "sftp", name := "site", host := "box", username := "ann" }

theorem plain_sampleFile : sampleFile.Plain := by
  constructor
  · intro connection member
    cases List.mem_singleton.mp member
    exact ⟨by simp, by simp, List.nodup_nil⟩
  · decide
  · decide

theorem proper_sampleSaving : sampleSaving.Proper := by
  constructor
  · have another : ∃ char ∈ sampleText.toList, char ≠ 'x' := ⟨'[', by decide, by decide⟩
    refine ⟨TomlCrate.documented_writing _ another, fun text value isRead => ?_⟩
    exact TomlCrate.writable_writing (ConfigFile.writable_toToml plain_sampleFile) isRead
  · intro step err isError
    unfold sampleSaving at isError
    dsimp only at isError
    split_ifs at isError
    · cases isError
    · cases isError
  · intro protocol member
    cases List.mem_singleton.mp member
    exact ⟨by decide, by decide, by decide⟩
  · intro step protocol _ targets isFound target member
    cases isFound
    cases member

theorem allOrNothing_iff_sample :
    AllOrNothing sampleSaving (some "web") renamedDraft sampleFiles ↔
      ¬∃ old form profile view, some "web" = some old ∧
        LosesOriginal sampleSaving renamedDraft sampleFiles old form profile view :=
  allOrNothing_iff proper_sampleSaving (some "web") renamedDraft sampleFiles

theorem read_sample {faults : CallFaults} (noFault : faults.error .read = none) :
    readConfigFile sampleFormat samplePath faults sampleFiles = .ok sampleFile := by
  have isText : readToString faults samplePath sampleFiles = .ok sampleText := by
    simp [readToString, noFault, sampleFiles, StateFiles.fromUtf8_toUtf8]
  have isFile : ConfigFile.ofToml sampleFile.toToml = some sampleFile := by decide
  have isDocument : sampleFormat.toml.parse sampleText = .ok sampleFile.toToml := by
    simp [sampleFormat, TomlCrate.writing]
  rw [readConfigFile, isText]
  simp only [ConfigFormat.parse, isDocument, isFile]

/-- The entry of the sample -/
def sampleEntry : ConnectionEntry :=
  ⟨"web", "sftp", "box", 22, "ann", none, [], none, [], false, [], .profile⟩

theorem preserveFrom_sample :
    sampleSaving.preserveFrom (some "web") sampleFiles = some sampleEntry := by
  have entries : sampleSaving.allProfiles .profilesBefore .labelsBefore sampleFiles =
      .ok [sampleEntry] := by
    have loaded (step : SaveStep) (another : step ≠ .saving) :
        readConfigFile sampleSaving.format sampleSaving.path (sampleSaving.faults step)
          sampleFiles = .ok sampleFile := by
      apply read_sample
      simp [sampleSaving, another, CallFaults.none]
    have listed : (do
        let found ← discoverAll (fun _ => .ok []) ⟨sampleFile.profiles.map fun profile =>
          .fromProfile profile (defaultPortFor [⟨⟨"sftp", "SFTP", sftpForm⟩, 22⟩] profile.protocol),
          []⟩ [⟨⟨"sftp", "SFTP", sftpForm⟩, 22⟩]
        .ok (listEntries id found sampleFile.sshHosts)) =
          (.ok [sampleEntry] : Except String (List ConnectionEntry)) := by decide
    unfold allProfiles loadProfiles loadSshLabels
    rw [loaded .profilesBefore (by decide), loaded .labelsBefore (by decide)]
    exact listed
  unfold preserveFrom
  rw [Option.bind_some, entries]
  rfl

theorem loses_sample : LosesOriginal sampleSaving renamedDraft sampleFiles "web" sftpForm
    ⟨"site", "sftp", "box", some 22, "ann", none, [], [], []⟩ sampleFile.view := by
  have isRead : readConfigFile sampleFormat samplePath .none sampleFiles = .ok sampleFile :=
    read_sample rfl
  constructor
  · unfold validated
    rw [preserveFrom_sample]
    decide
  · decide
  · exact stored_of_read isRead
  · decide
  · decide
  · rfl
  · rfl
  · rfl

/-- Renaming a profile when the file cannot be replaced a second time -/
theorem not_allOrNothing_sample :
    ¬AllOrNothing sampleSaving (some "web") renamedDraft sampleFiles :=
  not_allOrNothing_of_loses proper_sampleSaving loses_sample

end Sample

end Saving

end Porthmos
