import Porthmos.ConfigFile

/-!
# Changing the file of the connections

Each change reads the whole file, changes what was read, and writes it to a temporary file that
replaces the old one.  Any call on the way may fail; the file then stays as it was.
-/

namespace Porthmos

open StateFiles (toUtf8 fromUtf8)

/-- The calls of one change, in their order. -/
inductive FileCall
  | read
  | createFolders
  | openTemp
  | protect
  | write
  | replace
  | removeTemp
  deriving DecidableEq, Repr

/-- Which calls fail, and how many bytes a write that fails has written. -/
structure CallFaults where
  error : FileCall → Option IoError
  written : Nat

namespace CallFaults

def none : CallFaults := ⟨fun _ => .none, 0⟩

/-- A file that is there is not reported as missing. -/
def Honest (faults : CallFaults) : Prop :=
  ∀ err, faults.error .read = some err → err.kind ≠ .notFound

def fails (faults : CallFaults) (call : FileCall) : Bool := (faults.error call).isSome

/-- Whether a call fails that the file is not written without. -/
def stopsWriting (faults : CallFaults) (path : Path) : Bool :=
  path.parent.isSome && faults.fails .createFolders ||
    [FileCall.openTemp, .protect, .write, .replace].any faults.fails

end CallFaults

abbrev FileContents := Path → Option Bytes

section Calls

variable (faults : CallFaults) (path : Path)

/-- `fs::read_to_string` -/
def readToString (files : FileContents) : Except IoError String :=
  match faults.error .read, files path with
  | some err, _ => .error err
  | none, none => .error ⟨.notFound, "No such file or directory (os error 2)"⟩
  | none, some bytes =>
    match fromUtf8 bytes with
    | some text => .ok text
    | none => .error ⟨.other, "stream did not contain valid UTF-8"⟩

def writeTempAndReplace (tempPath : Path) (contents : Bytes) (files : FileContents) :
    Except String Unit × FileContents :=
  if faults.fails .openTemp then (.error ("couldn't write " ++ tempPath.text), files)
  else if faults.fails .protect then
    (.error ("couldn't protect " ++ tempPath.text), Function.update files tempPath (some []))
  else if faults.fails .write then
    (.error ("couldn't write " ++ tempPath.text),
      Function.update files tempPath (some (contents.take faults.written)))
  else if faults.fails .replace then
    (.error ("couldn't replace " ++ path.text), Function.update files tempPath (some contents))
  else
    (.ok (), Function.update (Function.update files tempPath none) path (some contents))

def writeFile (contents : Bytes) (files : FileContents) : Except String Unit × FileContents :=
  if path.parent.isSome ∧ faults.fails .createFolders then
    (.error ("couldn't create " ++ (path.parent.map Path.text).getD ""), files)
  else
    let tempPath := path.pushText ".tmp"
    match writeTempAndReplace faults path tempPath contents files with
    | (.ok done, files) => (.ok done, files)
    | (.error err, files) =>
      (.error err, if faults.fails .removeTemp then files else Function.update files tempPath none)

end Calls

section Store

variable (format : ConfigFormat) (path : Path) (faults : CallFaults)

def readConfigFile (files : FileContents) : Except String ConfigFile :=
  match readToString faults path files with
  | .ok contents => format.parse contents
  | .error err => if err.kind = .notFound then .ok .empty else .error err.text

def writeConfigFile (file : ConfigFile) (files : FileContents) :
    Except String Unit × FileContents :=
  match format.render file with
  | .error err => (.error err, files)
  | .ok text => writeFile faults path (toUtf8 text) files

/-- Read the file, change what was read and write it back. -/
def changeConfig (change : ConfigFile → ConfigFile) (files : FileContents) :
    Except String Unit × FileContents :=
  match readConfigFile format path faults files with
  | .error err => (.error err, files)
  | .ok file => writeConfigFile format path faults (change file) files

/-- The profiles in the order of their names. -/
def ConfigFile.profiles (file : ConfigFile) : List ConnectionProfile :=
  (sortFields file.connections).map fun connection => { connection.2 with name := connection.1 }

def ConfigFile.put (name : String) (profile : ConnectionProfile) (file : ConfigFile) : ConfigFile :=
  { file with connections := insertOption file.connections name profile }

def ConfigFile.save (profile : ConnectionProfile) (file : ConfigFile) : ConfigFile :=
  file.put profile.name profile

def ConfigFile.delete (name : String) (file : ConfigFile) : ConfigFile :=
  { file with connections := file.connections.filter fun connection => connection.1 ≠ name }

/-- `store::load` -/
def loadProfiles (files : FileContents) : Except String (List ConnectionProfile) :=
  (readConfigFile format path faults files).map ConfigFile.profiles

/-- `store::save` -/
def storeProfile (profile : ConnectionProfile) :
    FileContents → Except String Unit × FileContents :=
  changeConfig format path faults (ConfigFile.save profile)

/-- `store::delete` -/
def deleteStored (name : String) : FileContents → Except String Unit × FileContents :=
  changeConfig format path faults (ConfigFile.delete name)

def loadSshLabels (files : FileContents) : Except String (List (String × Labels)) :=
  (readConfigFile format path faults files).map ConfigFile.sshHosts

/-- Nothing is written for a profile that is not there. -/
def setProfileMarkers (name : String) (markers : List String) (files : FileContents) :
    Except String Bool × FileContents :=
  match readConfigFile format path faults files with
  | .error err => (.error err, files)
  | .ok file =>
    match file.connections.lookup name with
    | none => (.ok false, files)
    | some profile =>
      let marked := file.put name { profile with inKeyring := markers }
      let (written, files) := writeConfigFile format path faults marked files
      (written.map fun _ => true, files)

/-- What the file says, if it can be read. -/
def stored (files : FileContents) : Option ConfigView :=
  (readConfigFile format path .none files).toOption.map ConfigFile.view

end Store

/-! ### What a write does to the file -/

variable {format : ConfigFormat} {path : Path} {faults : CallFaults} {files : FileContents}

theorem ne_tempPath (path : Path) : path ≠ path.pushText ".tmp" := by
  intro same
  have texts : path.text.toList = (path.text ++ ".tmp").toList :=
    congrArg (fun path => path.text.toList) same
  have lengths := congrArg List.length texts
  simp at lengths

theorem writeTempAndReplace_spec (faults : CallFaults) (files : FileContents) {tempPath : Path}
    (differs : path ≠ tempPath) (contents : Bytes) :
    ((writeTempAndReplace faults path tempPath contents files).1 = .ok () ↔
        [FileCall.openTemp, .protect, .write, .replace].any faults.fails = false) ∧
      (writeTempAndReplace faults path tempPath contents files).2 path =
        if [FileCall.openTemp, .protect, .write, .replace].any faults.fails then files path
        else some contents := by
  simp only [writeTempAndReplace, List.any_cons, List.any_nil, Bool.or_false]
  split_ifs with openTemp protect write replace <;> simp_all [Function.update_of_ne]

theorem writeFile_spec (faults : CallFaults) (path : Path) (files : FileContents) (contents : Bytes) :
    ((writeFile faults path contents files).1 = .ok () ↔ faults.stopsWriting path = false) ∧
      (writeFile faults path contents files).2 path =
        if faults.stopsWriting path then files path else some contents := by
  have differs := ne_tempPath path
  obtain ⟨done, same⟩ := writeTempAndReplace_spec faults files differs contents
  by_cases noFolder : path.parent.isSome = true ∧ faults.fails .createFolders = true
  · have stops : faults.stopsWriting path = true := by
      simp [CallFaults.stopsWriting, noFolder.1, noFolder.2]
    rw [stops, writeFile, if_pos noFolder]
    simp
  · have stops : faults.stopsWriting path =
        [FileCall.openTemp, .protect, .write, .replace].any faults.fails := by
      unfold CallFaults.stopsWriting
      cases isSome : path.parent.isSome <;> simp_all
    rw [stops, writeFile, if_neg noFolder, ← done, ← same]
    dsimp only
    rcases writeTempAndReplace faults path (path.pushText ".tmp") contents files with
      ⟨_ | _, after⟩
    · refine ⟨by simp, ?_⟩
      cases faults.fails .removeTemp with
      | true => rfl
      | false => exact Function.update_of_ne differs ..
    · exact ⟨Iff.rfl, rfl⟩

/-! ### What a change does to the file -/

theorem readConfigFile_congr {after : FileContents} (same : after path = files path) :
    readConfigFile format path faults after = readConfigFile format path faults files := by
  unfold readConfigFile readToString
  rw [same]

theorem stored_congr {after : FileContents} (same : after path = files path) :
    stored format path after = stored format path files := by
  unfold stored
  rw [readConfigFile_congr same]

theorem readConfigFile_ok {file : ConfigFile}
    (isRead : readConfigFile format path .none files = .ok file)
    (noFault : faults.error .read = none) : readConfigFile format path faults files = .ok file := by
  unfold readConfigFile readToString at isRead ⊢
  rw [noFault]
  exact isRead

theorem readConfigFile_honest (honest : faults.Honest) {file : ConfigFile}
    (isRead : readConfigFile format path faults files = .ok file) :
    faults.error .read = none ∧ readConfigFile format path .none files = .ok file := by
  cases isError : faults.error .read with
  | some err =>
    unfold readConfigFile readToString at isRead
    rw [isError] at isRead
    simp [honest err isError] at isRead
  | none =>
    refine ⟨rfl, ?_⟩
    unfold readConfigFile readToString at isRead ⊢
    rw [isError] at isRead
    exact isRead

theorem plain_readConfigFile (documented : format.Documented) {file : ConfigFile}
    (isRead : readConfigFile format path faults files = .ok file) : file.Plain := by
  unfold readConfigFile at isRead
  split at isRead
  · exact ConfigFormat.plain_parse documented isRead
  · split_ifs at isRead
    cases isRead
    exact ⟨fun _ member => (List.not_mem_nil member).elim, List.nodup_nil, List.nodup_nil⟩

/-- A file that can be kept is written unless a call stops it. -/
theorem writeConfigFile_cases (documented : format.Documented) (path : Path) (faults : CallFaults)
    (files : FileContents) {file : ConfigFile} (plain : file.Plain) :
    (faults.stopsWriting path = false ∧
      ∃ after, writeConfigFile format path faults file files = (.ok (), after) ∧
        stored format path after = some file.view) ∨
    (faults.stopsWriting path = true ∧
      ∃ err after, writeConfigFile format path faults file files = (.error err, after) ∧
        stored format path after = stored format path files) := by
  obtain ⟨text, rendered⟩ := ConfigFormat.exists_render documented plain
  have isWrite : writeConfigFile format path faults file files =
      writeFile faults path (toUtf8 text) files := by
    unfold writeConfigFile
    rw [rendered]
  obtain ⟨done, same⟩ := writeFile_spec faults path files (toUtf8 text)
  rw [isWrite]
  revert done same
  rcases writeFile faults path (toUtf8 text) files with ⟨err | _, after⟩
  · intro notDone same
    have stops : faults.stopsWriting path = true := by
      cases isStop : faults.stopsWriting path with
      | true => rfl
      | false => exact absurd (notDone.mpr isStop) (by simp)
    rw [stops] at same
    exact .inr ⟨stops, err, after, rfl, stored_congr same⟩
  · intro done same
    have noStop := done.mp rfl
    have written : after path = some (toUtf8 text) := by simpa [noStop] using same
    obtain ⟨again, parsed, sameView⟩ := ConfigFormat.parse_render documented plain rendered
    have isText : readToString .none path after = .ok text := by
      simp [readToString, CallFaults.none, written, StateFiles.fromUtf8_toUtf8]
    have isRead : readConfigFile format path .none after = .ok again := by
      rw [readConfigFile, isText]
      exact parsed
    refine .inl ⟨noStop, after, rfl, ?_⟩
    rw [stored, isRead, ← sameView]
    rfl

/-- What makes a change fail. -/
def CallFaults.stopsChange (faults : CallFaults) (path : Path) : Bool :=
  faults.fails .read || faults.stopsWriting path

/-- A change that no call stops is made, and any other leaves what is stored. -/
theorem changeConfig_cases (documented : format.Documented) (honest : faults.Honest)
    {file : ConfigFile} (isRead : readConfigFile format path .none files = .ok file)
    (change : ConfigFile → ConfigFile) (plain : (change file).Plain) :
    (faults.stopsChange path = false ∧
      ∃ after, changeConfig format path faults change files = (.ok (), after) ∧
        stored format path after = some (change file).view) ∨
    (faults.stopsChange path = true ∧
      ∃ err after, changeConfig format path faults change files = (.error err, after) ∧
        stored format path after = stored format path files) := by
  unfold changeConfig CallFaults.stopsChange
  cases again : readConfigFile format path faults files with
  | error err =>
    have fault : faults.fails .read = true := by
      cases noFault : faults.error .read with
      | some _ => simp [CallFaults.fails, noFault]
      | none =>
        rw [readConfigFile_ok isRead noFault] at again
        cases again
    exact .inr ⟨by simp [fault], err, files, rfl, rfl⟩
  | ok other =>
    obtain ⟨noFault, same⟩ := readConfigFile_honest honest again
    cases isRead.symm.trans same
    have noFail : faults.fails .read = false := by simp [CallFaults.fails, noFault]
    rw [noFail, Bool.false_or]
    exact writeConfigFile_cases documented path faults files plain

/-! ### What the changes are -/

namespace ConfigView

def save (profile : ConnectionProfile) (view : ConfigView) : ConfigView :=
  { view with profiles := fun name =>
      if name = profile.name then some profile.view else view.profiles name }

def delete (name : String) (view : ConfigView) : ConfigView :=
  { view with profiles := fun other => if other = name then none else view.profiles other }

end ConfigView

theorem view_put (name : String) (profile : ConnectionProfile) (file : ConfigFile) :
    (file.put name profile).view = file.view.save { profile with name } := by
  refine ConfigView.ext (funext fun other => ?_) rfl
  simp only [ConfigFile.view, ConfigFile.put, ConfigView.save, lookup_insertOption]
  split_ifs with same
  · rw [same]
    rfl
  · rfl

theorem view_save (profile : ConnectionProfile) (file : ConfigFile) :
    (file.save profile).view = file.view.save profile :=
  view_put profile.name profile file

theorem view_delete (name : String) (file : ConfigFile) :
    (file.delete name).view = file.view.delete name := by
  refine ConfigView.ext (funext fun other => ?_) rfl
  have kept := lookup_filter file.connections (fun other => decide (other ≠ name)) other
  simp only [ConfigFile.view, ConfigFile.delete, ConfigView.delete]
  rw [kept]
  by_cases same : other = name <;> simp [same]

theorem nodup_insertOption {α : Type} {fields : List (String × α)}
    (distinct : (fields.map Prod.fst).Nodup) (key : String) (value : α) :
    ((insertOption fields key value).map Prod.fst).Nodup := by
  unfold insertOption
  rw [List.map_append, List.nodup_append]
  refine ⟨distinct.sublist (List.filter_sublist.map _), by simp, ?_⟩
  intro other member key' isKey same
  obtain ⟨field, isField, rfl⟩ := List.mem_map.mp member
  have differs : field.1 ≠ key := of_decide_eq_true (List.mem_filter.mp isField).2
  exact differs (same.trans (List.mem_singleton.mp isKey))

namespace ConfigFile.Plain

variable {file : ConfigFile}

theorem put (plain : file.Plain) (name : String) {profile : ConnectionProfile}
    (plainProfile : profile.Plain) : (file.put name profile).Plain := by
  constructor
  · intro connection member
    rcases List.mem_append.mp member with member | member
    · exact plain.profiles connection (List.mem_filter.mp member).1
    · cases List.mem_singleton.mp member
      exact plainProfile
  · exact nodup_insertOption plain.connections ..
  · exact plain.sshHosts

theorem save (plain : file.Plain) {profile : ConnectionProfile} (plainProfile : profile.Plain) :
    (file.save profile).Plain :=
  plain.put profile.name plainProfile

theorem delete (plain : file.Plain) (name : String) : (file.delete name).Plain where
  profiles connection member := plain.profiles connection (List.mem_filter.mp member).1
  connections := plain.connections.sublist (List.filter_sublist.map _)
  sshHosts := plain.sshHosts

end ConfigFile.Plain

end Porthmos
