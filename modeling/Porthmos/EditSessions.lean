import Mathlib.Data.List.Count
import Porthmos.EngineTransfers

/-!
# Edit sessions

A remote file is edited in a local copy.  A task downloads it into a folder of its own and hashes
it, an editor runs, another task hashes the file again, and a changed file is uploaded, perhaps
after a question.  The engine handles commands and the messages of the tasks one at a time;
between them the tasks and the editors take their steps.

The folder of an edit is named after the time and the number of the edit, and the number alone tells
it from the folders of the other edits of a run.
-/

namespace Porthmos

def maxEditBytes : Nat := 64 * 1024 * 1024

inductive EditorExit
  | success
  | status (code : Int)
  | launchFailed
  deriving DecidableEq, Repr

inductive EditChoice
  | upload
  | keepCopy
  | cancel
  deriving DecidableEq, Repr

inductive EditQuestionKind
  | upload
  | conflict
  deriving DecidableEq, Repr

inductive UploadMode
  | checked
  | forced
  | copy
  deriving DecidableEq, Repr

structure Baseline where
  size : Nat
  modified : Option Nat
  hash : Nat
  deriving DecidableEq, Repr

/-- `temp` says whether the session has its folder yet. -/
structure EditSession where
  location : Location
  remotePath : Path
  name : String
  temp : Bool
  baseline : Option Baseline
  pending : Option EditQuestionKind
  awaitingEditor : Bool
  saving : Bool
  deriving DecidableEq, Repr

inductive Prepared
  | ready (baseline : Baseline)
  | cancelled
  | failed
  deriving DecidableEq, Repr

/-- `changed` is missing if the file could not be hashed, and `stored` says whether the upload has
succeeded. -/
inductive EditEvent
  | prepared (editId : Nat) (result : Prepared)
  | inspected (editId : Nat) (changed : Option Bool) (aborted : Option Int)
  | conflict (editId : Nat)
  | uploaded (editId : Nat) (stored : Bool)
  deriving DecidableEq, Repr

/-- A message in the channel to the engine. -/
inductive EditMessage
  | event (event : EditEvent)
  | taskPanicked (editId : Nat)
  deriving DecidableEq, Repr

structure UploadJob where
  remote : Path
  baseline : Baseline
  name : String
  mode : UploadMode
  stamp : String
  deriving DecidableEq, Repr

/-- `conflict_copy_name`, with the time formatted. -/
def conflictCopyName (name stamp : String) : String :=
  let characters := name.toList
  let index := characters.length - (characters.reverse.takeWhile (· ≠ '.')).length - 1
  if '.' ∈ characters ∧ 0 < index then
    String.ofList (characters.take index) ++ ".conflict-" ++ stamp ++
      String.ofList (characters.drop index)
  else name ++ ".conflict-" ++ stamp

example : conflictCopyName "a.tar.gz" "T" = "a.tar.conflict-T.gz" ∧
    conflictCopyName ".bashrc" "T" = ".bashrc.conflict-T" := by decide

def UploadJob.target (job : UploadJob) : Path :=
  match job.mode with
  | .copy => job.remote.withFileName (conflictCopyName job.name job.stamp)
  | .checked | .forced => job.remote

/-- How far a task of an edit has come: `prepare`, the inspection and `upload`, each at what it asks
of a file system next. -/
inductive EditTask (byte : Type*)
  | statting
  | creating (size : Nat) (modified : Option Nat)
  | fetching (size : Nat) (modified : Option Nat)
  | securing (size : Nat) (modified : Option Nat)
  | hashing (size : Nat) (modified : Option Nat)
  | inspecting (baseline : Baseline) (aborted : Option Int)
  | checking (job : UploadJob)
  | probing (job : UploadJob)
  | opening (job : UploadJob)
  /-- What the reader has left and what the writer has got. -/
  | copying (job : UploadJob) (left sent : List byte)
  | closing (job : UploadJob) (sent : List byte)

structure LiveEdit (byte : Type*) where
  editId : Nat
  cancel : Bool
  task : EditTask byte

/-- The folder of an edit, and the file if there is one. -/
structure EditFolder (byte : Type*) where
  file : Option (List byte)

/-- The editor of an edit: the engine has not asked for it, it may be started, it runs, or it never
will again. -/
inductive Editor
  | idle
  | ready
  | running
  | exited
  deriving DecidableEq, Repr

/-- An upload whose write and shutdown have succeeded. -/
structure StoredEdit (byte : Type*) where
  editId : Nat
  target : Path
  contents : List byte

/-- The edits of the engine, their tasks, messages, folders and editors.  `originals`, `baselines` and
`stored` record what is edited, what was computed and what was uploaded; nothing reads them. -/
structure Edits (byte : Type*) where
  sessions : OrderedMap Nat EditSession
  nextId : Nat
  autoUpload : Bool
  cancelled : OrderedSet Nat
  connected : OrderedSet Nat
  tasks : OrderedMap Nat (LiveEdit byte)
  nextTask : Nat
  internal : List EditMessage
  folders : Nat → Option (EditFolder byte)
  editors : Nat → Editor
  originals : Nat → Option (Path × String)
  baselines : Nat → Option Baseline
  stored : List (StoredEdit byte)

/-- What the file systems answer to a task. -/
structure EditAnswer (byte : Type*) where
  ok : Bool
  notFound : Bool
  isDir : Bool
  cancelled : Bool
  size : Nat
  modified : Option Nat
  bytes : List byte
  count : Nat

namespace Edits

variable {byte : Type*}

def start (autoUpload : Bool) : Edits byte where
  sessions := .empty
  nextId := 0
  autoUpload := autoUpload
  cancelled := .empty
  connected := .empty
  tasks := .empty
  nextTask := 0
  internal := []
  folders := fun _ => none
  editors := fun _ => .idle
  originals := fun _ => none
  baselines := fun _ => none
  stored := []

/-! ### Parts of the handlers -/

def setSession (edits : Edits byte) (editId : Nat) (session : EditSession) : Edits byte :=
  { edits with sessions := edits.sessions.insert editId session }

def forget (edits : Edits byte) (editId : Nat) : Edits byte :=
  { edits with cancelled := edits.cancelled.erase editId }

def spawn (edits : Edits byte) (editId : Nat) (task : EditTask byte) : Edits byte :=
  { edits with
    tasks := edits.tasks.insert edits.nextTask ⟨editId, false, task⟩
    nextTask := edits.nextTask + 1 }

def removeDir (edits : Edits byte) (editId : Nat) : Edits byte :=
  { edits with folders := Function.update edits.folders editId none }

def removeSession (edits : Edits byte) (editId : Nat) : Edits byte :=
  { edits with sessions := edits.sessions.erase editId }

def setEditor (edits : Edits byte) (editId : Nat) (editor : Editor) : Edits byte :=
  { edits with editors := Function.update edits.editors editId editor }

def dropEdit (edits : Edits byte) (editId : Nat) : Edits byte :=
  match edits.sessions.get? editId with
  | none => edits.forget editId
  | some session =>
    let removed := (edits.forget editId).removeSession editId
    if session.temp then removed.removeDir editId else removed

/-- `keep_edit`; the user is told where the changes are. -/
def keepEdit (edits : Edits byte) (editId : Nat) : Edits byte :=
  (edits.forget editId).removeSession editId

def askEdit (edits : Edits byte) (editId : Nat) (kind : EditQuestionKind) : Edits byte :=
  match edits.sessions.get? editId with
  | none => edits
  | some session => edits.setSession editId { session with pending := some kind, saving := false }

/-- `fs_for(location)` finds a file system. -/
def hasFs (edits : Edits byte) : Location → Bool
  | .local => true
  | .session id => edits.connected.contains id

/-- The first thing `upload` asks of a file system. -/
def uploadTask (job : UploadJob) : EditTask byte :=
  match job.mode with
  | .checked => .checking job
  | .copy => .probing job
  | .forced => .opening job

def startUpload (edits : Edits byte) (editId : Nat) (mode : UploadMode) (stamp : String) :
    Edits byte :=
  match edits.sessions.get? editId with
  | none => edits
  | some session =>
    match session.temp, session.baseline with
    | true, some baseline =>
      let saving := edits.setSession editId { session with saving := true }
      if edits.hasFs session.location then
        saving.spawn editId
          (uploadTask ⟨session.remotePath, baseline, session.name, mode, stamp⟩)
      else saving.keepEdit editId
    | _, _ => edits

def inspectEdit (edits : Edits byte) (editId : Nat) (aborted : Option Int) : Edits byte :=
  match edits.sessions.get? editId with
  | none => edits
  | some session =>
    let saving := edits.setSession editId { session with saving := true }
    match session.temp, session.baseline with
    | true, some baseline => saving.spawn editId (.inspecting baseline aborted)
    | _, _ => saving.dropEdit editId

/-! ### Commands -/

/-- `new_edit_session` -/
def newEditSession (edits : Edits byte) (location : Location) (path : Path)
    (awaitingEditor : Bool) : Edits byte :=
  let name := path.fileName.getD ""
  { edits.setSession edits.nextId
      ⟨location, path, name, false, none, none, awaitingEditor, false⟩ with
    nextId := edits.nextId + 1
    originals := Function.update edits.originals edits.nextId (some (path, name)) }

/-- `edit_local_file`, when the editor command is known. -/
def editLocalFile (edits : Edits byte) (path : Path) (isDir : Bool) : Edits byte :=
  if isDir then edits
  else (edits.newEditSession .local path true).setEditor edits.nextId .ready

/-- `edit_remote_file`, when the editor command is known. -/
def editRemoteFile (edits : Edits byte) (sessionId : Nat) (path : Path) : Edits byte :=
  if edits.connected.contains sessionId then
    (edits.newEditSession (.session sessionId) path false).spawn edits.nextId .statting
  else edits

/-- `cancel_edit_downloads` -/
def cancelEditDownloads (edits : Edits byte) : Edits byte :=
  { edits with
    cancelled := edits.sessions.keys.foldl (fun cancelled id => cancelled.insert id ()) edits.cancelled
    tasks := edits.tasks.filterMap fun _ live =>
      some { live with cancel := live.cancel || edits.sessions.contains live.editId } }

def finishEdit (edits : Edits byte) (editId : Nat) (exit : EditorExit) : Edits byte :=
  match edits.sessions.get? editId with
  | none => edits
  | some session =>
    if session.awaitingEditor then
      let exited := edits.setSession editId { session with awaitingEditor := false }
      match session.location, exit with
      | _, .launchFailed => exited.dropEdit editId
      | .local, .status _ => exited.dropEdit editId
      | .local, .success => exited.dropEdit editId
      | .session _, .status code => exited.inspectEdit editId (some code)
      | .session _, .success => exited.inspectEdit editId none
    else edits

def resolveEdit (edits : Edits byte) (editId : Nat) (choice : EditChoice) (stamp : String) :
    Edits byte :=
  match edits.sessions.get? editId with
  | none => edits
  | some session =>
    match session.pending with
    | none => edits
    | some kind =>
      let taken := edits.setSession editId { session with pending := none }
      match kind, choice with
      | .upload, .upload => taken.startUpload editId .checked stamp
      | .conflict, .upload => taken.startUpload editId .forced stamp
      | .conflict, .keepCopy => taken.startUpload editId .copy stamp
      | _, .cancel => taken.keepEdit editId
      | .upload, .keepCopy => taken.keepEdit editId

/-! ### Messages -/

def finishPrepare (edits : Edits byte) (editId : Nat) (result : Prepared) : Edits byte :=
  match result with
  | .ready baseline =>
    match edits.sessions.get? editId with
    | none => edits.removeDir editId
    | some session =>
      if edits.cancelled.contains editId then
        ((edits.forget editId).removeSession editId).removeDir editId
      else
        (edits.setSession editId { session with
          baseline := some baseline
          awaitingEditor := true
          temp := true }).setEditor editId .ready
  | .cancelled => (edits.forget editId).removeSession editId
  | .failed => (edits.forget editId).removeSession editId

def finishInspect (edits : Edits byte) (editId : Nat) (changed : Option Bool) (aborted : Option Int)
    (stamp : String) : Edits byte :=
  if edits.sessions.contains editId then
    match changed, aborted with
    | none, _ => edits.keepEdit editId
    | some false, none => edits.dropEdit editId
    | some false, some _ => edits.dropEdit editId
    | some true, some _ => edits.keepEdit editId
    | some true, none =>
      if edits.autoUpload then edits.startUpload editId .checked stamp
      else edits.askEdit editId .upload
  else edits

def finishUpload (edits : Edits byte) (editId : Nat) (stored : Bool) : Edits byte :=
  if edits.sessions.contains editId then
    if stored then edits.dropEdit editId else edits.keepEdit editId
  else edits

def handleEditEvent (edits : Edits byte) (event : EditEvent) (stamp : String) : Edits byte :=
  match event with
  | .prepared editId result => edits.finishPrepare editId result
  | .inspected editId changed aborted => edits.finishInspect editId changed aborted stamp
  | .conflict editId => edits.askEdit editId .conflict
  | .uploaded editId stored => edits.finishUpload editId stored

/-- `recover_from_panic` for a task of an edit. -/
def recoverFromPanic (edits : Edits byte) (editId : Nat) : Edits byte :=
  if edits.sessions.contains editId then edits.keepEdit editId else edits

/-- The engine handles the first message. -/
def handleInternal (edits : Edits byte) (stamp : String) : Edits byte :=
  match edits.internal with
  | [] => edits
  | message :: rest =>
    let taken := { edits with internal := rest }
    match message with
    | .event event => taken.handleEditEvent event stamp
    | .taskPanicked editId => taken.recoverFromPanic editId

/-! ### Tasks -/

/-- A task goes on. -/
def setTask (edits : Edits byte) (key : Nat) (live : LiveEdit byte) (task : EditTask byte) :
    Edits byte :=
  { edits with tasks := edits.tasks.insert key { live with task } }

/-- A task ends with a message. -/
def endTask (edits : Edits byte) (key : Nat) (message : EditMessage) : Edits byte :=
  { edits with
    tasks := edits.tasks.erase key
    internal := edits.internal ++ [message] }

def setFile (edits : Edits byte) (editId : Nat) (file : Option (List byte)) : Edits byte :=
  { edits with folders := Function.update edits.folders editId (some ⟨file⟩) }

/-- The bytes of the file of an edit. -/
def fileOf (edits : Edits byte) (editId : Nat) : Option (List byte) :=
  (edits.folders editId).bind EditFolder.file

/-- `prepare` gives up: the folder goes if it was created, and the engine is told. -/
def endPrepare (edits : Edits byte) (key editId : Nat) (created : Bool) (result : Prepared) :
    Edits byte :=
  (if created then edits.removeDir editId else edits).endTask key (.event (.prepared editId result))

/-- A task gets an answer and comes to what it asks next. -/
def work (hashFile : List byte → Nat) (edits : Edits byte) (key : Nat) (answer : EditAnswer byte) :
    Edits byte :=
  match edits.tasks.get? key with
  | none => edits
  | some live =>
    let editId := live.editId
    let failed := edits.endTask key (.event (.uploaded editId false))
    match live.task with
    | .statting =>
      if answer.ok ∧ answer.isDir = false ∧ answer.size ≤ maxEditBytes then
        edits.setTask key live (.creating answer.size answer.modified)
      else edits.endPrepare key editId false .failed
    | .creating size modified =>
      if answer.ok ∧ edits.folders editId = none then
        (edits.setFile editId none).setTask key live (.fetching size modified)
      else edits.endPrepare key editId false .failed
    | .fetching size modified =>
      if live.cancel ∧ answer.cancelled then edits.endPrepare key editId true .cancelled
      else if answer.ok then
        (edits.setFile editId (some answer.bytes)).setTask key live (.securing size modified)
      else edits.endPrepare key editId true .failed
    | .securing size modified =>
      if answer.ok then edits.setTask key live (.hashing size modified)
      else edits.endPrepare key editId true .failed
    | .hashing size modified =>
      match answer.ok, edits.fileOf editId with
      | true, some contents =>
        let baseline : Baseline := ⟨size, modified, hashFile contents⟩
        { edits with baselines := Function.update edits.baselines editId (some baseline)
          }.endTask key (.event (.prepared editId (.ready baseline)))
      | _, _ => edits.endPrepare key editId true .failed
    | .inspecting baseline aborted =>
      let changed := match answer.ok, edits.fileOf editId with
        | true, some contents => some (decide (hashFile contents ≠ baseline.hash))
        | _, _ => none
      edits.endTask key (.event (.inspected editId changed aborted))
    | .checking job =>
      if answer.ok then
        if answer.size ≠ job.baseline.size ∨ answer.modified ≠ job.baseline.modified then
          edits.endTask key (.event (.conflict editId))
        else edits.setTask key live (.opening job)
      else if answer.notFound then edits.endTask key (.event (.conflict editId))
      else failed
    | .probing job => if answer.ok then failed else edits.setTask key live (.opening job)
    | .opening job =>
      match answer.ok, edits.fileOf editId with
      | true, some contents => edits.setTask key live (.copying job contents [])
      | _, _ => failed
    | .copying job left sent =>
      if answer.ok then
        if left = [] then edits.setTask key live (.closing job sent)
        else
          edits.setTask key live (.copying job (left.drop (answer.count + 1))
            (sent ++ left.take (answer.count + 1)))
      else failed
    | .closing job sent =>
      if answer.ok then
        let entry : StoredEdit byte := ⟨editId, job.target, sent⟩
        { edits with stored := edits.stored ++ [entry] }.endTask key
          (.event (.uploaded editId true))
      else failed

def panic (edits : Edits byte) (key : Nat) : Edits byte :=
  match edits.tasks.get? key with
  | none => edits
  | some live => edits.endTask key (.taskPanicked live.editId)

/-- A task is aborted; it sends nothing. -/
def abort (edits : Edits byte) (key : Nat) : Edits byte :=
  { edits with tasks := edits.tasks.erase key }

end Edits

/-- An exit can be reported once the editor does not run any more, and that it could not be launched
only if it never ran. -/
def Editor.mayExit : Editor → EditorExit → Bool
  | .idle, _ | .ready, _ | .exited, .success | .exited, .status _ => true
  | .running, _ | .exited, .launchFailed => false

def Editor.gone : Editor → Editor
  | .idle => .idle
  | _ => .exited

inductive EditStep (byte : Type*)
  | editLocal (path : Path) (isDir : Bool)
  | editRemote (sessionId : Nat) (path : Path)
  | cancelAll
  | finishEdit (editId : Nat) (exit : EditorExit)
  | resolveEdit (editId : Nat) (choice : EditChoice) (stamp : String)
  | connect (sessionId : Nat)
  | disconnect (sessionId : Nat)
  | handle (stamp : String)
  | work (key : Nat) (answer : EditAnswer byte)
  | panic (key : Nat)
  | abort (key : Nat)
  | launch (editId : Nat)
  /-- The editor writes the file, or removes it. -/
  | save (editId : Nat) (file : Option (List byte))
  | quit (editId : Nat)

namespace Edits

variable {byte : Type*}

def next (hashFile : List byte → Nat) (edits : Edits byte) : EditStep byte → Edits byte
  | .editLocal path isDir => edits.editLocalFile path isDir
  | .editRemote sessionId path => edits.editRemoteFile sessionId path
  | .cancelAll => edits.cancelEditDownloads
  | .finishEdit editId exit =>
    if (edits.editors editId).mayExit exit then
      (edits.setEditor editId (edits.editors editId).gone).finishEdit editId exit
    else edits
  | .resolveEdit editId choice stamp => edits.resolveEdit editId choice stamp
  | .connect sessionId => { edits with connected := edits.connected.insert sessionId () }
  | .disconnect sessionId => { edits with connected := edits.connected.erase sessionId }
  | .handle stamp => edits.handleInternal stamp
  | .work key answer => edits.work hashFile key answer
  | .panic key => edits.panic key
  | .abort key => edits.abort key
  | .launch editId =>
    if edits.editors editId = .ready then edits.setEditor editId .running else edits
  | .save editId file =>
    if edits.editors editId = .running ∧ (edits.folders editId).isSome then
      edits.setFile editId file
    else edits
  | .quit editId =>
    if edits.editors editId = .running then edits.setEditor editId .exited else edits

def after (hashFile : List byte → Nat) (edits : Edits byte) (steps : List (EditStep byte)) :
    Edits byte :=
  steps.foldl (next hashFile) edits

end Edits

end Porthmos
