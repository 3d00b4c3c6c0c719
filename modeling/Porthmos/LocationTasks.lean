import Porthmos.EngineTransfers
import Porthmos.FtpFs
import Porthmos.RequestRuns
import Porthmos.S3Items

/-!
# Changing a location

Folders are made, entries renamed and paths deleted by tasks of the engine, which tell the screen
at their end that the location has changed, or what failed.  The operations are those of any file
system, and whatever they change before they fail stays changed.
-/

namespace Porthmos

open Program

/-- What a file system has for changing a location. -/
structure LocationFs (request : Type → Type) where
  createDir (path : Path) : Program request ProtocolError Unit
  rename (source target : Path) : Program request ProtocolError Unit
  delete (path : Path) : Program request ProtocolError Unit

def S3Fs.locationFs (fs : S3Fs) : LocationFs S3Request := ⟨fs.createDir, fs.rename, fs.delete⟩

def FtpFs.locationFs (fs : FtpFs) (fuel : Nat) : LocationFs FtpRequest :=
  ⟨fs.createDir, fs.rename, fs.delete fuel⟩

inductive LocationCommand
  | createDir (location : Location) (path : Path)
  | rename (location : Location) (source target : Path)
  | delete (location : Location) (paths : List Path)
  deriving DecidableEq, Repr

def LocationCommand.location : LocationCommand → Location
  | .createDir location _ => location
  | .rename location _ _ => location
  | .delete location _ => location

/-- What the tasks tell. -/
inductive LocationEvent
  | locationChanged (location : Location)
  | failure (message : String)
  deriving DecidableEq, Repr

/-- `failure_message` -/
def failureMessage (location : Location) (context : String) (err : ProtocolError) : String :=
  match location with
  | .local => err.message
  | .session _ => context ++ ":\n" ++ err.message

section Tasks

variable {request : Type → Type} (fs : LocationFs request) (location : Location)

/-- The end of a task. -/
def ended (context : String) : Except ProtocolError Unit → List LocationEvent
  | .ok () => [.locationChanged location]
  | .error err => [.failure (failureMessage location context err)]

def createDirTask (path : Path) : Program request ProtocolError (List LocationEvent) := do
  let result ← (fs.createDir path).attempt
  pure (ended location "Unable to create directory" result)

def renameTask (source target : Path) : Program request ProtocolError (List LocationEvent) := do
  let result ← (fs.rename source target).attempt
  pure (ended location "Unable to rename" result)

/-- The paths are deleted in turn, up to the first one that cannot be. -/
def deleteTask : List Path → Program request ProtocolError (List LocationEvent)
  | [] => pure [.locationChanged location]
  | path :: paths => do
      match ← (fs.delete path).attempt with
      | .ok () => deleteTask paths
      | .error err => pure [.failure (failureMessage location "Unable to delete" err)]

end Tasks

/-- `create_dir`, `rename` and `delete`: the task of a command, if its location is live. -/
def LocationCommand.task {request : Type → Type} (fsFor : Location → Option (LocationFs request)) :
    LocationCommand → Option (Program request ProtocolError (List LocationEvent))
  | .createDir location path => (fsFor location).map fun fs => createDirTask fs location path
  | .rename location source target =>
    (fsFor location).map fun fs => renameTask fs location source target
  | .delete location paths => (fsFor location).map fun fs => deleteTask fs location paths

section Announcing

variable {request : Type → Type} {σ γ : Type} (service : Service σ request ProtocolError)
  (fs : LocationFs request)

/-- An operation of a command fails, after those before it have succeeded. -/
inductive Stops : LocationCommand → σ → σ → Prop
  | createDir {location : Location} {path : Path} {before after : σ} (err : ProtocolError)
      (failed : (fs.createDir path).Runs service before (.error err) after) :
      Stops (.createDir location path) before after
  | rename {location : Location} {source target : Path} {before after : σ} (err : ProtocolError)
      (failed : (fs.rename source target).Runs service before (.error err) after) :
      Stops (.rename location source target) before after
  | delete {location : Location} {path : Path} {before after : σ} (paths : List Path)
      (err : ProtocolError) (failed : (fs.delete path).Runs service before (.error err) after) :
      Stops (.delete location (path :: paths)) before after
  | later {location : Location} {path : Path} {paths : List Path} {before after : σ} (between : σ)
      (deleted : (fs.delete path).Runs service before (.ok ()) between)
      (stops : Stops (.delete location paths) between after) :
      Stops (.delete location (path :: paths)) before after

/-- Whatever a run of the task has changed, it tells. -/
def Announces (content : σ → γ) (location : Location)
    (task : Program request ProtocolError (List LocationEvent)) (before : σ) : Prop :=
  ∀ events after, task.Runs service before (.ok events) after → content after ≠ content before →
    .locationChanged location ∈ events

variable {service fs} {content : σ → γ} {before after : σ}

theorem runs_attempt_pure {operation : Program request ProtocolError Unit}
    {events : List LocationEvent} (told : Except ProtocolError Unit → List LocationEvent) :
    (operation.attempt.bind fun result => pure (told result)).Runs service before (.ok events)
        after ↔ ∃ result, operation.Runs service before result after ∧ events = told result := by
  rw [runs_bind]
  constructor
  · rintro (⟨result, between, ran, isEvents, rfl⟩ | ⟨_, failed, _⟩)
    · obtain ⟨other, same, ran⟩ := runs_attempt.mp ran
      cases same
      cases isEvents
      exact ⟨result, ran, rfl⟩
    · cases failed
  · rintro ⟨result, ran, rfl⟩
    exact .inl ⟨result, after, runs_attempt.mpr ⟨result, rfl, ran⟩, rfl, rfl⟩

/-- The failure that a stopped task tells. -/
def IsFailure (events : List LocationEvent) : Prop := ∃ message, events = [.failure message]

theorem ended_cases (location : Location) (context : String) (result : Except ProtocolError Unit) :
    ended location context result = [.locationChanged location] ∨
      (∃ err, result = .error err) ∧ IsFailure (ended location context result) := by
  cases result with
  | ok _ => exact .inl rfl
  | error err => exact .inr ⟨⟨err, rfl⟩, _, rfl⟩

theorem runs_deleteTask {location : Location} {paths : List Path} {events : List LocationEvent}
    (run : (deleteTask fs location paths).Runs service before (.ok events) after) :
    events = [.locationChanged location] ∨
      Stops service fs (.delete location paths) before after ∧ IsFailure events := by
  induction paths generalizing before with
  | nil =>
    obtain ⟨same, _⟩ := run
    cases same
    exact .inl rfl
  | cons path paths ih =>
    rcases runs_bind.mp run with ⟨result, between, ran, goesOn⟩ | ⟨_, failed, _⟩
    · obtain ⟨_, same, ran⟩ := runs_attempt.mp ran
      cases same
      cases result with
      | ok _ =>
        rcases ih goesOn with isChanged | ⟨stops, isFailure⟩
        · exact .inl isChanged
        · exact .inr ⟨.later between ran stops, isFailure⟩
      | error err =>
        obtain ⟨same, rfl⟩ := goesOn
        cases same
        exact .inr ⟨.delete paths err ran, _, rfl⟩
    · cases failed

theorem deleteTask_of_stops {location : Location} {paths : List Path}
    (stops : Stops service fs (.delete location paths) before after) :
    ∃ events, IsFailure events ∧
      (deleteTask fs location paths).Runs service before (.ok events) after := by
  induction paths generalizing before with
  | nil => cases stops
  | cons path paths ih =>
    cases stops with
    | delete _ err failed =>
      refine ⟨_, ⟨_, rfl⟩, runs_bind.mpr (.inl ⟨.error err, after, ?_, rfl, rfl⟩)⟩
      exact runs_attempt.mpr ⟨_, rfl, failed⟩
    | later between deleted rest =>
      obtain ⟨events, isFailure, run⟩ := ih rest
      refine ⟨events, isFailure, runs_bind.mpr (.inl ⟨.ok (), between, ?_, run⟩)⟩
      exact runs_attempt.mpr ⟨_, rfl, deleted⟩

variable {fsFor : Location → Option (LocationFs request)} {command : LocationCommand}
  {task : Program request ProtocolError (List LocationEvent)}

/-- A task tells that the location has changed, or it was stopped and tells a failure. -/
theorem runs_task (isLive : fsFor command.location = some fs)
    (isTask : command.task fsFor = some task) {events : List LocationEvent}
    (run : task.Runs service before (.ok events) after) :
    events = [.locationChanged command.location] ∨
      Stops service fs command before after ∧ IsFailure events := by
  cases command with
  | createDir location path =>
    rw [LocationCommand.task, show fsFor location = some fs from isLive] at isTask
    cases isTask
    obtain ⟨result, ran, rfl⟩ := (runs_attempt_pure _).mp run
    rcases ended_cases location _ result with isChanged | ⟨⟨err, rfl⟩, isFailure⟩
    · exact .inl isChanged
    · exact .inr ⟨.createDir err ran, isFailure⟩
  | rename location source target =>
    rw [LocationCommand.task, show fsFor location = some fs from isLive] at isTask
    cases isTask
    obtain ⟨result, ran, rfl⟩ := (runs_attempt_pure _).mp run
    rcases ended_cases location _ result with isChanged | ⟨⟨err, rfl⟩, isFailure⟩
    · exact .inl isChanged
    · exact .inr ⟨.rename err ran, isFailure⟩
  | delete location paths =>
    rw [LocationCommand.task, show fsFor location = some fs from isLive] at isTask
    cases isTask
    exact runs_deleteTask run

theorem task_of_stops (isLive : fsFor command.location = some fs)
    (isTask : command.task fsFor = some task) (stops : Stops service fs command before after) :
    ∃ events, IsFailure events ∧ task.Runs service before (.ok events) after := by
  cases command with
  | createDir location path =>
    rw [LocationCommand.task, show fsFor location = some fs from isLive] at isTask
    cases isTask
    cases stops with
    | createDir err failed => exact ⟨_, ⟨_, rfl⟩, (runs_attempt_pure _).mpr ⟨_, failed, rfl⟩⟩
  | rename location source target =>
    rw [LocationCommand.task, show fsFor location = some fs from isLive] at isTask
    cases isTask
    cases stops with
    | rename err failed => exact ⟨_, ⟨_, rfl⟩, (runs_attempt_pure _).mpr ⟨_, failed, rfl⟩⟩
  | delete location paths =>
    rw [LocationCommand.task, show fsFor location = some fs from isLive] at isTask
    cases isTask
    exact deleteTask_of_stops stops

end Announcing

/-! ### Servers that refuse something -/

/-- A bucket in which no object with the key `b/2` may be written. -/
def bucketRespond : (β : Type) → List S3Object → S3Request β →
    Except ProtocolError β × List S3Object
  | _, objects, .listing _ below false => (.ok ⟨beginningWith below objects, []⟩, objects)
  | _, objects, .peek _ below => (.ok ⟨(beginningWith below objects).take 1, []⟩, objects)
  | _, objects, .uploads _ _ _ => (.ok [], objects)
  | _, objects, .started => (.ok [], objects)
  | _, objects, .head _ key =>
    (.ok ((objects.find? fun object => object.key = key).map fun object =>
      S3Fs.file object.size object.modified), objects)
  | _, objects, .copyObject _ source target =>
    if target = "b/2" then (.error ⟨.permissionDenied, "AccessDenied"⟩, objects)
    else (.ok (), objects ++ (objects.filter fun object => object.key = source).map
      fun object => { object with key := target })
  | _, objects, .delete _ key => (.ok (), objects.filter fun object => object.key ≠ key)
  | _, objects, _ => (.error ⟨.other, "not served"⟩, objects)

/-- Files in the folder `/d`, of which `/d/y` may not be deleted. -/
def folderRespond : (β : Type) → List String → FtpRequest β → Except ProtocolError β × List String
  | _, names, .command (.dele path) =>
    if path ≠ "/d/y" ∧ names.any fun name => path = "/d/" ++ name then
      (.ok (.ok ()), names.filter fun name => path ≠ "/d/" ++ name)
    else (.ok (.error (.unexpected 550 "Permission denied.")), names)
  | _, names, .command .pwd => (.ok (.ok "/"), names)
  | _, names, .command (.cwd _) => (.ok (.ok ()), names)
  | _, names, .command (.list _) => (.ok (.ok names), names)
  | _, names, .main => (.ok (), names)
  | _, names, .supportsMlst => (.ok false, names)
  | _, names, .now => (.ok 0, names)
  | _, names, _ => (.error ⟨.other, "not served"⟩, names)

/-- Every line of a listing is the name of a file. -/
def plainFtp : FtpFs where
  listing := ⟨fun _ => none, fun line _ => some ⟨line, ⟨1, none, .file⟩, none⟩, fun _ => none⟩
  home := ⟨"/"⟩
  mfmt := false
  moment _ := none

def sampleObject (key : String) : S3Object := ⟨key, 1, none⟩

theorem announces_exec {request : Type → Type} {σ γ : Type} {content : σ → γ}
    {respond : (β : Type) → σ → request β → Except ProtocolError β × σ} {location : Location}
    {task : Program request ProtocolError (List LocationEvent)} {before : σ}
    (events : List LocationEvent)
    (announces : Announces (answering respond) content location task before)
    (isEvents : (task.exec respond before).1 = .ok events)
    (changed : content (task.exec respond before).2 ≠ content before) :
    .locationChanged location ∈ events := by
  have run := runs_exec (serves_answering respond) task before
  rw [isEvents] at run
  exact announces events _ run changed

end Porthmos
