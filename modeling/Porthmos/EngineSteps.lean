import Porthmos.EngineSyncs

/-!
# The steps of the engine

The engine handles one command or one message at a time.  Between any two of them every
task may send a message, end or panic.  A run is any list of such steps, and a step that
cannot be taken changes nothing.
-/

namespace Porthmos

/-- The commands that touch sessions or transfers.  `connect` also says whether a saved
connection of that name and its protocol were found. -/
inductive Command
  | connect (profile : String) (found : Bool)
  | disconnect (session : Nat)
  | copy (source : Location) (entries : List Entry) (target : Location)
  | resolveConflicts (batchId : Nat) (answers : Option (List Resolution))
  | cancelAllTransfers
  | cancelRow (kind : RowKind)
  | retryRow (kind : RowKind)
  | clearFinished
  | clearHistory
  | startSync (session : Nat) (localDir remoteDir : Path) (options : SyncOptions)
  | runSync (syncId : Nat) (choices : List (Nat × SyncAction))
  | cancelSync (syncId : Nat)
  | other

/-- How the future of a task ends, if it does not panic. -/
inductive TaskResult
  | planned (plan : DirectoryPlan)
  | scanned (localScan remoteScan : Scanned)
  | executed (outcome : TransferOutcome)
  | connected (fs : FsTraits)
  | done
  | cancelled
  | failed (message : String)

/-- The last message of a task, if it can end this way. -/
def Work.result : Work → TaskResult → Option Internal
  | .planCopy batchId session direction, .planned plan =>
    some (.transfer (.planReady batchId session direction plan))
  | .planCopy batchId session direction, .cancelled =>
    some (.transfer (.planCancelled batchId session direction))
  | .planCopy batchId _ _, .failed message => some (.transfer (.planFailed batchId message))
  | .transfer id, .executed outcome => some (.transfer (.finished id outcome))
  | .transfer id, .failed message => some (.transfer (.failed id message))
  | .syncScan batchId session localRoot remoteRoot options tolerance keepsTimes,
      .scanned localScan remoteScan =>
      some (.transfer (.syncPlanReady batchId (Sync.planOf batchId session localRoot remoteRoot
        options tolerance keepsTimes localScan remoteScan)))
  | .syncScan batchId _ _ _ _ _ _, .cancelled => some (.transfer (.syncCancelled batchId))
  | .syncScan batchId _ _ _ _ _ _, .failed message => some (.transfer (.syncFailed batchId message))
  | .syncFolders batchId session direction files, .done =>
    some (.transfer (.syncFoldersReady batchId session direction ⟨files, 0, fun _ => []⟩))
  | .syncFolders batchId _ _ _, .cancelled => some (.transfer (.syncCancelled batchId))
  | .syncFolders batchId _ _ _, .failed message => some (.transfer (.syncFailed batchId message))
  | .removePartials session [], .done => some (.transfer (.partialsRemoved session))
  | .connect name, .connected fs => some (.connected name fs)
  | .connect name, .failed _ => some (.connectFailed name)
  | _, _ => none

/-- What a task can tell before it ends. -/
inductive TaskReport
  | progress (transferred : Nat)
  | timesNotKept

def Work.report : Work → TaskReport → Option Internal
  | .transfer id, .progress transferred => some (.transfer (.progress id transferred))
  | .transfer id, .timesNotKept => some (.transfer (.timesNotKept id))
  | _, _ => none

inductive EngineStep
  /-- The engine handles a command. -/
  | command (moment : Moment) (given : Command)
  /-- The engine handles the message at the front of its channel. -/
  | handle (moment : Moment)
  /-- The engine updates the screen at the time it has set for that. -/
  | publish (moment : Moment)
  /-- A task sends a message and goes on. -/
  | report (task : Nat) (told : TaskReport)
  /-- A task that removes part files removes its next one. -/
  | removePart (task : Nat)
  /-- A task sends its last message. -/
  | finish (task : Nat) (result : TaskResult)
  | panic (task : Nat)
  /-- A task that works for no transfer sends a message or panics. -/
  | elsewhere (panicked : Option (String × Scope))

namespace Engine

/-! ### Sessions -/

def connect (engine : Engine) (profile : String) (found : Bool) : Engine :=
  if engine.sessions.values.any fun live => decide (live.name = profile) then engine
  else if profile ∈ engine.connecting then engine
  else if found then
    ({ engine with connecting := profile :: engine.connecting }).spawn (.connect profile)
  else engine

def endConnecting (engine : Engine) (name : String) : Engine :=
  { engine with connecting := engine.connecting.filter fun other => decide (other ≠ name) }

def finishConnect (engine : Engine) (name : String) (fs : FsTraits) : Engine :=
  let engine := engine.endConnecting name
  { engine with
    sessions := engine.sessions.insert engine.nextSessionId ⟨name, fs⟩
    nextSessionId := engine.nextSessionId + 1 }

def failQueuedForSession (engine : Engine) (session : Nat) (reason : String) : Engine :=
  engine.setTransfers (engine.transfers.failQueuedForSession session reason).1

def disconnect (engine : Engine) (session : Nat) : Engine :=
  match engine.sessions.get? session with
  | none => engine
  | some live =>
    let engine := { engine with
      sessions := engine.sessions.erase session
      history := engine.history.rememberSession session live.name }
    let engine := engine.failQueuedForSession session "session disconnected"
    let engine := engine.cancelSessionTransfers session
    let engine := engine.dropConflictReviews fun review => decide (review.sessionId = session)
    engine.dropSyncPlans fun plan => decide (plan.session = session)

/-! ### Dispatch -/

def handleTransferEvent (moment : Moment) (engine : Engine) : TransferEvent → Engine
  | .progress id transferred => engine.transferProgress id transferred
  | .finished id outcome => engine.transferFinished moment.order id outcome
  | .failed id message => engine.transferFailed moment.order id message
  | .planReady batchId session direction plan =>
    engine.planReady moment.order batchId session direction plan
  | .planFailed batchId _ => engine.planFailed moment.now batchId
  | .planCancelled batchId _ _ => engine.planCancelled batchId
  | .partialsRemoved _ => engine
  | .timesNotKept id => engine.timesNotKept id
  | .syncPlanReady batchId plan => engine.syncPlanReady batchId plan
  | .syncCancelled batchId => engine.syncCancelled batchId
  | .syncFailed batchId _ => engine.syncFailed batchId
  | .syncFoldersReady batchId session direction plan =>
    engine.syncFoldersReady moment.order batchId session direction plan

def recoverFromPanic (moment : Moment) (engine : Engine) (name : String) (scope : Scope) : Engine :=
  let failed := "A background task failed: " ++ name
  match scope with
  | .transfer id =>
    if (engine.transfers.get id).any fun job => decide (job.status = .inProgress) then
      engine.handleTransferEvent moment (.failed id failed)
    else engine
  | .planning batchId =>
    if engine.sync.scanning batchId then engine.syncFailed batchId
    else if engine.planning.any fun scan => decide (scan.batchId = batchId) then
      engine.handleTransferEvent moment (.planFailed batchId failed)
    else engine
  | _ => engine

/-- `request_publish` and `publish_transfers`, as far as the state is concerned. -/
def publishTransfers (moment : Moment) (engine : Engine) : Engine :=
  engine.processRowChanges moment.now

def requestPublish (moment : Moment) (engine : Engine) : Engine :=
  if moment.due then engine.publishTransfers moment else engine

def applyCommand (moment : Moment) (engine : Engine) : Command → Engine
  | .connect profile found => engine.connect profile found
  | .disconnect session => engine.disconnect session
  | .copy source entries target => engine.copy moment.order source entries target
  | .resolveConflicts batchId answers => engine.resolveConflicts moment.order batchId answers
  | .cancelAllTransfers => engine.cancelAllCopies
  | .cancelRow kind => engine.cancelRow kind
  | .retryRow kind => engine.retryRow moment.order kind
  | .clearFinished => engine.clearFinishedRows moment
  | .clearHistory => engine.setHistory engine.history.clear
  | .startSync session localDir remoteDir options => engine.startSync session localDir remoteDir options
  | .runSync syncId choices => engine.runSync syncId choices
  | .cancelSync syncId => engine.cancelSync syncId
  | .other => engine

def handleCommand (moment : Moment) (engine : Engine) (command : Command) : Engine :=
  ((engine.applyCommand moment command).processRowChanges moment.now).requestPublish moment

def applyInternal (moment : Moment) (engine : Engine) : Internal → Engine
  | .connected name fs => engine.finishConnect name fs
  | .connectFailed name => engine.endConnecting name
  | .transfer event => engine.handleTransferEvent moment event
  | .taskPanicked name scope => engine.recoverFromPanic moment name scope
  | .other => engine

/-- Progress is handled without a look at the rows. -/
def handleInternal (moment : Moment) (engine : Engine) : Internal → Engine
  | .transfer (.progress id transferred) =>
    (engine.transferProgress id transferred).requestPublish moment
  | message =>
    ((engine.applyInternal moment message).processRowChanges moment.now).requestPublish moment

/-! ### Steps -/

def send (engine : Engine) (message : Internal) : Engine :=
  { engine with internal := engine.internal ++ [message] }

/-- What a task does to the engine, given what it works on. -/
def withLive (engine : Engine) (task : Nat) (act : Work → Engine) : Engine :=
  match engine.tasks.live.get? task with
  | none => engine
  | some live => act live.work

/-- A task sends its last message.  Nothing looks at a task that has nothing left to do, so
that its end and the message are one step. -/
def endTask (engine : Engine) (task : Nat) (message : Internal) : Engine :=
  ({ engine with tasks := engine.tasks.finish task }).send message

/-- The task goes on with the rest of its part files. -/
def removeNextPart (engine : Engine) (task : Nat) : Work → Engine
  | .removePartials session (_ :: parts) =>
    { engine with
      tasks := { engine.tasks with
        live := engine.tasks.live.modify task fun live =>
          { live with work := .removePartials session parts } } }
  | _ => engine

def sendIf (engine : Engine) (message : Option Internal) : Engine :=
  message.elim engine engine.send

end Engine

/-- Scopes of tasks that work for no transfer. -/
def Scope.isElsewhere : Scope → Bool
  | .transfer _ | .planning _ => false
  | _ => true

def EngineStep.next (engine : Engine) : EngineStep → Engine
  | .command moment given => engine.handleCommand moment given
  | .handle moment =>
    match engine.internal with
    | [] => engine
    | message :: rest => ({ engine with internal := rest }).handleInternal moment message
  | .publish moment => engine.publishTransfers moment
  | .report task told => engine.withLive task fun work => engine.sendIf (work.report told)
  | .removePart task => engine.withLive task (engine.removeNextPart task)
  | .finish task result => engine.withLive task fun work =>
    (work.result result).elim engine (engine.endTask task)
  | .panic task => engine.withLive task fun work =>
    engine.endTask task (.taskPanicked work.name work.scope)
  | .elsewhere none => engine.send .other
  | .elsewhere (some (name, scope)) =>
    if scope.isElsewhere then engine.send (.taskPanicked name scope) else engine

namespace Engine

/-- The engine after some steps. -/
def after (engine : Engine) (steps : List EngineStep) : Engine := steps.foldl EngineStep.next engine

/-- `shutdown_work`, up to where nothing is handled any more that touches a transfer. -/
def shutdown (moment : Moment) (engine : Engine) : Engine :=
  engine.cancelAllWork.recordInterrupted moment.now

end Engine

/-! ### A first copy -/

/-- A file system that transfers one file at a time. -/
def FsTraits.oneAtATime : FsTraits := ⟨some 1, true, 0⟩

/-- A connection is made. -/
def connectSteps : List EngineStep :=
  [.command .usual (.connect "server" true), .finish 0 (.connected .oneAtATime), .handle .usual]

/-- A file to upload to that connection. -/
def firstFile : PlannedFile :=
  ⟨⟨"/home/a"⟩, ⟨"/srv/a"⟩, "a", 3, none, none, none, false⟩

/-- The file is copied, up to where the plan of the copy waits in the channel. -/
def copySteps : List EngineStep :=
  [.command .usual (.copy .local [⟨"a", ⟨"/home/a"⟩, false, 3⟩] (.session 0)),
    .finish 1 (.planned ⟨[firstFile], 0, fun _ => []⟩)]

end Porthmos
