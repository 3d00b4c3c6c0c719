import Porthmos.EngineTransfers

/-!
# Syncs

A sync is scanned by one task; its plan stays open until the user has chosen.  The chosen
files then become up to two batches of their own, each of which waits for a task that
creates the folders it needs.
-/

namespace Porthmos

namespace Engine

def setScanning (engine : Engine) (batchId : Nat) (scanning : Bool) : Engine :=
  { engine with
    sync := { engine.sync with
      scanning := Function.update engine.sync.scanning batchId scanning } }

def setPlans (engine : Engine) (plans : OrderedMap Nat SyncPlan) : Engine :=
  { engine with sync := { engine.sync with plans } }

def targetKeepsTimes (engine : Engine) (fs : FsTraits) : SyncDirection → Bool
  | .localToRemote => fs.canSetModified
  | .remoteToLocal => engine.localFs.canSetModified
  | .both => true

def startSync (engine : Engine) (session : Nat) (localDir remoteDir : Path) (options : SyncOptions) :
    Engine :=
  if !options.isValid then engine
  else
    match engine.sessions.get? session with
    | none => engine
    | some live =>
      if options.direction = .both ∧
          ¬(engine.localFs.canSetModified ∧ live.fs.canSetModified) then engine
      else
        let tolerance := max engine.localFs.timeResolution live.fs.timeResolution
        let keepsTimes := engine.targetKeepsTimes live.fs options.direction
        let (engine, batchId) := engine.startPlanning session .upload ("sync " ++ localDir.text)
          fun batchId =>
            .syncScan batchId session localDir remoteDir options tolerance keepsTimes
        engine.setScanning batchId true

/-- The end of a scan whose batch gets no jobs. -/
def endSync (engine : Engine) (batchId : Nat) : Engine :=
  ((engine.setScanning batchId false).clearPlanning batchId).forgetBatchIfEmpty batchId

def syncCancelled (engine : Engine) (batchId : Nat) : Engine := engine.endSync batchId

def syncFailed (engine : Engine) (batchId : Nat) : Engine := engine.endSync batchId

def syncPlanReady (engine : Engine) (batchId : Nat) (plan : SyncPlan) : Engine :=
  let (tasks, cancelled) := engine.tasks.takeCancelled (.planning batchId)
  let engine := { engine with tasks }
  if cancelled then engine.syncCancelled batchId
  else
    let engine := engine.endSync batchId
    if !engine.connected plan.session then engine
    else if plan.items = [] then engine
    else engine.setPlans (engine.sync.plans.insert batchId plan)

/-- The name of a batch of a sync. -/
def syncLabel (plan : SyncPlan) : Direction → String
  | .upload => "sync \u2191 " ++ plan.remoteRoot.text
  | .download => "sync \u2193 " ++ plan.localRoot.text

def startSyncBatch (engine : Engine) (plan : SyncPlan) (direction : Direction)
    (files : List PlannedFile) : Engine :=
  if engine.connected plan.session then
    let (engine, batchId) := engine.startPlanning plan.session direction (syncLabel plan direction)
      fun batchId => .syncFolders batchId plan.session direction files
    engine.setScanning batchId true
  else engine

/-- A batch of a sync is started only for files. -/
def startSyncFiles (engine : Engine) (plan : SyncPlan) (direction : Direction)
    (files : List PlannedFile) : Engine :=
  if files = [] then engine else engine.startSyncBatch plan direction files

def runSync (engine : Engine) (syncId : Nat) (choices : List (Nat × SyncAction)) : Engine :=
  match engine.sync.plans.get? syncId with
  | none => engine
  | some plan =>
    let engine := engine.setPlans (engine.sync.plans.erase syncId)
    if engine.connected plan.session then
      let chosen := Sync.chooseFiles plan choices
      (engine.startSyncFiles plan .upload chosen.uploads).startSyncFiles plan .download
        chosen.downloads
    else engine

def syncFoldersReady (order : HashOrder) (engine : Engine) (batchId session : Nat)
    (direction : Direction) (plan : DirectoryPlan) : Engine :=
  if !engine.sync.scanning batchId then engine
  else
    let (tasks, cancelled) := engine.tasks.takeCancelled (.planning batchId)
    let engine := { engine with tasks }
    if cancelled then engine.syncCancelled batchId
    else
      let engine := (engine.setScanning batchId false).clearPlanning batchId
      if engine.connected session then
        let answers := List.replicate (conflictIndices plan).length Resolution.overwrite
        engine.applyPlanReady order batchId session direction plan answers true
      else engine.forgetBatchIfEmpty batchId

def cancelSync (engine : Engine) (syncId : Nat) : Engine :=
  if engine.sync.scanning syncId then engine.cancelScope (.planning syncId)
  else engine.setPlans (engine.sync.plans.erase syncId)

def dropSyncPlans (engine : Engine) (shouldDrop : SyncPlan → Bool) : Engine :=
  let dropped := (engine.sync.plans.values.filter shouldDrop).map SyncPlan.syncId
  engine.setPlans (dropped.foldl OrderedMap.erase engine.sync.plans)

def cancelAllCopies (engine : Engine) : Engine :=
  let engine := (engine.dropConflictReviews fun _ => true).dropSyncPlans fun _ => true
  let engine := engine.cancelAllWork
  engine.setTransfers engine.transfers.cancelAllQueued.1

end Engine

end Porthmos
