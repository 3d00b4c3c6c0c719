import Porthmos.EngineHistory

/-!
# Copies

A copy is planned by a task; its plan is reviewed if it has conflicts, and then its files
enter the queue as jobs.  Jobs are started as long as there are free slots, and every
handler that frees a slot or queues a job starts what it can.
-/

namespace Porthmos

inductive Location
  | «local»
  | session (id : Nat)
  deriving DecidableEq, Repr

namespace Engine

/-! ### Starting jobs -/

def startTransfer (engine : Engine) (id : Nat) : Engine :=
  match engine.transfers.get id with
  | none => engine
  | some job =>
    let connected := engine.connected job.sessionId
    let started := { engine with transfers := engine.transfers.startTransfer connected id }
    if connected then started.spawn (.transfer id) else started

/-- The loop of `fill_transfer_slots`, if it ends within so many rounds. -/
def fillRounds (order : HashOrder) : Nat → Engine → Option Engine
  | 0, _ => none
  | rounds + 1, engine =>
    match engine.transfers.startableLimited order engine.maxParallel engine.transferLimit with
    | [] => some engine
    | first :: rest => fillRounds order rounds ((first :: rest).foldl startTransfer engine)

/-- Each round but the last takes a job off the queued ones. -/
def fillTransferSlots (order : HashOrder) (engine : Engine) : Engine :=
  (fillRounds order (engine.transfers.queued.keys.length + 1) engine).getD engine

/-! ### Planning -/

/-- What the handlers that plan in the background have in common: a new batch, its scan and
the task that scans for it. -/
def startPlanning (engine : Engine) (session : Nat) (direction : Direction) (displayName : String)
    (work : Nat → Work) : Engine × Nat :=
  let (transfers, batchId) := engine.transfers.startBatch displayName
  let scan : PlanningScan := ⟨batchId, session, direction, displayName⟩
  let engine := { engine with transfers := transfers, planning := engine.planning ++ [scan] }
  (engine.spawn (work batchId), batchId)

def copyLabel : List Entry → String
  | [entry] => entry.name
  | entries => entries.length.repr ++ " items"

def startCopyPlan (engine : Engine) (session : Nat) (direction : Direction)
    (entries : List Entry) : Engine :=
  if engine.connected session then
    (engine.startPlanning session direction (copyLabel entries) fun batchId =>
      .planCopy batchId session direction).1
  else engine

/-- The session and the direction of a copy between two locations. -/
def copyDirection : Location → Location → Option (Nat × Direction)
  | .local, .session session => some (session, .upload)
  | .session session, .local => some (session, .download)
  | _, _ => none

def copy (order : HashOrder) (engine : Engine) (source : Location) (entries : List Entry)
    (target : Location) : Engine :=
  match copyDirection source target with
  | none => engine
  | some (session, direction) =>
    if entries = [] then engine
    else (engine.startCopyPlan session direction entries).fillTransferSlots order

def clearPlanning (engine : Engine) (batchId : Nat) : Engine :=
  { engine with
    planning := engine.planning.filter fun scan => decide (scan.batchId ≠ batchId)
    tasks := engine.tasks.forget (.planning batchId) }

/-! ### Applying a plan -/

/-- One round of `apply_plan_ready`. -/
def enqueueFile (batchId session : Nat) (direction : Direction) (preserveTimes : Bool)
    (transfers : TransferQueue) (file : PlannedFile) : TransferQueue :=
  let (localPath, remotePath) := match direction with
    | .upload => (file.source, file.destination)
    | .download => (file.destination, file.source)
  let (transfers, id) := transfers.enqueue
    { sessionId := session
      direction := direction
      localPath := localPath
      remotePath := remotePath.text
      displayName := file.displayName
      totalBytes := file.size
      batchId := some batchId }
  let transfers :=
    if file.resume then transfers.editGuarded id fun job => { job with resume := true }
    else transfers
  let keepModified := if preserveTimes then file.sourceModified else none
  if keepModified.isSome then
    transfers.editGuarded id fun job => { job with modified := keepModified }
  else transfers

def applyPlanReady (order : HashOrder) (engine : Engine) (batchId session : Nat)
    (direction : Direction) (plan : DirectoryPlan) (answers : List Resolution)
    (preserveTimes : Bool) : Engine :=
  let files := (resolve plan answers).files
  let transfers := files.foldl (enqueueFile batchId session direction preserveTimes) engine.transfers
  (({ engine with transfers }).forgetBatchIfEmpty batchId).fillTransferSlots order

/-- The answers of the policy, if it answers every conflict. -/
def automaticAnswers (policy : ConflictPolicy) (plan : DirectoryPlan) : Option (List Resolution) :=
  (conflictIndices plan).mapM fun index => (plan.files[index]?).bind policy.resolutionFor

def reviewOrApplyPlan (order : HashOrder) (engine : Engine) (batchId session : Nat)
    (direction : Direction) (plan : DirectoryPlan) : Engine :=
  if conflictIndices plan = [] then
    engine.applyPlanReady order batchId session direction plan [] false
  else
    match automaticAnswers engine.onConflict plan with
    | some answers => engine.applyPlanReady order batchId session direction plan answers false
    | none =>
      { engine with reviews := engine.reviews ++ [⟨batchId, session, direction, plan⟩] }

/-- `VecDeque::remove` of the first review of a batch. -/
def removeReview (engine : Engine) (batchId : Nat) : Engine :=
  { engine with reviews := engine.reviews.eraseP fun review => decide (review.batchId = batchId) }

def resolveConflicts (order : HashOrder) (engine : Engine) (batchId : Nat)
    (answers : Option (List Resolution)) : Engine :=
  match engine.reviews.find? fun review => decide (review.batchId = batchId) with
  | none => engine
  | some review =>
    let engine := engine.removeReview batchId
    match answers with
    | some answers =>
      engine.applyPlanReady order review.batchId review.sessionId review.direction review.plan
        answers false
    | none => engine.forgetBatchIfEmpty review.batchId

def dropConflictReviews (engine : Engine) (shouldDrop : ConflictReview → Bool) : Engine :=
  let dropped := (engine.reviews.filter shouldDrop).map ConflictReview.batchId
  dropped.foldl forgetBatchIfEmpty
    { engine with reviews := engine.reviews.filter fun review => !shouldDrop review }

/-! ### Results -/

def setTransfers (engine : Engine) (transfers : TransferQueue) : Engine := { engine with transfers }

def transferFinished (order : HashOrder) (engine : Engine) (id : Nat)
    (outcome : TransferOutcome) : Engine :=
  let status := match outcome with
    | .completed => JobStatus.completed
    | .cancelled => JobStatus.cancelled
  let engine := engine.forgetScope (.transfer id)
  let transfers := engine.transfers.editGuarded id (TransferQueue.setStatus status)
  (engine.setTransfers transfers).fillTransferSlots order

def transferFailed (order : HashOrder) (engine : Engine) (id : Nat) (message : String) : Engine :=
  let (tasks, cancelled) := engine.tasks.takeCancelled (.transfer id)
  let status := if cancelled then JobStatus.cancelled else .failed message
  let transfers := engine.transfers.editGuarded id (TransferQueue.setStatus status)
  let transfers := if cancelled then transfers else (transfers.retryOrGiveUp id).1
  ({ engine with tasks, transfers }).fillTransferSlots order

def planReady (order : HashOrder) (engine : Engine) (batchId session : Nat) (direction : Direction)
    (plan : DirectoryPlan) : Engine :=
  let engine := engine.clearPlanning batchId
  if engine.connected session then
    engine.reviewOrApplyPlan order batchId session direction plan
  else engine.forgetBatchIfEmpty batchId

def planFailed (now : Nat) (engine : Engine) (batchId : Nat) : Engine :=
  let scan := engine.planning.find? fun scan => decide (scan.batchId = batchId)
  let engine := (engine.clearPlanning batchId).forgetBatchIfEmpty batchId
  match scan with
  | some scan => engine.recordFailedScan now scan.sessionId scan.direction scan.displayName
  | none => engine

def planCancelled (engine : Engine) (batchId : Nat) : Engine :=
  (engine.clearPlanning batchId).forgetBatchIfEmpty batchId

def timesNotKept (engine : Engine) (id : Nat) : Engine :=
  match (engine.transfers.get id).bind TransferJob.batchId with
  | none => engine
  | some batchId => engine.setTransfers (engine.transfers.flagUnkeptTimes batchId).1

def transferProgress (engine : Engine) (id transferred : Nat) : Engine :=
  engine.setTransfers
    (engine.transfers.editGuarded id fun job => { job with transferredBytes := transferred })

/-! ### Cancelling and retrying -/

def cancelAllWork (engine : Engine) : Engine :=
  let scans := engine.planning.map fun scan => Scope.planning scan.batchId
  let running := engine.transfers.activeJobs.map fun job => Scope.transfer job.id
  running.foldl cancelScope (scans.foldl cancelScope engine)

def cancelSessionTransfers (engine : Engine) (session : Nat) : Engine :=
  let scans := (engine.planning.filter fun scan => decide (scan.sessionId = session)).map
    fun scan => Scope.planning scan.batchId
  let active := (engine.transfers.activeIdsForSession session).map Scope.transfer
  active.foldl cancelScope (scans.foldl cancelScope engine)

/-- `cancel_row` at one job. -/
def cancelJob (engine : Engine) (id : Nat) : Engine :=
  match engine.transfers.get id with
  | none => engine
  | some job =>
    match job.status with
    | .queued =>
      engine.setTransfers (engine.transfers.editGuarded id (TransferQueue.setStatus .cancelled))
    | .inProgress => engine.cancelScope (.transfer id)
    | _ => engine

def cancelRow (engine : Engine) (kind : RowKind) : Engine :=
  match kind with
  | .scan batchId =>
    let engine :=
      if engine.planning.any fun scan => decide (scan.batchId = batchId) then
        engine.cancelScope (.planning batchId)
      else engine
    engine.dropConflictReviews fun review => decide (review.batchId = batchId)
  | _ => ((engine.transfers.jobsOf kind).map TransferJob.id).foldl cancelJob engine

/-- The jobs that `retry_row` takes up again. -/
def retryableIds (engine : Engine) (kind : RowKind) : List Nat :=
  ((engine.transfers.jobsOf kind).filter fun job => job.status.isInterrupted).map TransferJob.id

def retryRow (order : HashOrder) (engine : Engine) (kind : RowKind) : Engine :=
  let retryable := engine.retryableIds kind
  match retryable.head?.bind engine.transfers.get with
  | none => engine
  | some first =>
    if engine.connected first.sessionId then
      let (transfers, count) := engine.transfers.retryJobs retryable
      let engine := engine.setTransfers transfers
      if 0 < count then engine.fillTransferSlots order else engine
    else engine

/-! ### Clearing finished rows -/

/-- The jobs of the finished rows. -/
def finishedIds (engine : Engine) : List Nat :=
  (engine.transfers.rowList.filter QueueRow.isFinished).flatMap fun row =>
    (engine.transfers.jobsOf row.kind).map TransferJob.id

def destinationsStillInUse (engine : Engine) : List Destination :=
  let jobs := engine.transfers.jobs.values
  jobs.map TransferJob.destination ++
    (jobs.filter fun job => job.status.isPending).map TransferJob.partDestination

/-- The cleared jobs whose part file `clear_finished_rows` removes. -/
def unusedJobs (engine : Engine) : List TransferJob :=
  ((engine.finishedIds.filterMap engine.transfers.get).filter fun job =>
      job.status.isInterrupted).filter fun job =>
    decide (job.partDestination ∉ engine.destinationsStillInUse)

/-- The part files at this computer, which are removed at once. -/
def localParts (jobs : List TransferJob) : List Path :=
  (jobs.filter fun job => decide (job.direction = .download)).map fun job =>
    job.localPath.pushText partSuffix

/-- The part files at the servers, by session. -/
def remoteParts (jobs : List TransferJob) : OrderedMap Nat (List String) :=
  (jobs.filter fun job => decide (job.direction = .upload)).foldl
    (fun parts job => parts.insert job.sessionId
      ((parts.get? job.sessionId).getD [] ++ [job.remotePath ++ partSuffix])) .empty

/-- `remove_partials` at one session. -/
def spawnRemoval (engine : Engine) (entry : Nat × List String) : Engine :=
  if engine.connected entry.1 then engine.spawn (.removePartials entry.1 entry.2) else engine

def clearFinishedRows (moment : Moment) (engine : Engine) : Engine :=
  let unused := engine.unusedJobs
  (moment.partials (remoteParts unused).entries).foldl spawnRemoval
    (engine.setTransfers (engine.transfers.removeJobs moment.order engine.finishedIds))

end Engine

end Porthmos
