import Porthmos.EngineSteps
import Porthmos.QueueChanges

/-!
# The moves of the engine

Whatever a step does, it does in small moves: it settles a message, enters or starts a
job, gives a scope up, and so on.  A move says which part of the state changes and under
which conditions it happens.  What holds of every run is shown for the moves.
-/

namespace Porthmos

open TransferQueue

/-! ### Owners -/

/-- What a task is still to settle: the job it transfers or the scan it works on. -/
inductive Owner
  | job (id : Nat)
  | scan (batchId : Nat)
  deriving DecidableEq, Repr

def Scope.owner : Scope → Option Owner
  | .transfer id => some (.job id)
  | .planning batchId => some (.scan batchId)
  | _ => none

def Work.owner (work : Work) : Option Owner := work.scope.owner

/-- What the last message of a task settles. -/
def Internal.owner : Internal → Option Owner
  | .transfer (.finished id _) | .transfer (.failed id _) => some (.job id)
  | .transfer (.planReady batchId _ _ _) | .transfer (.planFailed batchId _)
  | .transfer (.planCancelled batchId _ _) | .transfer (.syncPlanReady batchId _)
  | .transfer (.syncCancelled batchId) | .transfer (.syncFailed batchId _)
  | .transfer (.syncFoldersReady batchId _ _ _) => some (.scan batchId)
  | .taskPanicked _ scope => scope.owner
  | _ => none

/-- The batch that is scanned, and whether for a sync. -/
def Work.scanned : Work → Option (Nat × Bool)
  | .planCopy batchId _ _ => some (batchId, false)
  | .syncScan batchId _ _ _ _ _ _ | .syncFolders batchId _ _ _ => some (batchId, true)
  | _ => none

/-- The batch that was scanned, and whether for a sync; a panic does not tell. -/
def Internal.scanned : Internal → Option (Nat × Bool)
  | .transfer (.planReady batchId _ _ _) | .transfer (.planFailed batchId _)
  | .transfer (.planCancelled batchId _ _) => some (batchId, false)
  | .transfer (.syncPlanReady batchId _) | .transfer (.syncCancelled batchId)
  | .transfer (.syncFailed batchId _) | .transfer (.syncFoldersReady batchId _ _ _) =>
    some (batchId, true)
  | _ => none

/-- The plan of a sync is named by its batch. -/
def Internal.PlanNamed : Internal → Prop
  | .transfer (.syncPlanReady batchId plan) => plan.syncId = batchId
  | _ => True

theorem Work.result_fits {work : Work} {result : TaskResult} {message : Internal}
    (ends : work.result result = some message) :
    message.owner = work.owner ∧ message.scanned = work.scanned ∧ message.PlanNamed := by
  cases work with
  | removePartials session parts =>
    cases parts <;> cases result <;> cases ends
    exact ⟨rfl, rfl, trivial⟩
  | planCopy batchId session direction => cases result <;> cases ends <;> exact ⟨rfl, rfl, trivial⟩
  | transfer id => cases result <;> cases ends <;> exact ⟨rfl, rfl, trivial⟩
  | syncScan batchId session localRoot remoteRoot options tolerance keepsTimes =>
    cases result <;> cases ends <;> first | exact ⟨rfl, rfl, trivial⟩ | exact ⟨rfl, rfl, rfl⟩
  | syncFolders batchId session direction files =>
    cases result <;> cases ends <;> exact ⟨rfl, rfl, trivial⟩
  | connect name => cases result <;> cases ends <;> exact ⟨rfl, rfl, trivial⟩

theorem Work.report_owner {work : Work} {told : TaskReport} {message : Internal}
    (reports : work.report told = some message) :
    message.owner = none ∧ message.scanned = none ∧ message.PlanNamed := by
  cases work <;> cases told <;> cases reports <;> exact ⟨rfl, rfl, trivial⟩

namespace Engine

/-! ### What moves depend on -/

def Running (engine : Engine) (id : Nat) : Prop :=
  ∃ job, engine.transfers.jobs.get? id = some job ∧ job.status = .inProgress

def Planned (engine : Engine) (batchId : Nat) : Prop :=
  ∃ scan ∈ engine.planning, scan.batchId = batchId

def Reviewed (engine : Engine) (batchId : Nat) : Prop :=
  ∃ review ∈ engine.reviews, review.batchId = batchId

/-- The batch has left planning and is not under review. -/
structure Settled (engine : Engine) (batchId : Nat) : Prop where
  known : batchId < engine.transfers.nextBatchId
  notPlanned : ¬ engine.Planned batchId
  notReviewed : ¬ engine.Reviewed batchId

def NoJobs (engine : Engine) (batchId : Nat) : Prop :=
  ∀ id job, engine.transfers.jobs.get? id = some job → job.batchId ≠ some batchId

/-- The number of running jobs that meet a test. -/
def runningCount (jobs : Jobs) (test : TransferJob → Bool) : Nat :=
  jobs.total fun _ job => if job.status = .inProgress ∧ test job then 1 else 0

/-- There is a free slot for the job. -/
structure HasRoom (jobs : Jobs) (maxParallel : Nat) (limit : Nat → Option Nat) (job : TransferJob) :
    Prop where
  slot : runningCount jobs (fun _ => true) < maxParallel
  session : capped limit job.sessionId
    (runningCount jobs fun running => decide (running.sessionId = job.sessionId)) = false
  destination : ∀ id running, jobs.get? id = some running → running.status = .inProgress →
    running.destination ≠ job.destination

end Engine

/-- What `handle_transfer_event` makes of a job whose attempt failed. -/
def failedJob (cancelled : Bool) (message : String) (job : TransferJob) : TransferJob :=
  if cancelled then { job with status := .cancelled }
  else if job.attempts < maxAttempts then { job with status := .queued, resume := true }
  else { job with status := .failed message }

/-! ### Moves -/

inductive Label
  | plans (batchId : Nat)
  | begins (id : Nat)
  | abandons (id : Nat)
  | retries (id : Nat)
  | advances (id : Nat)
  | enqueues (batchId : Nat) (job : TransferJob)
  | removes (ids : List Nat)
  | books
  | finishes (id : Nat)
  | fails (id : Nat)
  | settles (batchId : Nat)
  | drops
  | connects
  | disconnects (session : Nat)
  | marks (scope : Scope)
  | reviews (batchId : Nat)
  | closesReviews
  | opensPlan (batchId : Nat)
  | closesPlans
  | works (work : Work)
  | records
  | logs
  | tells
  | ends (task : Nat)
  | removesPart (task : Nat)

inductive Move : Label → Engine → Engine → Prop
  | plans {engine : Engine} {transfers : TransferQueue} (scan : PlanningScan) (work : Work)
      (scanning : Nat → Bool) (kind : Bool) (isNew : scan.batchId = engine.transfers.nextBatchId)
      (kept : JobsKept engine.transfers transfers)
      (next : transfers.nextBatchId = engine.transfers.nextBatchId + 1)
      (isOwner : work.owner = some (.scan scan.batchId))
      (isScan : work.scanned = some (scan.batchId, kind))
      (isScanning : scanning scan.batchId = kind)
      (others : ∀ other ≠ scan.batchId, scanning other = engine.sync.scanning other) :
      Move (.plans scan.batchId) engine
        { engine with
          transfers := transfers
          planning := engine.planning ++ [scan]
          tasks := engine.tasks.spawn work
          sync := ⟨engine.sync.plans, scanning⟩ }
  | begins {engine : Engine} {transfers : TransferQueue} {id : Nat} {job : TransferJob}
      (waiting : job.status = .queued) (live : engine.connected job.sessionId = true)
      (room : Engine.HasRoom engine.transfers.jobs engine.maxParallel engine.transferLimit job)
      (change : JobChanged engine.transfers transfers id job (TransferQueue.begin job)) :
      Move (.begins id) engine
        { engine with
          transfers := transfers
          tasks := engine.tasks.spawn (.transfer id) }
  | abandons {engine : Engine} {transfers : TransferQueue} {id : Nat} {job : TransferJob}
      {status : JobStatus} (waiting : job.status = .queued) (ended : status.isInterrupted = true)
      (change : JobChanged engine.transfers transfers id job (setStatus status job)) :
      Move (.abandons id) engine { engine with transfers }
  | retries {engine : Engine} {transfers : TransferQueue} {id : Nat} {job : TransferJob}
      (interrupted : job.status.isInterrupted = true) (live : engine.connected job.sessionId = true)
      (change : JobChanged engine.transfers transfers id job (retryJob job)) :
      Move (.retries id) engine { engine with transfers }
  | advances {engine : Engine} {transfers : TransferQueue} {id : Nat} {job : TransferJob}
      (transferred : Nat)
      (change : JobChanged engine.transfers transfers id job
        { job with transferredBytes := transferred }) :
      Move (.advances id) engine { engine with transfers }
  | enqueues {engine : Engine} {transfers : TransferQueue} {batchId : Nat} {job : TransferJob}
      (inBatch : job.batchId = some batchId) (waiting : job.status = .queued)
      (untried : job.attempts = 0) (live : engine.connected job.sessionId = true)
      (settled : engine.Settled batchId)
      (sameSession : ∀ id other, engine.transfers.jobs.get? id = some other →
        other.batchId = some batchId → other.sessionId = job.sessionId)
      (entered : JobEntered engine.transfers transfers job) :
      Move (.enqueues batchId job) engine { engine with transfers }
  | removes {engine : Engine} {transfers : TransferQueue} {ids : List Nat}
      (finished : ∀ id ∈ ids, ∀ job, engine.transfers.jobs.get? id = some job →
        RowFinished engine.transfers.jobs (kindOf job))
      (reported : engine.transfers.changes = [])
      (removed : Removed engine.transfers transfers ids) :
      Move (.removes ids) engine { engine with transfers }
  | books {engine : Engine} {transfers : TransferQueue} (kept : JobsKept engine.transfers transfers)
      (next : transfers.nextBatchId = engine.transfers.nextBatchId) :
      Move .books engine { engine with transfers }
  | finishes {engine : Engine} {transfers : TransferQueue} {id : Nat} {job : TransferJob}
      {outcome : TransferOutcome} {status : JobStatus} {rest : List Internal}
      (front : engine.internal = .transfer (.finished id outcome) :: rest)
      (runs : job.status = .inProgress) (ended : status = .completed ∨ status = .cancelled)
      (reported : engine.transfers.changes = [])
      (change : JobChanged engine.transfers transfers id job (setStatus status job)) :
      Move (.finishes id) engine
        { engine with
          internal := rest
          tasks := engine.tasks.forget (.transfer id)
          transfers := transfers }
  | fails {engine : Engine} {transfers : TransferQueue} {id : Nat} {job : TransferJob}
      {text : String} {message : Internal} {rest : List Internal}
      (front : engine.internal = message :: rest) (isOwner : message.owner = some (.job id))
      (runs : job.status = .inProgress)
      (change : JobChanged engine.transfers transfers id job
        (failedJob (engine.tasks.cancelled (.transfer id)) text job)) :
      Move (.fails id) engine
        { engine with
          internal := rest
          tasks := engine.tasks.forget (.transfer id)
          transfers := transfers }
  | settles {engine : Engine} {batchId : Nat} {message : Internal} {rest : List Internal}
      (front : engine.internal = message :: rest) (isOwner : message.owner = some (.scan batchId)) :
      Move (.settles batchId) engine
        { engine with
          internal := rest
          planning := engine.planning.filter fun scan => decide (scan.batchId ≠ batchId)
          tasks := engine.tasks.forget (.planning batchId)
          sync := ⟨engine.sync.plans, Function.update engine.sync.scanning batchId false⟩ }
  | drops {engine : Engine} {message : Internal} {rest : List Internal} (connecting : List String)
      (front : engine.internal = message :: rest) (isOwner : message.owner = none) :
      Move .drops engine { engine with internal := rest, connecting := connecting }
  | connects {engine : Engine} {name : String} {fs : FsTraits} {rest : List Internal}
      (connecting : List String) (front : engine.internal = .connected name fs :: rest) :
      Move .connects engine
        { engine with
          internal := rest
          connecting := connecting
          sessions := engine.sessions.insert engine.nextSessionId ⟨name, fs⟩
          nextSessionId := engine.nextSessionId + 1 }
  | disconnects {engine : Engine} {session : Nat} (name : String)
      (noneWaiting : ∀ id job, engine.transfers.jobs.get? id = some job → job.status = .queued →
        job.sessionId ≠ session)
      (allMarked : ∀ id job, engine.transfers.jobs.get? id = some job → job.status = .inProgress →
        job.sessionId = session → engine.tasks.cancelled (.transfer id) = true)
      (noReview : ∀ review ∈ engine.reviews, review.sessionId ≠ session)
      (noPlan : ∀ batchId plan, engine.sync.plans.get? batchId = some plan →
        plan.session ≠ session) :
      Move (.disconnects session) engine
        { engine with
          sessions := engine.sessions.erase session
          history := engine.history.rememberSession session name }
  | marks {engine : Engine} {scope : Scope}
      (isOwner : (∃ id, scope = .transfer id ∧ engine.Running id) ∨
        ∃ batchId, scope = .planning batchId) :
      Move (.marks scope) engine { engine with tasks := engine.tasks.cancel scope }
  | reviews {engine : Engine} (review : ConflictReview)
      (live : engine.connected review.sessionId = true) (settled : engine.Settled review.batchId)
      (noJobs : engine.NoJobs review.batchId) :
      Move (.reviews review.batchId) engine { engine with reviews := engine.reviews ++ [review] }
  | closesReviews {engine : Engine} {reviews : List ConflictReview}
      (fewer : reviews.Sublist engine.reviews) :
      Move .closesReviews engine { engine with reviews }
  | opensPlan {engine : Engine} (batchId : Nat) (plan : SyncPlan) (named : plan.syncId = batchId)
      (live : engine.connected plan.session = true) (settled : engine.Settled batchId) :
      Move (.opensPlan batchId) engine
        { engine with sync := ⟨engine.sync.plans.insert batchId plan, engine.sync.scanning⟩ }
  | closesPlans {engine : Engine} {plans : OrderedMap Nat SyncPlan}
      (fewer : ∀ batchId plan, plans.get? batchId = some plan →
        engine.sync.plans.get? batchId = some plan) :
      Move .closesPlans engine { engine with sync := ⟨plans, engine.sync.scanning⟩ }
  | works {engine : Engine} (connecting : List String) (work : Work) (isOwner : work.owner = none)
      (isScan : work.scanned = none) :
      Move (.works work) engine
        { engine with connecting := connecting, tasks := engine.tasks.spawn work }
  | records {engine : Engine} (now : Nat) : Move .records engine (engine.processRowChanges now)
  | logs {engine : Engine} {history : HistoryLog}
      (recorded : history.recorded = engine.history.recorded)
      (counted : history.counted = engine.history.counted)
      (stored : ∃ entries, history.stored = engine.history.stored ++ entries ∧
        ∀ entry ∈ entries, entry.1.filesDone = 0 ∧ entry.1.bytes = 0 ∧ entry.2 = []) :
      Move .logs engine { engine with history }
  | tells {engine : Engine} (message : Internal) (isOwner : message.owner = none)
      (isScan : message.scanned = none) (named : message.PlanNamed) :
      Move .tells engine { engine with internal := engine.internal ++ [message] }
  | ends {engine : Engine} {task : Nat} {live : Live} {message : Internal}
      (found : engine.tasks.live.get? task = some live)
      (isLast : (∃ result, live.work.result result = some message) ∨
        message = .taskPanicked live.work.name live.work.scope) :
      Move (.ends task) engine
        { engine with
          tasks := engine.tasks.finish task
          internal := engine.internal ++ [message] }
  | removesPart {engine : Engine} {task session : Nat} {cancel : Bool} {part : String}
      {parts : List String}
      (found : engine.tasks.live.get? task = some ⟨.removePartials session (part :: parts), cancel⟩) :
      Move (.removesPart task) engine
        { engine with
          tasks := { engine.tasks with
            live := engine.tasks.live.insert task ⟨.removePartials session parts, cancel⟩ } }

end Porthmos
