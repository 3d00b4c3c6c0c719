import Mathlib.Data.List.Sort
import Porthmos.OrderedMap
import Porthmos.QueueRow

/-!
# The transfer queue

The queue owns every job and keeps derived indexes beside the job map: the sets
of running and queued jobs, pending counts, and the counters of each row.
Every operation updates the indexes by the difference it makes.

Hash maps that are only looked up are functions to `Option`.  Where a hash
container is walked, its entries are a list without repeated keys and a
`HashOrder` says in which order they come; `queued_by_session` is an ordered map
walked in such an order.  A `BTreeSet` is an `OrderedSet`.  Byte counts and ids
are natural numbers, so a saturating subtraction is the truncated one.
-/

namespace Porthmos

def maxAttempts : Nat := 3

structure BatchProgress where
  totalFiles : Nat
  completedFiles : Nat
  totalBytes : Nat
  transferredBytes : Nat
  deriving DecidableEq, Repr

inductive RowChange
  | finished (kind : RowKind)
  | reopened (kind : RowKind)
  | removed (kind : RowKind)
  deriving DecidableEq, Repr

/-- What the indexes depend on in a job that may change. -/
structure Shape where
  status : JobStatus
  transferred : Nat
  sessionId : Nat
  direction : Direction
  deriving DecidableEq, Repr

def Shape.of (job : TransferJob) : Shape where
  status := job.status
  transferred := job.transferredBytes
  sessionId := job.sessionId
  direction := job.direction

/-- Take one off a count and drop the entry at zero. -/
def decrement {κ : Type*} [DecidableEq κ] (map : κ → Option Nat) (key : κ) : κ → Option Nat :=
  match map key with
  | none => map
  | some count =>
    if count - 1 = 0 then Function.update map key none
    else Function.update map key (some (count - 1))

def increment {κ : Type*} [DecidableEq κ] (map : κ → Option Nat) (key : κ) : κ → Option Nat :=
  Function.update map key (some ((map key).getD 0 + 1))

theorem decrement_of_ne {κ : Type*} [DecidableEq κ] (map : κ → Option Nat) {key other : κ}
    (different : other ≠ key) : decrement map key other = map other := by
  unfold decrement
  cases map key with
  | none => rfl
  | some count =>
    dsimp only
    split_ifs <;> exact Function.update_of_ne different _ _

theorem increment_of_ne {κ : Type*} [DecidableEq κ] (map : κ → Option Nat) {key other : κ}
    (different : other ≠ key) : increment map key other = map other :=
  Function.update_of_ne different _ _

/-- The orders in which hash containers are walked.  Nothing is known of them but
that every entry comes once. -/
structure HashOrder where
  rows : List (RowKind × Bool) → List (RowKind × Bool)
  rows_perm : ∀ entries, (rows entries).Perm entries
  batches : List Nat → List Nat
  batches_perm : ∀ entries, (batches entries).Perm entries
  sessions : List (Nat × OrderedSet Nat) → List (Nat × OrderedSet Nat)
  sessions_perm : ∀ entries, (sessions entries).Perm entries

/-- Hash containers that happen to be walked in insertion order. -/
def HashOrder.insertion : HashOrder where
  rows := id
  rows_perm := fun _ => .rfl
  batches := id
  batches_perm := fun _ => .rfl
  sessions := id
  sessions_perm := fun _ => .rfl

structure TransferQueue where
  jobs : OrderedMap Nat TransferJob
  batchLabels : Nat → Option String
  unkeptTimesFlagged : Nat → Bool
  nextId : Nat
  nextBatchId : Nat
  rows : OrderedMap Nat RowCounters
  rowOf : Nat → Option Nat
  batchRow : Nat → Option Nat
  running : OrderedSet Nat
  queued : OrderedSet Nat
  queuedBySession : OrderedMap Nat (OrderedSet Nat)
  pending : Nat × Direction → Option Nat
  changes : List RowChange

namespace TransferQueue

def new : TransferQueue where
  jobs := .empty
  batchLabels := fun _ => none
  unkeptTimesFlagged := fun _ => false
  nextId := 0
  nextBatchId := 0
  rows := .empty
  rowOf := fun _ => none
  batchRow := fun _ => none
  running := .empty
  queued := .empty
  queuedBySession := .empty
  pending := fun _ => none
  changes := []

/-! ### Bookkeeping for one job -/

/-- The row part of `account`: one job of this shape enters or leaves. -/
def accountRow (counters : RowCounters) (shape : Shape) (add : Bool) : RowCounters :=
  let counted := counters.changeSlot shape.status fun count =>
    if add then count + 1 else count - 1
  { counted with
    bytesDone :=
      if add then counted.bytesDone + shape.transferred else counted.bytesDone - shape.transferred }

/-- The set of jobs with one tracked status, after a job of this shape enters or
leaves. -/
def accountStatus (tracked : JobStatus) (ids : OrderedSet Nat) (id : Nat) (shape : Shape)
    (add : Bool) : OrderedSet Nat :=
  if shape.status = tracked then if add then ids.insert id () else ids.erase id
  else ids

def accountQueuedBySession (queuedBySession : OrderedMap Nat (OrderedSet Nat)) (id : Nat)
    (shape : Shape) (add : Bool) : OrderedMap Nat (OrderedSet Nat) :=
  match shape.status with
  | .queued =>
    if add then
      let ids := (queuedBySession.get? shape.sessionId).getD .empty
      queuedBySession.insert shape.sessionId (ids.insert id ())
    else
      match queuedBySession.get? shape.sessionId with
      | none => queuedBySession
      | some ids =>
        let rest := ids.erase id
        if rest.entries.isEmpty then queuedBySession.erase shape.sessionId
        else queuedBySession.insert shape.sessionId rest
  | _ => queuedBySession

def accountPending (pending : Nat × Direction → Option Nat) (shape : Shape) (add : Bool) :
    Nat × Direction → Option Nat :=
  if shape.status.isPending then
    if add then increment pending (shape.sessionId, shape.direction)
    else decrement pending (shape.sessionId, shape.direction)
  else pending

def account (queue : TransferQueue) (id : Nat) (shape : Shape) (add : Bool) : TransferQueue :=
  match queue.rowOf id with
  | none => queue
  | some key =>
    { queue with
      rows := queue.rows.modify key fun counters => accountRow counters shape add
      running := accountStatus .inProgress queue.running id shape add
      queued := accountStatus .queued queue.queued id shape add
      queuedBySession := accountQueuedBySession queue.queuedBySession id shape add
      pending := accountPending queue.pending shape add }

/-- Whether the row under this key exists and is finished. -/
def rowFinished (queue : TransferQueue) (key : Nat) : Bool :=
  (queue.rows.get? key).any RowCounters.finished

def pushChange (queue : TransferQueue) (change : RowChange) : TransferQueue :=
  { queue with changes := queue.changes ++ [change] }

/-- Account for one job under a new shape in place of its old one. -/
def reaccount (queue : TransferQueue) (id : Nat) (before after : Shape) : TransferQueue :=
  (queue.account id before false).account id after true

def reconcile (queue : TransferQueue) (id : Nat) (before : Shape) : TransferQueue :=
  match queue.jobs.get? id with
  | none => queue
  | some job =>
    let after := Shape.of job
    if after = before then queue
    else
      match queue.rowOf id with
      | none => queue
      | some key =>
        let wasFinished := queue.rowFinished key
        let queue := queue.reaccount id before after
        match queue.rows.get? key with
        | none => queue
        | some counters =>
          match wasFinished, counters.finished with
          | false, true => queue.pushChange (.finished counters.kind)
          | true, false => queue.pushChange (.reopened counters.kind)
          | _, _ => queue

def setJobs (queue : TransferQueue) (jobs : OrderedMap Nat TransferJob) : TransferQueue :=
  { queue with jobs }

def update (queue : TransferQueue) (id : Nat) (change : TransferJob → TransferJob) :
    TransferQueue :=
  match queue.jobs.get? id with
  | none => queue
  | some job =>
    let before := Shape.of job
    (queue.setJobs (queue.jobs.modify id change)).reconcile id before

/-! ### Job guards -/

/-- A borrowed job together with its shape at the time it was borrowed. -/
structure JobGuard where
  queue : TransferQueue
  id : Nat
  before : Shape

def getMut (queue : TransferQueue) (id : Nat) : Option JobGuard :=
  (queue.jobs.get? id).map fun job => ⟨queue, id, Shape.of job⟩

/-- Write through the guard. -/
def JobGuard.edit (guard : JobGuard) (change : TransferJob → TransferJob) : JobGuard :=
  { guard with queue := guard.queue.setJobs (guard.queue.jobs.modify guard.id change) }

def JobGuard.drop (guard : JobGuard) : TransferQueue := guard.queue.reconcile guard.id guard.before

/-- Borrow a job, write through the guard and drop it. -/
def editGuarded (queue : TransferQueue) (id : Nat) (change : TransferJob → TransferJob) :
    TransferQueue :=
  match queue.getMut id with
  | none => queue
  | some guard => (guard.edit change).drop

theorem editGuarded_eq_update (queue : TransferQueue) (id : Nat)
    (change : TransferJob → TransferJob) :
    queue.editGuarded id change = queue.update id change := by
  unfold editGuarded update getMut
  cases queue.jobs.get? id <;> rfl

/-! ### Entering and leaving batches -/

def startBatch (queue : TransferQueue) (label : String) : TransferQueue × Nat :=
  let id := queue.nextBatchId
  ({ queue with
      nextBatchId := id + 1
      batchLabels := Function.update queue.batchLabels id (some label) }, id)

def batchLabel (queue : TransferQueue) (batchId : Nat) : Option String := queue.batchLabels batchId

def forgetBatchIfEmpty (queue : TransferQueue) (batchId : Nat) : TransferQueue :=
  if (queue.batchRow batchId).isNone then
    { queue with
      batchLabels := Function.update queue.batchLabels batchId none
      unkeptTimesFlagged := Function.update queue.unkeptTimesFlagged batchId false }
  else queue

def flagUnkeptTimes (queue : TransferQueue) (batchId : Nat) : TransferQueue × Bool :=
  ({ queue with unkeptTimesFlagged := Function.update queue.unkeptTimesFlagged batchId true },
    !queue.unkeptTimesFlagged batchId)

def takeChanges (queue : TransferQueue) : TransferQueue × List RowChange :=
  ({ queue with changes := [] }, queue.changes)

/-- The arguments of `enqueue`. -/
structure NewJob where
  sessionId : Nat
  direction : Direction
  localPath : Path
  remotePath : String
  displayName : String
  totalBytes : Nat
  batchId : Option Nat
  deriving DecidableEq, Repr

/-- The job `enqueue` puts into the map. -/
def NewJob.toJob (new : NewJob) (id : Nat) : TransferJob where
  id := id
  sessionId := new.sessionId
  direction := new.direction
  localPath := new.localPath
  remotePath := new.remotePath
  displayName := new.displayName
  totalBytes := new.totalBytes
  transferredBytes := 0
  status := .queued
  attempts := 0
  batchId := new.batchId
  resume := false
  modified := none

/-- The row a job belongs to. -/
def kindOf (job : TransferJob) : RowKind :=
  match job.batchId with
  | some batch => .batch batch
  | none => .single job.id

def enqueueLabel (queue : TransferQueue) (new : NewJob) : String :=
  match new.batchId with
  | some batch => (queue.batchLabels batch).getD new.displayName
  | none => new.displayName

/-- The row key `enqueue` uses: `batch_row.entry(batch).or_insert(id)`. -/
def enqueueKey (queue : TransferQueue) (new : NewJob) : Nat :=
  match new.batchId with
  | some batch => (queue.batchRow batch).getD queue.nextId
  | none => queue.nextId

/-- The row `enqueue` leaves under its key before it accounts for the job. -/
def enqueueRow (queue : TransferQueue) (new : NewJob) : RowCounters :=
  let counters := (queue.rows.get? (queue.enqueueKey new)).getD
    (RowCounters.new (kindOf (new.toJob queue.nextId)) (queue.enqueueLabel new) new.direction)
  { counters with
    order := counters.order ++ [queue.nextId]
    bytesTotal := counters.bytesTotal + new.totalBytes }

/-- `enqueue` up to the point where it accounts for the new job. -/
def enterJob (queue : TransferQueue) (new : NewJob) : TransferQueue :=
  let id := queue.nextId
  let key := queue.enqueueKey new
  { queue with
    nextId := id + 1
    batchRow := match new.batchId with
      | some batch => Function.update queue.batchRow batch (some key)
      | none => queue.batchRow
    rows := queue.rows.insert key (queue.enqueueRow new)
    rowOf := Function.update queue.rowOf id (some key)
    jobs := queue.jobs.insert id (new.toJob id) }

def enqueue (queue : TransferQueue) (new : NewJob) : TransferQueue × Nat :=
  let id := queue.nextId
  let job := new.toJob id
  let key := queue.enqueueKey new
  let wasFinished := queue.rowFinished key
  let accounted := (queue.enterJob new).account id (Shape.of job) true
  if wasFinished ∧ ¬ accounted.rowFinished key then
    (accounted.pushChange (.reopened (kindOf job)), id)
  else (accounted, id)

/-! ### Bulk changes -/

def retryJob (job : TransferJob) : TransferJob :=
  { job with resume := decide (0 < job.attempts), status := .queued, attempts := 0 }

/-- One round of `retry_jobs`. -/
def retryOne (queue : TransferQueue) (id : Nat) : TransferQueue :=
  if (queue.jobs.get? id).any fun job => job.status.isInterrupted then queue.update id retryJob
  else queue

def retryJobs (queue : TransferQueue) : List Nat → TransferQueue × Nat
  | [] => (queue, 0)
  | id :: ids =>
    let count :=
      if (queue.jobs.get? id).any fun job => job.status.isInterrupted then 1 else 0
    let (rest, more) := (queue.retryOne id).retryJobs ids
    (rest, count + more)

def setStatus (status : JobStatus) (job : TransferJob) : TransferJob := { job with status }

def updateAll (queue : TransferQueue) (ids : List Nat) (change : TransferJob → TransferJob) :
    TransferQueue :=
  ids.foldl (fun queue id => queue.update id change) queue

def cancelAllQueued (queue : TransferQueue) : TransferQueue × Nat :=
  let ids := queue.queued.keys
  (queue.updateAll ids (setStatus .cancelled), ids.length)

def failQueuedForSession (queue : TransferQueue) (sessionId : Nat) (reason : String) :
    TransferQueue × Nat :=
  let ids := ((queue.queuedBySession.get? sessionId).map OrderedMap.keys).getD []
  (queue.updateAll ids (setStatus (.failed reason)), ids.length)

def retryOrGiveUp (queue : TransferQueue) (id : Nat) : TransferQueue × Bool :=
  match queue.jobs.get? id with
  | none => (queue, false)
  | some job =>
    if job.attempts < maxAttempts then
      (queue.update id fun job => { job with status := .queued, resume := true }, true)
    else (queue, false)

/-! ### Rows and lookups -/

def rowList (queue : TransferQueue) : List QueueRow := queue.rows.values.map RowCounters.toRow

def rowKey (queue : TransferQueue) (kind : RowKind) : Option Nat :=
  let key := match kind with
    | .single id => if queue.rows.contains id then some id else none
    | .batch batch => queue.batchRow batch
    | .scan _ => none
  key.filter fun key => (queue.rows.get? key).any fun counters => counters.kind = kind

def row (queue : TransferQueue) (kind : RowKind) : Option QueueRow :=
  ((queue.rowKey kind).bind queue.rows.get?).map RowCounters.toRow

def jobsOf (queue : TransferQueue) (kind : RowKind) : List TransferJob :=
  match (queue.rowKey kind).bind queue.rows.get? with
  | none => []
  | some counters => counters.order.filterMap queue.jobs.get?

def get (queue : TransferQueue) (id : Nat) : Option TransferJob := queue.jobs.get? id

def activeJobs (queue : TransferQueue) : List TransferJob :=
  queue.running.keys.filterMap queue.jobs.get?

def queuedJobs (queue : TransferQueue) : List TransferJob :=
  queue.queued.keys.filterMap queue.jobs.get?

def activeIdsForSession (queue : TransferQueue) (sessionId : Nat) : List Nat :=
  (queue.activeJobs.filter fun job => job.sessionId = sessionId).map TransferJob.id

def hasPending (queue : TransferQueue) (sessionId : Nat) (direction : Direction) : Bool :=
  decide (0 < (queue.pending (sessionId, direction)).getD 0)

def batchProgress (queue : TransferQueue) (batchId : Nat) : BatchProgress :=
  match (queue.batchRow batchId).bind queue.rows.get? with
  | some counters => ⟨counters.total, counters.completed, counters.bytesTotal, counters.bytesDone⟩
  | none => ⟨0, 0, 0, 0⟩

/-! ### Removing jobs -/

/-- The local variables of `remove_jobs`. -/
structure Removal where
  queue : TransferQueue
  touchedBatches : List Nat
  removedByRow : OrderedMap Nat (List Nat)
  wasFinished : List (RowKind × Bool)

namespace Removal

def start (queue : TransferQueue) : Removal := ⟨queue, [], .empty, []⟩

/-- `was_finished.entry(kind).or_insert_with(|| finished)` -/
def noteFinished (wasFinished : List (RowKind × Bool)) (kind : RowKind) (finished : Bool) :
    List (RowKind × Bool) :=
  if kind ∈ wasFinished.map Prod.fst then wasFinished else wasFinished ++ [(kind, finished)]

/-- One round of the first loop: take a job out of the map and the indexes. -/
def takeJob (removal : Removal) (id : Nat) : Removal :=
  let queue := removal.queue
  match queue.jobs.get? id with
  | none => removal
  | some job =>
    match queue.rowOf id with
    | none => removal
    | some key =>
      let wasFinished := match queue.rows.get? key with
        | none => removal.wasFinished
        | some counters => noteFinished removal.wasFinished counters.kind counters.finished
      let accounted := queue.account id (Shape.of job) false
      let taken : TransferQueue :=
        { accounted with
          rows := accounted.rows.modify key fun counters =>
            { counters with bytesTotal := counters.bytesTotal - job.totalBytes }
          rowOf := Function.update accounted.rowOf id none
          jobs := accounted.jobs.erase id }
      { queue := taken
        touchedBatches := match job.batchId with
          | none => removal.touchedBatches
          | some batch =>
            if batch ∈ removal.touchedBatches then removal.touchedBatches
            else removal.touchedBatches ++ [batch]
        removedByRow := removal.removedByRow.insert key
          ((removal.removedByRow.get? key).getD [] ++ [id])
        wasFinished := wasFinished }

end Removal

def rekeyRow (queue : TransferQueue) (oldKey : Nat) : TransferQueue :=
  match queue.rows.get? oldKey with
  | none => queue
  | some counters =>
    let queue := { queue with rows := queue.rows.erase oldKey }
    match counters.order with
    | [] => queue
    | newKey :: _ =>
      let counters := match queue.jobs.get? newKey with
        | none => counters
        | some first =>
          { counters with
            direction := first.direction
            label := match counters.kind with
              | .batch batch =>
                if (queue.batchLabels batch).isNone then first.displayName
                else counters.label
              | _ => counters.label }
      { queue with
        rowOf := fun id => if id ∈ counters.order then some newKey else queue.rowOf id
        batchRow := match counters.kind with
          | .batch batch => Function.update queue.batchRow batch (some newKey)
          | _ => queue.batchRow
        rows := queue.rows.insert newKey counters }

namespace Removal

/-- One round of the second loop: drop or rekey a row that lost jobs. -/
def closeRow (removal : Removal) (key : Nat) (removed : List Nat) : Removal :=
  let queue := removal.queue
  match queue.rows.get? key with
  | none => removal
  | some counters =>
    let order := counters.order.filter fun id => decide (id ∉ removed)
    if order = [] then
      let kind := counters.kind
      { removal with
        queue := { queue with
          rows := queue.rows.erase key
          batchRow := match kind with
            | .batch batch => Function.update queue.batchRow batch none
            | _ => queue.batchRow }.pushChange (.removed kind)
        wasFinished := removal.wasFinished.filter fun entry => decide (entry.1 ≠ kind) }
    else
      let retained := { queue with rows := queue.rows.insert key { counters with order } }
      if key ∈ removed then { removal with queue := retained.rekeyRow key }
      else { removal with queue := retained }

end Removal

/-- One round of the third loop: report a row that finished or reopened. -/
def reportRow (queue : TransferQueue) (kind : RowKind) (before : Bool) : TransferQueue :=
  match ((queue.rowKey kind).bind queue.rows.get?).map RowCounters.finished with
  | some true => if before then queue else queue.pushChange (.finished kind)
  | some false => if before then queue.pushChange (.reopened kind) else queue
  | none => queue

def removeJobs (order : HashOrder) (queue : TransferQueue) (ids : List Nat) : TransferQueue :=
  let taken := ids.foldl Removal.takeJob (Removal.start queue)
  let closed := taken.removedByRow.entries.foldl
    (fun removal entry => removal.closeRow entry.1 entry.2) taken
  let reported := (order.rows closed.wasFinished).foldl
    (fun queue entry => queue.reportRow entry.1 entry.2) closed.queue
  (order.batches closed.touchedBatches).foldl forgetBatchIfEmpty reported

/-! ### Choosing jobs to start -/

/-- The local variables of `startable_limited`.  `heads` is the heap, listed
from the entry it pops first; `iterators` holds what is left of each session's
queued ids. -/
structure Merge where
  heads : List (Nat × Nat)
  iterators : Nat → Option (List Nat)
  busyDestinations : List Destination
  perSession : Nat → Nat
  startable : List Nat

/-- The order in which the heap pops `(id, session)` pairs. -/
def headBefore (first second : Nat × Nat) : Prop :=
  first.1 < second.1 ∨ (first.1 = second.1 ∧ first.2 ≤ second.2)

instance : DecidableRel headBefore := fun first second =>
  inferInstanceAs (Decidable (first.1 < second.1 ∨ (first.1 = second.1 ∧ first.2 ≤ second.2)))

def capped (sessionLimit : Nat → Option Nat) (session running : Nat) : Bool :=
  (sessionLimit session).any fun cap => decide (cap ≤ running)

namespace Merge

/-- Enter one session's queued ids unless its cap is already reached. -/
def addSession (sessionLimit : Nat → Option Nat) (merge : Merge)
    (entry : Nat × OrderedSet Nat) : Merge :=
  if capped sessionLimit entry.1 (merge.perSession entry.1) then merge
  else
    match entry.2.keys with
    | [] => merge
    | first :: rest =>
      { merge with
        heads := merge.heads.orderedInsert headBefore (first, entry.1)
        iterators := Function.update merge.iterators entry.1 (some rest) }

/-- Push the next id of a session, if it has one. -/
def advance (merge : Merge) (session : Nat) : Merge :=
  match merge.iterators session with
  | some (next :: rest) =>
    { merge with
      heads := merge.heads.orderedInsert headBefore (next, session)
      iterators := Function.update merge.iterators session (some rest) }
  | _ => merge

/-- Choose a popped job unless its destination is taken. -/
def choose (merge : Merge) (jobs : OrderedMap Nat TransferJob) (id session : Nat) : Merge :=
  match jobs.get? id with
  | none => merge
  | some job =>
    if job.destination ∈ merge.busyDestinations then merge
    else
      { merge with
        busyDestinations := job.destination :: merge.busyDestinations
        perSession := Function.update merge.perSession session (merge.perSession session + 1)
        startable := merge.startable ++ [job.id] }

/-- The loop of `startable_limited`; `fuel` bounds the number of pops. -/
def run (jobs : OrderedMap Nat TransferJob) (sessionLimit : Nat → Option Nat) (freeSlots : Nat) :
    Nat → Merge → Merge
  | 0, merge => merge
  | fuel + 1, merge =>
    if merge.startable.length < freeSlots then
      match merge.heads with
      | [] => merge
      | (id, session) :: heads =>
        let popped := { merge with heads }
        if capped sessionLimit session (popped.perSession session) then
          run jobs sessionLimit freeSlots fuel popped
        else
          run jobs sessionLimit freeSlots fuel ((popped.advance session).choose jobs id session)
    else merge

end Merge

def runningPerSession (queue : TransferQueue) (session : Nat) : Nat :=
  queue.activeJobs.countP fun job => decide (job.sessionId = session)

def startableLimited (order : HashOrder) (queue : TransferQueue) (limit : Nat)
    (sessionLimit : Nat → Option Nat) : List Nat :=
  let freeSlots := limit - queue.running.keys.length
  if freeSlots = 0 ∨ queue.queued.entries = [] then []
  else
    let initial : Merge :=
      { heads := []
        iterators := fun _ => none
        busyDestinations := queue.activeJobs.map TransferJob.destination
        perSession := queue.runningPerSession
        startable := [] }
    let loaded := (order.sessions queue.queuedBySession.entries).foldl
      (Merge.addSession sessionLimit) initial
    let pops := (queue.queuedBySession.values.map fun ids => ids.keys.length).sum
    (loaded.run queue.jobs sessionLimit freeSlots pops).startable

def startable (order : HashOrder) (queue : TransferQueue) (limit : Nat) : List Nat :=
  queue.startableLimited order limit fun _ => none

end TransferQueue

end Porthmos
