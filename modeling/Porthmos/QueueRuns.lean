import Porthmos.QueueBulk
import Porthmos.QueueRemoval

/-!
# Runs of the queue

A run applies one operation of the queue after another.  What each operation
keeps holds of every queue a run can reach: the indexes equal their recounts and
every row shows the label of its first job.
-/

namespace Porthmos

namespace TransferQueue

/-- The values a job has when its guard is dropped.  These are the fields the
engine writes through a guard; a field that was not written keeps its value. -/
structure JobEdit where
  status : JobStatus
  transferredBytes : Nat
  sessionId : Nat
  attempts : Nat
  resume : Bool
  modified : Option Nat
  deriving DecidableEq, Repr

def JobEdit.apply (edit : JobEdit) (job : TransferJob) : TransferJob :=
  { job with
    status := edit.status
    transferredBytes := edit.transferredBytes
    sessionId := edit.sessionId
    attempts := edit.attempts
    resume := edit.resume
    modified := edit.modified }

inductive QueueOp
  | startBatch (label : String)
  | enqueue (new : NewJob)
  | editGuarded (id : Nat) (edit : JobEdit)
  | retryJobs (ids : List Nat)
  | retryOrGiveUp (id : Nat)
  | cancelAllQueued
  | failQueuedForSession (session : Nat) (reason : String)
  | forgetBatchIfEmpty (batch : Nat)
  | removeJobs (order : HashOrder) (ids : List Nat)
  | flagUnkeptTimes (batch : Nat)
  | takeChanges

/-- The queue after an operation. -/
def QueueOp.apply (queue : TransferQueue) : QueueOp → TransferQueue
  | .startBatch label => (queue.startBatch label).1
  | .enqueue new => (queue.enqueue new).1
  | .editGuarded id edit => queue.editGuarded id edit.apply
  | .retryJobs ids => (queue.retryJobs ids).1
  | .retryOrGiveUp id => (queue.retryOrGiveUp id).1
  | .cancelAllQueued => queue.cancelAllQueued.1
  | .failQueuedForSession session reason => (queue.failQueuedForSession session reason).1
  | .forgetBatchIfEmpty batch => queue.forgetBatchIfEmpty batch
  | .removeJobs order ids => queue.removeJobs order ids
  | .flagUnkeptTimes batch => (queue.flagUnkeptTimes batch).1
  | .takeChanges => queue.takeChanges.1

/-- The queues that runs reach whose operations are all allowed. -/
inductive Reachable (allowed : TransferQueue → QueueOp → Prop) : TransferQueue → Prop
  | new : Reachable allowed new
  | step {queue : TransferQueue} (op : QueueOp) (reached : Reachable allowed queue)
      (permitted : allowed queue op) : Reachable allowed (op.apply queue)

/-- Every operation is allowed. -/
def anyOp (_ : TransferQueue) (_ : QueueOp) : Prop := True

/-- Jobs enter no batch, or a batch whose label is still held. -/
def intoHeldBatch (queue : TransferQueue) : QueueOp → Prop
  | .enqueue new => ∀ batch, new.batchId = some batch → (queue.batchLabel batch).isSome
  | _ => True

theorem Reachable.foldl {allowed : TransferQueue → QueueOp → Prop} {queue : TransferQueue}
    (reached : Reachable allowed queue) (ops : List QueueOp)
    (permitted : ∀ queue, ∀ op ∈ ops, allowed queue op) :
    Reachable allowed (ops.foldl QueueOp.apply queue) := by
  induction ops generalizing queue with
  | nil => exact reached
  | cons op rest ih =>
    refine ih (.step op reached (permitted queue op (by simp))) fun queue other member => ?_
    exact permitted queue other (List.mem_cons_of_mem _ member)

variable {queue : TransferQueue}

theorem keepsRow_edit (edit : JobEdit) (job : TransferJob) : KeepsRow job (edit.apply job) :=
  ⟨rfl, rfl, rfl, rfl, rfl⟩

theorem Indexed.editGuarded (indexed : queue.Indexed) (id : Nat) (edit : JobEdit) :
    (queue.jobs.get? id = none ∧ queue.editGuarded id edit.apply = queue) ∨
      ∃ job, queue.jobs.get? id = some job ∧
        Updated queue (queue.editGuarded id edit.apply) id job (edit.apply job) := by
  cases found : queue.jobs.get? id with
  | none => exact Or.inl ⟨rfl, by simp [TransferQueue.editGuarded, getMut, found]⟩
  | some job =>
    refine Or.inr ⟨job, rfl, ?_⟩
    rw [editGuarded_eq_update]
    exact indexed.update found (keepsRow_edit edit job)

/-- Every operation keeps the queue indexed. -/
theorem Indexed.apply (indexed : queue.Indexed) (op : QueueOp) : (op.apply queue).Indexed := by
  cases op with
  | startBatch label => exact indexed.of_fields rfl rfl rfl rfl rfl rfl rfl rfl rfl
  | enqueue new => exact (indexed.enqueue new).indexed
  | editGuarded id edit =>
    rcases indexed.editGuarded id edit with ⟨_, same⟩ | ⟨job, _, updated⟩
    · rw [QueueOp.apply, same]
      exact indexed
    · exact updated.indexed
  | retryJobs ids => exact (indexed.retryJobs ids).indexed
  | retryOrGiveUp id => exact (indexed.retryOrGiveUp id).indexed
  | cancelAllQueued => exact indexed.cancelAllQueued.indexed
  | failQueuedForSession session reason =>
    exact (indexed.failQueuedForSession session reason).indexed
  | forgetBatchIfEmpty batch =>
    rw [QueueOp.apply, TransferQueue.forgetBatchIfEmpty]
    split_ifs
    · exact indexed.of_fields rfl rfl rfl rfl rfl rfl rfl rfl rfl
    · exact indexed
  | removeJobs order ids => exact (indexed.removeJobs order ids).indexed
  | flagUnkeptTimes batch => exact indexed.of_fields rfl rfl rfl rfl rfl rfl rfl rfl rfl
  | takeChanges => exact indexed.of_fields rfl rfl rfl rfl rfl rfl rfl rfl rfl

theorem Reachable.indexed {allowed : TransferQueue → QueueOp → Prop}
    (reached : Reachable allowed queue) : queue.Indexed := by
  induction reached with
  | new => exact indexed_new
  | step op _ _ ih => exact ih.apply op

/-! ### Batches and labels -/

/-- Batch ids are given out in order: jobs and labels know no later ones. -/
structure BatchesKnown (queue : TransferQueue) : Prop where
  jobs : ∀ id job batch, queue.jobs.get? id = some job → job.batchId = some batch →
    batch < queue.nextBatchId
  labels : ∀ batch, (queue.batchLabels batch).isSome → batch < queue.nextBatchId

theorem Bulk.batchesKnown {result : TransferQueue} {target : Bool}
    {change : Nat → TransferJob → TransferJob} (bulk : Bulk target queue result change)
    (kept : ∀ id job, (change id job).batchId = job.batchId) (known : queue.BatchesKnown) :
    result.BatchesKnown := by
  constructor
  · intro id job batch found inBatch
    rw [bulk.jobs_eq, Option.map_eq_some_iff] at found
    obtain ⟨before, beforeFound, rfl⟩ := found
    rw [bulk.nextBatchId_eq]
    exact known.jobs id before batch beforeFound (by rwa [kept] at inBatch)
  · rw [bulk.nextBatchId_eq, bulk.batchLabels_eq]
    exact known.labels

theorem BatchesKnown.apply (known : queue.BatchesKnown) (indexed : queue.Indexed) {op : QueueOp}
    (permitted : intoHeldBatch queue op) : (op.apply queue).BatchesKnown := by
  cases op with
  | startBatch label =>
    constructor
    · exact fun id job batch found inBatch => (known.jobs id job batch found inBatch).trans
        (Nat.lt_succ_self _)
    · intro batch held
      simp only [QueueOp.apply, startBatch] at held ⊢
      by_cases same : batch = queue.nextBatchId
      · omega
      · rw [Function.update_of_ne same] at held
        have := known.labels batch held
        omega
  | enqueue new =>
    have entered := indexed.enqueue new
    constructor
    · intro id job batch found inBatch
      rw [QueueOp.apply, entered.nextBatchId_eq]
      rw [QueueOp.apply, entered.jobs_eq, OrderedMap.get?_insert] at found
      split_ifs at found
      · cases found
        exact known.labels batch (permitted batch inBatch)
      · exact known.jobs id job batch found inBatch
    · intro batch held
      rw [QueueOp.apply, entered.nextBatchId_eq]
      rw [QueueOp.apply, entered.batchLabels_eq] at held
      exact known.labels batch held
  | editGuarded id edit =>
    rcases indexed.editGuarded id edit with ⟨_, same⟩ | ⟨job, found, updated⟩
    · rwa [QueueOp.apply, same]
    · constructor
      · intro other otherJob batch otherFound inBatch
        rw [QueueOp.apply, updated.nextBatchId_eq]
        rw [QueueOp.apply, updated.jobs_eq, OrderedMap.get?_insert] at otherFound
        split_ifs at otherFound
        · cases otherFound
          exact known.jobs id job batch found inBatch
        · exact known.jobs other otherJob batch otherFound inBatch
      · rw [QueueOp.apply, updated.nextBatchId_eq, updated.batchLabels_eq]
        exact known.labels
  | retryJobs ids =>
    exact (indexed.retryJobs ids).batchesKnown (fun _ _ => by split_ifs <;> rfl) known
  | retryOrGiveUp id =>
    exact (indexed.retryOrGiveUp id).batchesKnown (fun _ _ => by split_ifs <;> rfl) known
  | cancelAllQueued =>
    exact indexed.cancelAllQueued.batchesKnown (fun _ _ => by split_ifs <;> rfl) known
  | failQueuedForSession session reason =>
    exact (indexed.failQueuedForSession session reason).batchesKnown
      (fun _ _ => by split_ifs <;> rfl) known
  | forgetBatchIfEmpty batch =>
    rw [QueueOp.apply, TransferQueue.forgetBatchIfEmpty]
    split_ifs
    · refine ⟨known.jobs, fun other held => ?_⟩
      dsimp only at held ⊢
      by_cases same : other = batch
      · simp [same] at held
      · rw [Function.update_of_ne same] at held
        exact known.labels other held
    · exact known
  | removeJobs order ids =>
    have removed := indexed.removeJobs order ids
    constructor
    · intro id job batch found inBatch
      rw [QueueOp.apply, removed.nextBatchId_eq]
      rw [QueueOp.apply, removed.jobs_eq] at found
      split_ifs at found
      exact known.jobs id job batch found inBatch
    · intro batch held
      rw [QueueOp.apply] at held ⊢
      rw [removed.nextBatchId_eq]
      rcases removed.batchLabels_eq batch with same | ⟨forgotten, _⟩
      · exact known.labels batch (same ▸ held)
      · simp [forgotten] at held
  | flagUnkeptTimes batch => exact ⟨known.jobs, known.labels⟩
  | takeChanges => exact ⟨known.jobs, known.labels⟩

theorem Labelled.apply (labelled : queue.Labelled) (known : queue.BatchesKnown)
    (indexed : queue.Indexed) (op : QueueOp) : (op.apply queue).Labelled := by
  cases op with
  | startBatch label =>
    intro key counters first row found
    rw [labelled key counters first row found]
    unfold expectedLabel
    cases inBatch : first.batchId with
    | none => rfl
    | some batch =>
      have earlier := known.jobs key first batch found inBatch
      simp [QueueOp.apply, startBatch, Function.update_of_ne earlier.ne]
  | enqueue new => exact (indexed.enqueue new).labelled indexed labelled
  | editGuarded id edit =>
    rcases indexed.editGuarded id edit with ⟨_, same⟩ | ⟨job, found, updated⟩
    · rwa [QueueOp.apply, same]
    · exact updated.labelled found (keepsRow_edit edit job) labelled
  | retryJobs ids => exact (indexed.retryJobs ids).labelled labelled
  | retryOrGiveUp id => exact (indexed.retryOrGiveUp id).labelled labelled
  | cancelAllQueued => exact indexed.cancelAllQueued.labelled labelled
  | failQueuedForSession session reason =>
    exact (indexed.failQueuedForSession session reason).labelled labelled
  | forgetBatchIfEmpty batch =>
    rw [QueueOp.apply, TransferQueue.forgetBatchIfEmpty]
    split_ifs with empty
    · intro key counters first row found
      refine indexed.labelled_of_forgotten labelled (fun other => ?_) row found
      by_cases same : other = batch
      · subst same
        exact Or.inr ⟨Function.update_self _ _ _, Option.isNone_iff_eq_none.mp empty⟩
      · exact Or.inl (Function.update_of_ne same _ _)
    · exact labelled
  | removeJobs order ids => exact (indexed.removeJobs order ids).labelled labelled
  | flagUnkeptTimes batch => exact labelled
  | takeChanges => exact labelled

/-- Every row of a reachable queue shows the label of its first job, as long as
jobs entered only batches whose labels were held. -/
theorem Reachable.labelled (reached : Reachable intoHeldBatch queue) : queue.Labelled := by
  suffices both : queue.Labelled ∧ queue.BatchesKnown from both.1
  induction reached with
  | new =>
    exact ⟨by simp [Labelled, TransferQueue.new], by simp [TransferQueue.new],
      by simp [TransferQueue.new]⟩
  | step op reached permitted ih =>
    exact ⟨ih.1.apply ih.2 reached.indexed op, ih.2.apply reached.indexed permitted⟩

/-! ### Reported changes -/

/-- The operations whose changes the engine records.  Draining the list of
changes is not one of them. -/
def QueueOp.reports : QueueOp → Prop
  | .takeChanges => False
  | _ => True

theorem Indexed.apply_changes (indexed : queue.Indexed) {op : QueueOp} (reports : op.reports) :
    ChangesExact queue (op.apply queue) := by
  have unchanged {other : TransferQueue} (jobs : other.jobs = queue.jobs)
      (changes : other.changes = queue.changes) : ChangesExact queue other :=
    ⟨[], by rw [changes, List.append_nil], fun kind => by rw [jobs, phaseChanges_self]; rfl⟩
  cases op with
  | startBatch label => exact unchanged rfl rfl
  | enqueue new => exact (indexed.enqueue new).changesExact indexed
  | editGuarded id edit =>
    rcases indexed.editGuarded id edit with ⟨_, same⟩ | ⟨job, found, updated⟩
    · rw [QueueOp.apply, same]
      exact unchanged rfl rfl
    · exact updated.changesExact indexed found (keepsRow_edit edit job)
  | retryJobs ids => exact (indexed.retryJobs ids).changes
  | retryOrGiveUp id => exact (indexed.retryOrGiveUp id).changes
  | cancelAllQueued => exact indexed.cancelAllQueued.changes
  | failQueuedForSession session reason =>
    exact (indexed.failQueuedForSession session reason).changes
  | forgetBatchIfEmpty batch =>
    rw [QueueOp.apply, TransferQueue.forgetBatchIfEmpty]
    split_ifs <;> exact unchanged rfl rfl
  | removeJobs order ids => exact (indexed.removeJobs order ids).changes
  | flagUnkeptTimes batch => exact unchanged rfl rfl
  | takeChanges => exact reports.elim

/-- Whether the queue shows a row of this kind and, if so, whether as finished. -/
def shownFinished (queue : TransferQueue) (kind : RowKind) : Option Bool :=
  (queue.row kind).map QueueRow.isFinished

/-- How often each change should be reported about a row. -/
structure ReportsExactly (queue result : TransferQueue) (kind : RowKind)
    (appended : List RowChange) : Prop where
  finished : appended.count (.finished kind) =
    if queue.shownFinished kind = some false ∧ result.shownFinished kind = some true then 1 else 0
  reopened : appended.count (.reopened kind) =
    if queue.shownFinished kind = some true ∧ result.shownFinished kind = some false then 1 else 0
  removed : appended.count (.removed kind) =
    if (queue.shownFinished kind).isSome ∧ result.shownFinished kind = none then 1 else 0

theorem count_changesOf {change : RowChange} (changes : List RowChange) :
    (changesOf change.kind changes).count change = changes.count change := by
  rw [changesOf, List.count_filter]
  simp

/-- The changes an operation appends tell exactly which rows finished, reopened
and went away. -/
theorem changes_reportsExactly (reached : Reachable anyOp queue) {op : QueueOp}
    (reports : op.reports) :
    ∃ appended, (op.apply queue).changes = queue.changes ++ appended ∧
      ∀ kind, ReportsExactly queue (op.apply queue) kind appended := by
  have indexed := reached.indexed
  obtain ⟨appended, changes, exact⟩ := indexed.apply_changes reports
  refine ⟨appended, changes, fun kind => ?_⟩
  have before : queue.shownFinished kind = rowPhase queue.jobs kind :=
    indexed.row_isFinished_eq kind
  have after : (op.apply queue).shownFinished kind = rowPhase (op.apply queue).jobs kind :=
    (indexed.apply op).row_isFinished_eq kind
  have counted (change : RowChange) (about : change.kind = kind) : appended.count change =
      (phaseChanges kind (rowPhase queue.jobs kind)
        (rowPhase (op.apply queue).jobs kind)).count change := by
    rw [← exact, ← about, count_changesOf]
  constructor <;> rw [counted _ rfl, before, after] <;>
    rcases rowPhase queue.jobs kind with _ | _ | _ <;>
    rcases rowPhase (op.apply queue).jobs kind with _ | _ | _ <;>
    simp [phaseChanges]

/-- An upload into a batch. -/
def uploadInto (batch : Nat) (path : String) : NewJob where
  sessionId := 1
  direction := .upload
  localPath := ⟨path⟩
  remotePath := path
  displayName := path
  totalBytes := 10
  batchId := some batch

/-- A batch of two queued jobs, the first of which then completes. -/
def halfDone : List QueueOp :=
  [.startBatch "docs", .enqueue (uploadInto 0 "/a"), .enqueue (uploadInto 0 "/b"),
    .editGuarded 0 ⟨.completed, 10, 1, 1, false, none⟩]

/-- Removing the job that is left finishes the row, and that is all that is
reported. -/
theorem changes_reportsExactly_removal :
    ∃ appended, (QueueOp.apply (halfDone.foldl QueueOp.apply new)
        (.removeJobs .insertion [1, 7, 1])).changes =
      (halfDone.foldl QueueOp.apply new).changes ++ appended ∧
      ∀ kind, ReportsExactly (halfDone.foldl QueueOp.apply new)
        (QueueOp.apply (halfDone.foldl QueueOp.apply new) (.removeJobs .insertion [1, 7, 1]))
        kind appended :=
  changes_reportsExactly (Reachable.new.foldl halfDone fun _ _ _ => trivial) trivial

example : (QueueOp.apply (halfDone.foldl QueueOp.apply new)
    (.removeJobs .insertion [1, 7, 1])).changes = [.finished (.batch 0)] := by decide

end TransferQueue

end Porthmos
