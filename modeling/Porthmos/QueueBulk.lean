import Porthmos.QueueEntering
import Porthmos.QueueRows

/-!
# Changing one job or many

One update reports exactly the change it makes to its row.  The bulk operations
update one job after another, but each leads its rows one way only, so no row
flickers on the way.
-/

namespace Porthmos

namespace TransferQueue

variable {queue result : TransferQueue}

/-! ### One job -/

theorem isPending_eq (status : JobStatus) :
    status.isPending = (isQueuedStatus status || isRunningStatus status) := by
  cases status <;> rfl

theorem rowPhase_insert_of_kept {jobs : Jobs} {id : Nat} {job changed : TransferJob}
    (found : jobs.get? id = some job) (kept : KeepsRow job changed) {kind : RowKind}
    (otherRow : kindOf job ≠ kind) : rowPhase (jobs.insert id changed) kind = rowPhase jobs kind := by
  have same (test : JobStatus → Bool) :
      statusCount (jobs.insert id changed) kind test = statusCount jobs kind test := by
    refine OrderedMap.total_insert_of_eq found ?_
    simp [kept.kindOf, otherRow]
  rw [rowPhase, rowPhase, leader_insert_of_kept found kept, rowDone, rowDone, same, same]

theorem Indexed.rowPhase_of_job (indexed : queue.Indexed) {id : Nat} {job : TransferJob}
    (found : queue.jobs.get? id = some job) :
    rowPhase queue.jobs (kindOf job) = some (rowDone queue.jobs (kindOf job)) := by
  obtain ⟨key, _, _, _, leads, _⟩ := indexed.row_of_job found
  rw [rowPhase, leads]
  rfl

namespace Updated

variable {id : Nat} {job changed : TransferJob}

theorem labelled (updated : Updated queue result id job changed)
    (found : queue.jobs.get? id = some job) (kept : KeepsRow job changed)
    (labelled : queue.Labelled) : result.Labelled := by
  intro key counters first row firstFound
  have sameLabel := updated.label_eq key
  rw [row, Option.map_some, eq_comm, Option.map_eq_some_iff] at sameLabel
  obtain ⟨before, beforeRow, label⟩ := sameLabel
  rw [updated.jobs_eq, OrderedMap.get?_insert] at firstFound
  rw [← label, updated.batchLabels_eq]
  split_ifs at firstFound with same
  · cases firstFound
    subst same
    rw [labelled key before job beforeRow found, expectedLabel, expectedLabel, kept.batchId,
      kept.displayName]
  · exact labelled key before first beforeRow firstFound

theorem changesExact (updated : Updated queue result id job changed) (indexed : queue.Indexed)
    (found : queue.jobs.get? id = some job) (kept : KeepsRow job changed) :
    ChangesExact queue result := by
  refine ⟨_, updated.changes_eq, fun kind => ?_⟩
  by_cases same : kindOf job = kind
  · subst same
    have afterPhase : rowPhase result.jobs (kindOf job) =
        some (rowDone result.jobs (kindOf job)) := by
      have changedFound : result.jobs.get? id = some changed := by simp [updated.jobs_eq]
      rw [← kept.kindOf]
      exact updated.indexed.rowPhase_of_job changedFound
    rw [changesOf_eq_self fun _ => kind_of_mem_flipChanges, indexed.rowPhase_of_job found,
      afterPhase, phaseChanges_some]
  · have unchanged : rowPhase result.jobs kind = rowPhase queue.jobs kind := by
      rw [updated.jobs_eq]
      exact rowPhase_insert_of_kept found kept same
    rw [unchanged, phaseChanges_self]
    refine changesOf_eq_nil fun change member => ?_
    rwa [kind_of_mem_flipChanges member]

end Updated

namespace Entered

variable {new : NewJob}

theorem labelled (entered : Entered queue result new) (indexed : queue.Indexed)
    (labelled : queue.Labelled) : result.Labelled := by
  intro key counters first row found
  have label := entered.label_eq key
  rw [row, Option.map_some] at label
  rw [entered.jobs_eq, OrderedMap.get?_insert] at found
  rw [entered.batchLabels_eq]
  have ownLabel : queue.enqueueLabel new =
      expectedLabel queue.batchLabels (new.toJob queue.nextId) := rfl
  split_ifs at label with sameKey
  · cases beforeRow : queue.rows.get? key with
    | none =>
      rw [beforeRow, Option.map_none, Option.getD_none, Option.some.injEq] at label
      have isNew : key = queue.nextId := by
        rw [sameKey, indexed.enqueueKey_eq]
        cases leads : leader queue.jobs (queue.enqueueKind new) with
        | none => rfl
        | some leading =>
          obtain ⟨before, present⟩ := indexed.rows.present _ _ leads
          rw [sameKey, indexed.enqueueKey_eq, leads, Option.getD_some, present] at beforeRow
          cases beforeRow
      rw [if_pos isNew, Option.some.injEq] at found
      rw [label, ← found, ownLabel]
    | some before =>
      rw [beforeRow, Option.map_some, Option.getD_some, Option.some.injEq] at label
      have notNew : key ≠ queue.nextId := by
        rintro rfl
        rw [indexed.rows_nextId] at beforeRow
        cases beforeRow
      rw [if_neg notNew] at found
      rw [label, labelled key before first beforeRow found]
  · have notNew : key ≠ queue.nextId := by
      rintro rfl
      rw [indexed.rows_nextId] at label
      cases label
    rw [eq_comm, Option.map_eq_some_iff] at label
    obtain ⟨before, beforeRow, sameLabel⟩ := label
    rw [if_neg notNew] at found
    rw [← sameLabel, labelled key before first beforeRow found]

theorem changesExact (entered : Entered queue result new) (indexed : queue.Indexed) :
    ChangesExact queue result := by
  refine ⟨_, entered.changes_eq, fun kind => ?_⟩
  have fresh := indexed.fresh_nextId
  rw [entered.jobs_eq]
  by_cases same : kind = queue.enqueueKind new
  · subst same
    have afterPhase : rowPhase (queue.jobs.insert queue.nextId (new.toJob queue.nextId))
        (queue.enqueueKind new) = some false := by
      rw [rowPhase, indexed.leader_insert_nextId, if_pos rfl, Option.map_some, rowDone,
        statusCount_insert fresh, if_pos ⟨rfl, rfl⟩]
      simp
    rw [afterPhase, rowPhase]
    cases leads : leader queue.jobs (queue.enqueueKind new) with
    | none => simp [phaseChanges]
    | some key =>
      cases done : rowDone queue.jobs (queue.enqueueKind new) with
      | true => simpa [phaseChanges] using changesOf_eq_self (by simp [RowChange.kind])
      | false => simp [phaseChanges]
  · have otherRow : kindOf (new.toJob queue.nextId) ≠ kind := fun equal => same equal.symm
    have counts (test : JobStatus → Bool) :
        statusCount (queue.jobs.insert queue.nextId (new.toJob queue.nextId)) kind test =
          statusCount queue.jobs kind test := by
      rw [statusCount_insert fresh]
      simp [otherRow]
    have unchanged : rowPhase (queue.jobs.insert queue.nextId (new.toJob queue.nextId)) kind =
        rowPhase queue.jobs kind := by
      rw [rowPhase, rowPhase, indexed.leader_insert_nextId, if_neg same, rowDone, rowDone, counts,
        counts]
    rw [unchanged, phaseChanges_self]
    split_ifs
    · exact changesOf_eq_nil (by simp [RowChange.kind, Ne.symm same])
    · rfl

end Entered

/-! ### Many jobs -/

/-- Everything a bulk operation does that changes each job by `change` and leads
rows only to the phase `target`. -/
structure Bulk (target : Bool) (queue result : TransferQueue)
    (change : Nat → TransferJob → TransferJob) : Prop where
  indexed : result.Indexed
  jobs_eq : ∀ id, result.jobs.get? id = (queue.jobs.get? id).map (change id)
  nextId_eq : result.nextId = queue.nextId
  nextBatchId_eq : result.nextBatchId = queue.nextBatchId
  batchLabels_eq : result.batchLabels = queue.batchLabels
  labelled : queue.Labelled → result.Labelled
  phases : ∀ kind, rowPhase result.jobs kind = rowPhase queue.jobs kind ∨
    (rowPhase queue.jobs kind = some (!target) ∧ rowPhase result.jobs kind = some target)
  changes : ChangesExact queue result

namespace Bulk

variable {target : Bool} {change : Nat → TransferJob → TransferJob}

theorem refl (indexed : queue.Indexed) (target : Bool)
    (kept : ∀ id job, queue.jobs.get? id = some job → change id job = job) :
    Bulk target queue queue change := by
  refine ⟨indexed, fun id => ?_, rfl, rfl, rfl, id, fun _ => Or.inl rfl, [], by simp, by simp⟩
  cases found : queue.jobs.get? id with
  | none => rfl
  | some job => rw [Option.map_some, kept id job found]

/-- Rows that are led one way only do not flicker between two operations. -/
theorem trans {middle : TransferQueue} {next both : Nat → TransferJob → TransferJob}
    (first : Bulk target queue middle change) (second : Bulk target middle result next)
    (composed : ∀ id job, queue.jobs.get? id = some job → next id (change id job) = both id job) :
    Bulk target queue result both := by
  constructor
  case indexed => exact second.indexed
  case jobs_eq =>
    intro id
    rw [second.jobs_eq, first.jobs_eq]
    cases found : queue.jobs.get? id with
    | none => rfl
    | some job => simp [composed id job found]
  case nextId_eq => rw [second.nextId_eq, first.nextId_eq]
  case nextBatchId_eq => rw [second.nextBatchId_eq, first.nextBatchId_eq]
  case batchLabels_eq => rw [second.batchLabels_eq, first.batchLabels_eq]
  case labelled => exact fun labelled => second.labelled (first.labelled labelled)
  case phases =>
    intro kind
    rcases second.phases kind with same | ⟨before, after⟩
    · rw [same]
      exact first.phases kind
    · rcases first.phases kind with same | ⟨_, reached⟩
      · exact Or.inr ⟨same ▸ before, after⟩
      · rw [reached, Option.some.injEq] at before
        cases target <;> cases before
  case changes =>
    obtain ⟨early, earlyChanges, earlyExact⟩ := first.changes
    obtain ⟨late, lateChanges, lateExact⟩ := second.changes
    refine ⟨early ++ late, by rw [lateChanges, earlyChanges, List.append_assoc], fun kind => ?_⟩
    rw [changesOf_append, earlyExact, lateExact]
    rcases second.phases kind with same | ⟨before, after⟩
    · rw [same, phaseChanges_self, List.append_nil]
    · rcases first.phases kind with same | ⟨_, reached⟩
      · rw [same, phaseChanges_self, List.nil_append]
      · rw [reached, Option.some.injEq] at before
        cases target <;> cases before

end Bulk

/-- One update that leads its job towards `target`. -/
theorem Indexed.update_bulk (indexed : queue.Indexed) {id : Nat} {change : TransferJob → TransferJob}
    {target : Bool} {both : Nat → TransferJob → TransferJob}
    (kept : ∀ job, queue.jobs.get? id = some job → KeepsRow job (change job))
    (leans : ∀ job, queue.jobs.get? id = some job → (change job).status.isPending = !target)
    (composed : ∀ other job, queue.jobs.get? other = some job →
      both other job = if other = id then change job else job) :
    Bulk target queue (queue.update id change) both := by
  cases found : queue.jobs.get? id with
  | none =>
    have unchanged : queue.update id change = queue := by simp [TransferQueue.update, found]
    rw [unchanged]
    refine Bulk.refl indexed target fun other job otherFound => ?_
    rw [composed other job otherFound, if_neg]
    rintro rfl
    rw [found] at otherFound
    cases otherFound
  | some job =>
    have keptJob := kept job found
    have updated := indexed.update found keptJob
    constructor
    case indexed => exact updated.indexed
    case jobs_eq =>
      intro other
      rw [updated.jobs_eq, OrderedMap.get?_insert]
      split_ifs with same
      · subst same
        rw [found, Option.map_some, composed _ job found, if_pos rfl]
      · cases otherFound : queue.jobs.get? other with
        | none => rfl
        | some otherJob => rw [Option.map_some, composed _ _ otherFound, if_neg same]
    case nextId_eq => exact updated.nextId_eq
    case nextBatchId_eq => exact updated.nextBatchId_eq
    case batchLabels_eq => exact updated.batchLabels_eq
    case labelled => exact updated.labelled found keptJob
    case changes => exact updated.changesExact indexed found keptJob
    case phases =>
      intro kind
      by_cases same : kindOf job = kind
      · subst same
        have changedFound : (queue.update id change).jobs.get? id = some (change job) := by
          simp [updated.jobs_eq]
        have after := updated.indexed.rowPhase_of_job changedFound
        rw [keptJob.kindOf] at after
        rw [indexed.rowPhase_of_job found, after]
        have counts (test : JobStatus → Bool) :
            statusCount (queue.update id change).jobs (kindOf job) test =
              statusCount (queue.jobs.erase id) (kindOf job) test +
                if test (change job).status then 1 else 0 := by
          rw [updated.jobs_eq, ← OrderedMap.insert_erase, statusCount_insert (by simp),
            keptJob.kindOf]
          simp
        have lessQueued := statusCount_erase found (kindOf job) isQueuedStatus
        have lessRunning := statusCount_erase found (kindOf job) isRunningStatus
        have pending := leans job found
        rw [isPending_eq] at pending
        cases target with
        | false =>
          have undone : rowDone (queue.update id change).jobs (kindOf job) = false := by
            rw [rowDone, counts, counts, decide_eq_false_iff_not]
            rcases Bool.or_eq_true_iff.mp pending with queued | running
            · simp [queued]
            · simp [running]
          rw [undone]
          cases rowDone queue.jobs (kindOf job) <;> simp
        | true =>
          by_cases done : rowDone queue.jobs (kindOf job) = true
          · have stays : rowDone (queue.update id change).jobs (kindOf job) = true := by
              rw [rowDone, decide_eq_true_iff] at done ⊢
              obtain ⟨notQueued, notRunning⟩ := Bool.or_eq_false_iff.mp pending
              rw [counts, counts, notQueued, notRunning]
              simp only [Bool.false_eq_true, if_false]
              omega
            simp [done, stays]
          · rw [Bool.not_eq_true] at done
            cases rowDone (queue.update id change).jobs (kindOf job) <;> simp [done]
      · left
        rw [updated.jobs_eq]
        exact rowPhase_insert_of_kept found keptJob same

theorem Indexed.updateAll (indexed : queue.Indexed) (status : JobStatus) (target : Bool)
    (leans : status.isPending = !target) (ids : List Nat) :
    Bulk target queue (queue.updateAll ids (setStatus status))
      fun id job => if id ∈ ids then setStatus status job else job := by
  induction ids generalizing queue with
  | nil => exact Bulk.refl indexed target (by simp)
  | cons first rest ih =>
    have step : Bulk target queue (queue.update first (setStatus status))
        fun id job => if id = first then setStatus status job else job :=
      indexed.update_bulk (fun _ _ => ⟨rfl, rfl, rfl, rfl, rfl⟩) (fun _ _ => leans)
        (fun _ _ _ => rfl)
    refine step.trans (ih step.indexed) fun id job _ => ?_
    by_cases isFirst : id = first <;> by_cases isLater : id ∈ rest <;>
      simp [isFirst, isLater, setStatus]

theorem Indexed.cancelAllQueued (indexed : queue.Indexed) :
    Bulk true queue queue.cancelAllQueued.1 fun _ job =>
      if job.status = .queued then setStatus .cancelled job else job := by
  have bulk := indexed.updateAll .cancelled true rfl queue.queued.keys
  refine bulk.trans (Bulk.refl bulk.indexed true (fun _ _ _ => rfl)) fun id job found => ?_
  congr 1
  rw [OrderedMap.mem_keys_iff, indexed.sets.queued_eq, recountStatus]
  simp [found]

theorem Indexed.failQueuedForSession (indexed : queue.Indexed) (session : Nat) (reason : String) :
    Bulk true queue (queue.failQueuedForSession session reason).1 fun _ job =>
      if job.status = .queued ∧ job.sessionId = session then setStatus (.failed reason) job
      else job := by
  have bulk := indexed.updateAll (.failed reason) true rfl
    (((queue.queuedBySession.get? session).map OrderedMap.keys).getD [])
  refine bulk.trans (Bulk.refl bulk.indexed true (fun _ _ _ => rfl)) fun id job found => ?_
  have sameIds : ((queue.queuedBySession.get? session).map OrderedMap.keys).getD [] =
      (recountQueuedIn queue.jobs session).keys := by
    rw [← recountQueuedBySession_getD, indexed.sets.queuedBySession_eq]
    cases recountQueuedBySession queue.jobs session <;> rfl
  congr 1
  rw [sameIds, OrderedMap.mem_keys_iff, recountQueuedIn]
  simp [found]

theorem Indexed.retryOne (indexed : queue.Indexed) (id : Nat) :
    Bulk false queue (queue.retryOne id) fun other job =>
      if other = id ∧ job.status.isInterrupted then retryJob job else job := by
  unfold TransferQueue.retryOne
  split_ifs with interrupted
  · refine indexed.update_bulk (fun _ _ => ⟨rfl, rfl, rfl, rfl, rfl⟩) (fun _ _ => rfl) ?_
    intro other job found
    by_cases same : other = id
    · subst same
      rw [found, Option.any_some] at interrupted
      simp [interrupted]
    · simp [same]
  · refine Bulk.refl indexed false fun other job found => ?_
    rw [if_neg]
    rintro ⟨rfl, isInterrupted⟩
    rw [found, Option.any_some] at interrupted
    exact interrupted isInterrupted

theorem Indexed.retryJobs (indexed : queue.Indexed) (ids : List Nat) :
    Bulk false queue (queue.retryJobs ids).1 fun id job =>
      if id ∈ ids ∧ job.status.isInterrupted then retryJob job else job := by
  induction ids generalizing queue with
  | nil => exact Bulk.refl indexed false (by simp)
  | cons first rest ih =>
    have step := indexed.retryOne first
    refine step.trans (ih step.indexed) fun id job _ => ?_
    -- A job that was put back is not put back again by a repeated id.
    have once : (retryJob job).status.isInterrupted = false := rfl
    cases interrupted : job.status.isInterrupted <;> by_cases isFirst : id = first <;>
      by_cases isLater : id ∈ rest <;> simp_all

/-- `retry_or_give_up` requeues a job that has attempts left. -/
theorem Indexed.retryOrGiveUp (indexed : queue.Indexed) (id : Nat) :
    Bulk false queue (queue.retryOrGiveUp id).1 fun other job =>
      if other = id ∧ job.attempts < maxAttempts then { job with status := .queued, resume := true }
      else job := by
  unfold TransferQueue.retryOrGiveUp
  cases found : queue.jobs.get? id with
  | none =>
    refine Bulk.refl indexed false fun other job otherFound => ?_
    rw [if_neg]
    rintro ⟨rfl, _⟩
    rw [found] at otherFound
    cases otherFound
  | some job =>
    dsimp only
    split_ifs with left
    · refine indexed.update_bulk (fun _ _ => ⟨rfl, rfl, rfl, rfl, rfl⟩) (fun _ _ => rfl) ?_
      intro other otherJob otherFound
      by_cases same : other = id
      · subst same
        rw [found, Option.some.injEq] at otherFound
        subst otherFound
        simp [left]
      · simp [same]
    · refine Bulk.refl indexed false fun other otherJob otherFound => ?_
      rw [if_neg]
      rintro ⟨rfl, again⟩
      rw [found, Option.some.injEq] at otherFound
      subst otherFound
      exact left again

end TransferQueue

end Porthmos
