import Porthmos.QueueIndexing

/-!
# Entering jobs

A new job has the greatest id, so it comes last in its row.  It extends the row
of its batch, or opens a row under its own id.
-/

namespace Porthmos

namespace TransferQueue

/-- The row a new job will belong to. -/
def enqueueKind (queue : TransferQueue) (new : NewJob) : RowKind :=
  kindOf (new.toJob queue.nextId)

namespace Indexed

variable {queue : TransferQueue}

theorem fresh_nextId (indexed : queue.Indexed) : queue.jobs.get? queue.nextId = none := by
  cases found : queue.jobs.get? queue.nextId with
  | none => rfl
  | some job => exact absurd (indexed.jobs_id _ _ found).2 (lt_irrefl _)

theorem members_lt_nextId (indexed : queue.Indexed) (kind : RowKind) :
    ∀ id ∈ (members queue.jobs kind).keys, id < queue.nextId := by
  intro id member
  obtain ⟨job, found, _⟩ := mem_members_iff.mp member
  exact (indexed.jobs_id _ _ found).2

theorem leader_single_nextId (indexed : queue.Indexed) :
    leader queue.jobs (.single queue.nextId) = none := by
  rw [leader_eq_none_iff]
  intro id member
  obtain ⟨job, found, kind⟩ := mem_members_iff.mp member
  obtain ⟨sameId, before⟩ := indexed.jobs_id _ _ found
  unfold kindOf at kind
  cases batch : job.batchId with
  | some batchId => simp [batch] at kind
  | none =>
    simp only [batch, RowKind.single.injEq] at kind
    omega

theorem rows_nextId (indexed : queue.Indexed) : queue.rows.get? queue.nextId = none := by
  cases row : queue.rows.get? queue.nextId with
  | none => rfl
  | some counters =>
    obtain ⟨first, found, _⟩ := kindOf_of_leader (indexed.rows.recounted _ counters row).leads
    rw [indexed.fresh_nextId] at found
    cases found

theorem enqueueKey_eq (indexed : queue.Indexed) (new : NewJob) : queue.enqueueKey new =
      (leader queue.jobs (queue.enqueueKind new)).getD queue.nextId := by
  unfold enqueueKey enqueueKind kindOf NewJob.toJob
  cases batch : new.batchId with
  | some batchId => simp [indexed.batchRow_eq, recountBatchRow]
  | none => simp [indexed.leader_single_nextId]

theorem leader_insert_nextId (indexed : queue.Indexed) (new : NewJob) (kind : RowKind) :
    leader (queue.jobs.insert queue.nextId (new.toJob queue.nextId)) kind =
      if kind = queue.enqueueKind new then some (queue.enqueueKey new)
      else leader queue.jobs kind := by
  split_ifs with same
  · subst same
    rw [leader, enqueueKind, members_insert_of_eq rfl,
      OrderedMap.keys_insert_of_lt _ _ (indexed.members_lt_nextId _), indexed.enqueueKey_eq,
      List.head?_append, leader, enqueueKind]
    cases (members queue.jobs (kindOf (new.toJob queue.nextId))).keys.head? <;> rfl
  · rw [leader, leader, members_insert_of_ne indexed.fresh_nextId]
    exact fun equal => same equal.symm

end Indexed

/-- Everything `enqueue` does to the queue. -/
structure Entered (queue result : TransferQueue) (new : NewJob) : Prop where
  indexed : result.Indexed
  jobs_eq : result.jobs = queue.jobs.insert queue.nextId (new.toJob queue.nextId)
  nextId_eq : result.nextId = queue.nextId + 1
  nextBatchId_eq : result.nextBatchId = queue.nextBatchId
  batchLabels_eq : result.batchLabels = queue.batchLabels
  label_eq : ∀ key, (result.rows.get? key).map RowCounters.label =
    if key = queue.enqueueKey new then
      some (((queue.rows.get? key).map RowCounters.label).getD (queue.enqueueLabel new))
    else (queue.rows.get? key).map RowCounters.label
  changes_eq : result.changes = queue.changes ++
    if (leader queue.jobs (queue.enqueueKind new)).isSome ∧
        rowDone queue.jobs (queue.enqueueKind new) then
      [.reopened (queue.enqueueKind new)]
    else []

namespace Indexed

variable {queue : TransferQueue}

/-- The row `enqueue` prepares counts every job of the row but the new one. -/
theorem counts_enqueueRow (indexed : queue.Indexed) (new : NewJob) :
    (queue.enqueueRow new).kind = queue.enqueueKind new ∧
      Counts queue.jobs (queue.enqueueKind new) (queue.enqueueRow new) ∧
      (queue.enqueueRow new).order =
        (members queue.jobs (queue.enqueueKind new)).keys ++ [queue.nextId] ∧
      (queue.enqueueRow new).bytesTotal =
        byteSum queue.jobs (queue.enqueueKind new) TransferJob.totalBytes + new.totalBytes ∧
      ∀ first, (queue.enterJob new).jobs.get? (queue.enqueueKey new) = some first →
        (queue.enqueueRow new).direction = first.direction := by
  unfold enqueueRow enterJob
  cases leads : leader queue.jobs (queue.enqueueKind new) with
  | some key =>
    have sameKey : queue.enqueueKey new = key := by rw [indexed.enqueueKey_eq, leads]; rfl
    obtain ⟨counters, row⟩ := indexed.rows.present _ _ leads
    have matched := indexed.rows.recounted key counters row
    have kind := matched.kind_eq leads
    obtain ⟨_, counts, order, bytesTotal, direction⟩ := matched
    have notNew : key ≠ queue.nextId :=
      (indexed.members_lt_nextId _ _ (leader_mem leads)).ne
    rw [kind] at counts order bytesTotal
    obtain ⟨queued, running, completed, failed, cancelled, bytes⟩ := counts
    simp only [sameKey, row, Option.getD_some]
    refine ⟨kind, ⟨queued, running, completed, failed, cancelled, bytes⟩, by rw [order],
      by rw [bytesTotal], fun first found => direction first ?_⟩
    rwa [OrderedMap.get?_insert, if_neg notNew] at found
  | none =>
    have sameKey : queue.enqueueKey new = queue.nextId := by rw [indexed.enqueueKey_eq, leads]; rfl
    have empty : ∀ id job, queue.jobs.get? id = some job → kindOf job ≠ queue.enqueueKind new := by
      intro id job found inRow
      exact leader_eq_none_iff.mp leads id (mem_members_iff.mpr ⟨job, found, inRow⟩)
    have noStatus (test : JobStatus → Bool) :
        statusCount queue.jobs (queue.enqueueKind new) test = 0 :=
      OrderedMap.total_eq_zero fun id job found => by simp [empty id job found]
    have noBytes (bytes : TransferJob → Nat) :
        byteSum queue.jobs (queue.enqueueKind new) bytes = 0 :=
      OrderedMap.total_eq_zero fun id job found => by simp [empty id job found]
    have noMembers : (members queue.jobs (queue.enqueueKind new)).keys = [] :=
      List.head?_eq_none_iff.mp leads
    simp only [sameKey, indexed.rows_nextId, Option.getD_none, RowCounters.new, noMembers, noBytes]
    refine ⟨rfl, ?_, ?_, ?_, ?_⟩
    · constructor <;> simp [noStatus, noBytes]
    · simp
    · simp
    · intro first found
      rw [OrderedMap.get?_insert, if_pos rfl, Option.some.injEq] at found
      rw [← found]
      rfl

theorem jobs_id_enterJob (indexed : queue.Indexed) (new : NewJob) :
    ∀ id job, (queue.enterJob new).jobs.get? id = some job →
      job.id = id ∧ id < (queue.enterJob new).nextId := by
  intro id job found
  simp only [enterJob, OrderedMap.get?_insert] at found ⊢
  split_ifs at found with same
  · cases found
    exact ⟨same.symm, by omega⟩
  · obtain ⟨sameId, before⟩ := indexed.jobs_id _ _ found
    exact ⟨sameId, by omega⟩

theorem rowOf_enterJob (indexed : queue.Indexed) (new : NewJob) :
    (queue.enterJob new).rowOf = recountRowOf (queue.enterJob new).jobs := by
  funext id
  simp only [enterJob, recountRowOf, OrderedMap.get?_insert]
  by_cases same : id = queue.nextId
  · subst same
    simp only [Function.update_self, if_true, Option.bind_some, indexed.leader_insert_nextId]
    rw [if_pos]
    rfl
  · rw [Function.update_of_ne same, if_neg same, indexed.rowOf_eq, recountRowOf]
    cases found : queue.jobs.get? id with
    | none => rfl
    | some job =>
      simp only [Option.bind_some, indexed.leader_insert_nextId]
      split_ifs with inRow
      · obtain ⟨key, _, _, _, leads, _⟩ := indexed.row_of_job found
        rw [indexed.enqueueKey_eq, ← inRow, leads]
        rfl
      · rfl

theorem batchRow_enterJob (indexed : queue.Indexed) (new : NewJob) :
    (queue.enterJob new).batchRow = recountBatchRow (queue.enterJob new).jobs := by
  funext batch
  have kind : RowKind.batch batch = queue.enqueueKind new ↔ new.batchId = some batch := by
    unfold enqueueKind kindOf NewJob.toJob
    cases new.batchId <;> simp [eq_comm]
  rw [recountBatchRow, enterJob, indexed.leader_insert_nextId]
  simp only [kind]
  cases entered : new.batchId with
  | none => simp [indexed.batchRow_eq, recountBatchRow]
  | some batchId =>
    by_cases same : batch = batchId
    · simp [same]
    · simp [same, Ne.symm same, indexed.batchRow_eq, recountBatchRow]

/-- The rows after a new job was entered and accounted for. -/
theorem rows_enterJob (indexed : queue.Indexed) (new : NewJob) : RowsIndexed
      ((queue.enterJob new).rows.modify (queue.enqueueKey new) fun counters =>
        accountRow counters (Shape.of (new.toJob queue.nextId)) true)
      (queue.enterJob new).jobs := by
  obtain ⟨kind, counts, order, bytesTotal, direction⟩ := indexed.counts_enqueueRow new
  have fresh := indexed.fresh_nextId
  constructor
  · intro rowKind key leads
    rw [enterJob, indexed.leader_insert_nextId] at leads
    by_cases sameKey : key = queue.enqueueKey new
    · subst sameKey
      simp [enterJob]
    · split_ifs at leads with same
      · exact absurd (Option.some.inj leads).symm sameKey
      · obtain ⟨counters, row⟩ := indexed.rows.present rowKind key leads
        exact ⟨counters, by simp [enterJob, sameKey, row]⟩
  · intro key counters row
    simp only [enterJob] at row ⊢
    by_cases sameKey : key = queue.enqueueKey new
    · subst sameKey
      simp only [OrderedMap.get?_modify, OrderedMap.get?_insert, if_true, Option.map_some,
        Option.some.injEq] at row
      subst row
      have inRow : kindOf (new.toJob queue.nextId) = queue.enqueueKind new := rfl
      constructor
      · simp [kind, indexed.leader_insert_nextId]
      · have counted := counts.insert fresh inRow
        simpa [kind] using counted
      · simp only [accountRow_fields, kind, order]
        rw [members_insert_of_eq inRow,
          OrderedMap.keys_insert_of_lt _ _ (indexed.members_lt_nextId _)]
      · simp only [accountRow_fields, kind, bytesTotal]
        rw [byteSum_insert fresh, if_pos inRow]
        rfl
      · intro first found
        simp only [accountRow_fields]
        exact direction first found
    · simp only [OrderedMap.get?_modify, OrderedMap.get?_insert, if_neg sameKey] at row
      have matched := indexed.rows.recounted key counters row
      refine matched.insert_of_ne fresh ?_
      intro sameKind
      have leads := matched.leads
      rw [← sameKind] at leads
      exact sameKey (by rw [indexed.enqueueKey_eq, enqueueKind, leads]; rfl)

theorem account_enterJob (indexed : queue.Indexed) (new : NewJob) :
    ((queue.enterJob new).account queue.nextId (Shape.of (new.toJob queue.nextId)) true).Indexed := by
  have inRow : (queue.enterJob new).rowOf queue.nextId = some (queue.enqueueKey new) := by
    simp [enterJob]
  have before : (queue.enterJob new).SetsIndexed queue.jobs :=
    ⟨indexed.sets.running_eq, indexed.sets.queued_eq, indexed.sets.queuedBySession_eq,
      indexed.sets.pending_eq⟩
  constructor
  · simpa using indexed.jobs_id_enterJob new
  · rw [account_jobs]
    exact before.account_insert indexed.fresh_nextId inRow
  · simpa using indexed.rowOf_enterJob new
  · simpa using indexed.batchRow_enterJob new
  · rw [account_rows _ _ _ _ inRow, account_jobs]
    exact indexed.rows_enterJob new

theorem rowFinished_enqueueKey (indexed : queue.Indexed) (new : NewJob) :
    queue.rowFinished (queue.enqueueKey new) =
      ((leader queue.jobs (queue.enqueueKind new)).isSome &&
        rowDone queue.jobs (queue.enqueueKind new)) := by
  unfold rowFinished
  cases leads : leader queue.jobs (queue.enqueueKind new) with
  | none =>
    have sameKey : queue.enqueueKey new = queue.nextId := by rw [indexed.enqueueKey_eq, leads]; rfl
    simp [sameKey, indexed.rows_nextId]
  | some key =>
    have sameKey : queue.enqueueKey new = key := by rw [indexed.enqueueKey_eq, leads]; rfl
    obtain ⟨counters, row⟩ := indexed.rows.present _ _ leads
    have matched := indexed.rows.recounted key counters row
    simp [sameKey, row, matched.finished_eq, matched.kind_eq leads]

theorem rowFinished_account_enterJob (indexed : queue.Indexed) (new : NewJob) :
    ((queue.enterJob new).account queue.nextId (Shape.of (new.toJob queue.nextId))
      true).rowFinished (queue.enqueueKey new) = false := by
  have reindexed := indexed.account_enterJob new
  have leads : leader (queue.enterJob new).jobs (queue.enqueueKind new) =
      some (queue.enqueueKey new) := by
    rw [enterJob, indexed.leader_insert_nextId, if_pos rfl]
  rw [← account_jobs (queue.enterJob new)] at leads
  obtain ⟨counters, row⟩ := reindexed.rows.present _ _ leads
  have matched := reindexed.rows.recounted _ counters row
  have waiting : statusCount (queue.enterJob new).jobs (queue.enqueueKind new) isQueuedStatus =
      statusCount queue.jobs (queue.enqueueKind new) isQueuedStatus + 1 := by
    rw [enterJob, statusCount_insert indexed.fresh_nextId, if_pos ⟨rfl, rfl⟩]
  rw [rowFinished, row, Option.any_some, matched.finished_eq, matched.kind_eq leads, rowDone,
    account_jobs, waiting]
  simp

/-- The specification of `enqueue`. -/
theorem enqueue (indexed : queue.Indexed) (new : NewJob) :
    Entered queue (queue.enqueue new).1 new := by
  have reindexed := indexed.account_enterJob new
  have inRow : (queue.enterJob new).rowOf queue.nextId = some (queue.enqueueKey new) := by
    simp [enterJob]
  have result : (queue.enqueue new).1 =
      { (queue.enterJob new).account queue.nextId (Shape.of (new.toJob queue.nextId)) true with
        changes := queue.changes ++
          if (leader queue.jobs (queue.enqueueKind new)).isSome ∧
              rowDone queue.jobs (queue.enqueueKind new) then
            [.reopened (queue.enqueueKind new)]
          else [] } := by
    have sameChanges : ((queue.enterJob new).account queue.nextId
        (Shape.of (new.toJob queue.nextId)) true).changes = queue.changes := by
      simp [enterJob]
    unfold TransferQueue.enqueue
    simp only [indexed.rowFinished_enqueueKey, indexed.rowFinished_account_enterJob,
      Bool.and_eq_true, Bool.false_eq_true, not_false_iff, and_true]
    split_ifs
    · simp only [pushChange, ← sameChanges, enqueueKind]
    · simp only [List.append_nil, ← sameChanges]
  rw [result]
  refine ⟨reindexed.of_fields rfl rfl rfl rfl rfl rfl rfl rfl rfl, ?_, ?_, ?_, ?_, ?_, rfl⟩
  · simp [enterJob]
  · simp [enterJob]
  · simp [enterJob]
  · simp [enterJob]
  · intro key
    simp only [account_rows _ _ _ _ inRow]
    by_cases sameKey : key = queue.enqueueKey new
    · subst sameKey
      simp only [OrderedMap.get?_modify, if_true, enterJob, OrderedMap.get?_insert, Option.map_some,
        accountRow_fields, enqueueRow]
      cases queue.rows.get? (queue.enqueueKey new) <;> rfl
    · simp [sameKey, enterJob]

end Indexed

theorem enqueue_id (queue : TransferQueue) (new : NewJob) : (queue.enqueue new).2 = queue.nextId := by
  unfold enqueue
  dsimp only
  split_ifs <;> rfl

end TransferQueue

end Porthmos
