import Mathlib.Data.List.Induction
import Porthmos.QueueRuns

/-!
# The queue against a plain recount

A queue without indexes would group its jobs into rows by walking them in the
order of their ids, and count each group anew.  Every answer of a reachable queue
is the answer of that queue.
-/

namespace Porthmos

namespace TransferQueue

/-- The jobs of one row: the first and the others, in the order of their ids. -/
abbrev JobGroup := TransferJob × List TransferJob

def JobGroup.jobs (group : JobGroup) : List TransferJob := group.1 :: group.2

/-- Enter one job into the groups: into that of its batch if there is one, else
into a group of its own. -/
def groupJob (groups : List JobGroup) (job : TransferJob) : List JobGroup :=
  match job.batchId with
  | none => groups ++ [(job, [])]
  | some batch =>
    if groups.any fun group => decide (group.1.batchId = some batch) then
      groups.map fun group =>
        if group.1.batchId = some batch then (group.1, group.2 ++ [job]) else group
    else groups ++ [(job, [])]

def groupJobs (jobs : List TransferJob) : List JobGroup := jobs.foldl groupJob []

/-- The row a group of jobs is shown as. -/
def referenceRow (labels : Nat → Option String) (group : JobGroup) : QueueRow :=
  let first := group.1
  let jobs := group.jobs
  let completed := jobs.countP fun job => isCompletedStatus job.status
  let failed := jobs.countP fun job => isFailedStatus job.status
  { kind := kindOf first
    label := expectedLabel labels first
    direction := first.direction
    filesDone := completed
    filesTotal := jobs.length
    bytesDone := (jobs.map TransferJob.transferredBytes).sum
    bytesTotal := (jobs.map TransferJob.totalBytes).sum
    state :=
      if jobs.any fun job => isRunningStatus job.status then .running
      else if jobs.any fun job => isQueuedStatus job.status then .queued
      else if completed = jobs.length then .done
      else if failed = 0 then .cancelled
      else if 0 < completed then .partlyFailed failed
      else .failed }

/-- The rows of a queue without indexes. -/
def referenceRows (jobs : Jobs) (labels : Nat → Option String) : List QueueRow :=
  (groupJobs jobs.values).map (referenceRow labels)

/-- The progress of a batch, counted over all jobs. -/
def referenceProgress (jobs : Jobs) (batch : Nat) : BatchProgress :=
  let inBatch := jobs.values.filter fun job => decide (job.batchId = some batch)
  { totalFiles := inBatch.length
    completedFiles := inBatch.countP fun job => isCompletedStatus job.status
    totalBytes := (inBatch.map TransferJob.totalBytes).sum
    transferredBytes := (inBatch.map TransferJob.transferredBytes).sum }

/-- Whether some job of a session and direction is waiting or running. -/
def referenceHasPending (jobs : Jobs) (session : Nat) (direction : Direction) : Bool :=
  jobs.values.any fun job =>
    job.status.isPending && decide (job.sessionId = session) && decide (job.direction = direction)

/-! ### Counting over the jobs of a row -/

/-- The jobs of one row, in the order of their ids. -/
def jobsIn (jobs : List TransferJob) (kind : RowKind) : List TransferJob :=
  jobs.filter fun job => decide (kindOf job = kind)

theorem statusCount_eq_countP (jobs : Jobs) (kind : RowKind) (test : JobStatus → Bool) :
    statusCount jobs kind test = (jobsIn jobs.values kind).countP fun job => test job.status := by
  rw [statusCount, OrderedMap.total_eq_sum_values jobs fun job =>
    if kindOf job = kind ∧ test job.status then 1 else 0, jobsIn]
  induction jobs.values with
  | nil => rfl
  | cons job rest ih =>
    rw [List.map_cons, List.sum_cons, ih]
    by_cases inRow : kindOf job = kind
    · rw [List.filter_cons_of_pos (by simpa using inRow), List.countP_cons]
      cases test job.status <;> simp [inRow, Nat.add_comm]
    · rw [List.filter_cons_of_neg (by simpa using inRow)]
      simp [inRow]

theorem byteSum_eq_sum (jobs : Jobs) (kind : RowKind) (bytes : TransferJob → Nat) :
    byteSum jobs kind bytes = ((jobsIn jobs.values kind).map bytes).sum := by
  rw [byteSum, OrderedMap.total_eq_sum_values jobs fun job =>
    if kindOf job = kind then bytes job else 0, jobsIn]
  induction jobs.values with
  | nil => rfl
  | cons job rest ih =>
    rw [List.map_cons, List.sum_cons, ih]
    by_cases inRow : kindOf job = kind
    · rw [List.filter_cons_of_pos (by simpa using inRow)]
      simp [inRow]
    · rw [List.filter_cons_of_neg (by simpa using inRow)]
      simp [inRow]

theorem total_recountCounters (jobs : Jobs) (kind : RowKind) (direction : Direction)
    (label : String) :
    (recountCounters jobs kind direction label).total = (jobsIn jobs.values kind).length := by
  simp only [RowCounters.total, recountCounters, statusCount_eq_countP]
  induction jobsIn jobs.values kind with
  | nil => rfl
  | cons job rest ih =>
    simp only [List.countP_cons, List.length_cons, ← ih]
    cases job.status <;>
      simp only [isQueuedStatus, isRunningStatus, isCompletedStatus, isFailedStatus,
        isCancelledStatus, decide_true, decide_false, reduceCtorEq, if_true, if_false,
        Bool.false_eq_true] <;>
      omega

theorem any_eq_countP_pos {entry : Type*} (test : entry → Bool) (entries : List entry) :
    entries.any test = decide (0 < entries.countP test) := by
  rw [Bool.eq_iff_iff, List.any_eq_true, decide_eq_true_iff, List.countP_pos_iff]

theorem toRow_recountCounters {jobs : Jobs} {labels : Nat → Option String} {group : JobGroup}
    (complete : group.jobs = jobsIn jobs.values (kindOf group.1)) :
    (recountCounters jobs (kindOf group.1) group.1.direction (expectedLabel labels group.1)).toRow =
      referenceRow labels group := by
  have total := total_recountCounters jobs (kindOf group.1) group.1.direction
    (expectedLabel labels group.1)
  unfold RowCounters.toRow RowCounters.state referenceRow
  simp only [total, any_eq_countP_pos, decide_eq_true_eq, complete]
  simp only [recountCounters, statusCount_eq_countP, byteSum_eq_sum]

/-! ### Groups and first jobs -/

/-- Whether a job is the first of its row. -/
def isFirst (jobs : List TransferJob) (job : TransferJob) : Bool :=
  decide ((jobsIn jobs (kindOf job)).head? = some job)

/-- The group a first job stands for. -/
def groupOf (jobs : List TransferJob) (first : TransferJob) : JobGroup :=
  (first, (jobsIn jobs (kindOf first)).tail)

theorem jobsIn_append_singleton (jobs : List TransferJob) (job : TransferJob) (kind : RowKind) :
    jobsIn (jobs ++ [job]) kind =
      if kindOf job = kind then jobsIn jobs kind ++ [job] else jobsIn jobs kind := by
  unfold jobsIn
  rw [List.filter_append]
  split_ifs with inRow
  · rw [List.filter_cons_of_pos (by simpa using inRow)]
    rfl
  · rw [List.filter_cons_of_neg (by simpa using inRow)]
    simp

theorem mem_jobsIn {jobs : List TransferJob} {job : TransferJob} {kind : RowKind} :
    job ∈ jobsIn jobs kind ↔ job ∈ jobs ∧ kindOf job = kind := by
  simp [jobsIn]

theorem isFirst_append_of_mem {jobs : List TransferJob} {job other : TransferJob}
    (member : other ∈ jobs) : isFirst (jobs ++ [job]) other = isFirst jobs other := by
  have present : other ∈ jobsIn jobs (kindOf other) := mem_jobsIn.mpr ⟨member, rfl⟩
  unfold isFirst
  rw [jobsIn_append_singleton]
  split_ifs
  · rw [List.head?_append_of_ne_nil _ (List.ne_nil_of_mem present)]
  · rfl

/-- Walking the jobs forms one group for each first job, with all jobs of its
row. -/
theorem groupJobs_eq (jobs : List TransferJob) (distinct : (jobs.map TransferJob.id).Nodup) :
    groupJobs jobs = (jobs.filter (isFirst jobs)).map (groupOf jobs) := by
  induction jobs using List.reverseRecOn with
  | nil => rfl
  | append_singleton jobs job ih =>
    rw [List.map_append, List.nodup_append] at distinct
    obtain ⟨earlier, _, apart⟩ := distinct
    have otherId {other : TransferJob} (member : other ∈ jobs) : other.id ≠ job.id := fun same =>
      apart other.id (List.mem_map_of_mem member) job.id (by simp) same
    have fresh : job ∉ jobs := fun member => otherId member rfl
    have firsts : (jobs ++ [job]).filter (isFirst (jobs ++ [job])) =
        jobs.filter (isFirst jobs) ++ if jobsIn jobs (kindOf job) = [] then [job] else [] := by
      rw [List.filter_append]
      congr 1
      · exact List.filter_congr fun other member => isFirst_append_of_mem member
      · unfold isFirst
        rw [List.filter_singleton, jobsIn_append_singleton, if_pos rfl]
        cases inRow : jobsIn jobs (kindOf job) with
        | nil => simp
        | cons first others =>
          have notFirst : first ≠ job := by
            rintro rfl
            exact fresh (mem_jobsIn.mp (inRow ▸ List.mem_cons_self)).1
          simp [notFirst]
    rw [groupJobs, List.foldl_append, List.foldl_cons, List.foldl_nil, ← groupJobs, ih earlier,
      firsts, List.map_append]
    have extended {first : TransferJob} (isFirstJob : first ∈ jobs.filter (isFirst jobs)) :
        groupOf (jobs ++ [job]) first =
          if kindOf job = kindOf first then
            ((groupOf jobs first).1, (groupOf jobs first).2 ++ [job])
          else groupOf jobs first := by
      have present : jobsIn jobs (kindOf first) ≠ [] :=
        List.ne_nil_of_mem (mem_jobsIn.mpr ⟨(List.mem_filter.mp isFirstJob).1, rfl⟩)
      unfold groupOf
      rw [jobsIn_append_singleton]
      split_ifs
      · rw [List.tail_append_of_ne_nil present]
      · rfl
    have opened (ownRow : jobsIn jobs (kindOf job) = []) :
        (jobs.filter (isFirst jobs)).map (groupOf (jobs ++ [job])) ++
            [job].map (groupOf (jobs ++ [job])) =
          (jobs.filter (isFirst jobs)).map (groupOf jobs) ++ [(job, [])] := by
      congr 1
      · refine List.map_congr_left fun first isFirstJob => ?_
        rw [extended isFirstJob, if_neg]
        intro sameRow
        have member := mem_jobsIn.mpr ⟨(List.mem_filter.mp isFirstJob).1, sameRow.symm⟩
        rw [ownRow] at member
        cases member
      · rw [List.map_singleton, groupOf, jobsIn_append_singleton, if_pos rfl, ownRow]
        rfl
    unfold groupJob
    cases batchId : job.batchId with
    | none =>
      have ownRow : jobsIn jobs (kindOf job) = [] := by
        rw [List.eq_nil_iff_forall_not_mem]
        intro other member
        obtain ⟨otherMember, sameRow⟩ := mem_jobsIn.mp member
        refine otherId otherMember ?_
        unfold kindOf at sameRow
        cases otherBatch : other.batchId <;> simp_all
      rw [if_pos ownRow, opened ownRow]
    | some batch =>
      have inBatch (other : TransferJob) :
          other.batchId = some batch ↔ kindOf job = kindOf other := by
        unfold kindOf
        rw [batchId]
        cases other.batchId <;> simp [eq_comm]
      have anyFirst : ((jobs.filter (isFirst jobs)).map (groupOf jobs)).any
          (fun group => decide (group.1.batchId = some batch)) =
            decide (jobsIn jobs (kindOf job) ≠ []) := by
        rw [Bool.eq_iff_iff, List.any_eq_true, decide_eq_true_iff]
        constructor
        · rintro ⟨group, member, sameBatch⟩
          obtain ⟨first, isFirstJob, rfl⟩ := List.mem_map.mp member
          rw [decide_eq_true_iff] at sameBatch
          exact List.ne_nil_of_mem (mem_jobsIn.mpr
            ⟨(List.mem_filter.mp isFirstJob).1, ((inBatch first).mp sameBatch).symm⟩)
        · intro nonempty
          obtain ⟨first, others, row⟩ := List.exists_cons_of_ne_nil nonempty
          obtain ⟨member, sameRow⟩ := mem_jobsIn.mp (row ▸ List.mem_cons_self)
          refine ⟨groupOf jobs first, List.mem_map_of_mem (List.mem_filter.mpr ⟨member, ?_⟩),
            decide_eq_true ((inBatch first).mpr sameRow.symm)⟩
          rw [isFirst, sameRow, row]
          simp
      by_cases ownRow : jobsIn jobs (kindOf job) = []
      · have noGroup : ((jobs.filter (isFirst jobs)).map (groupOf jobs)).any
            (fun group => decide (group.1.batchId = some batch)) = false := by
          rw [anyFirst]
          simp [ownRow]
        simp only [noGroup, Bool.false_eq_true, if_false]
        rw [if_pos ownRow, opened ownRow]
      · have hasGroup : ((jobs.filter (isFirst jobs)).map (groupOf jobs)).any
            (fun group => decide (group.1.batchId = some batch)) = true := by
          rw [anyFirst]
          simp [ownRow]
        simp only [hasGroup, if_true]
        rw [if_neg ownRow, List.map_nil, List.append_nil, List.map_map]
        refine List.map_congr_left fun first isFirstJob => ?_
        rw [extended isFirstJob, Function.comp_apply]
        simp only [groupOf, inBatch first]

/-! ### The rows of an indexed queue -/

namespace Indexed

variable {queue : TransferQueue}

theorem keyed (indexed : queue.Indexed) :
    ∀ id job, queue.jobs.get? id = some job → job.id = id := fun id job found =>
  (indexed.jobs_id id job found).1

theorem keys_members (indexed : queue.Indexed) (kind : RowKind) :
    (members queue.jobs kind).keys = (jobsIn queue.jobs.values kind).map TransferJob.id :=
  OrderedMap.keys_filterMap_of_keyed indexed.keyed (fun job => kindOf job = kind) ()

theorem ids_nodup (indexed : queue.Indexed) : (queue.jobs.values.map TransferJob.id).Nodup := by
  have keys : queue.jobs.keys = queue.jobs.values.map TransferJob.id := by
    rw [OrderedMap.keys, OrderedMap.entries_eq_of_keyed indexed.keyed, List.map_map]
    rfl
  rw [← keys]
  exact queue.jobs.nodup_keys

theorem leader_eq_iff (indexed : queue.Indexed) {job : TransferJob}
    (found : queue.jobs.get? job.id = some job) :
    leader queue.jobs (kindOf job) = some job.id ↔ isFirst queue.jobs.values job = true := by
  rw [leader, indexed.keys_members, List.head?_map, isFirst, decide_eq_true_iff,
    Option.map_eq_some_iff]
  constructor
  · rintro ⟨first, head, sameId⟩
    have member := (mem_jobsIn.mp (List.mem_of_mem_head? head)).1
    obtain ⟨key, firstFound⟩ := OrderedMap.mem_values_iff.mp member
    rw [← indexed.keyed key first firstFound, sameId, found, Option.some.injEq] at firstFound
    rw [head, firstFound]
  · exact fun head => ⟨job, head, rfl⟩

/-- The row under a key is the recounted one. -/
theorem get?_rows (indexed : queue.Indexed) (labelled : queue.Labelled) (key : Nat) :
    queue.rows.get? key = recountRow queue.jobs (expectedLabel queue.batchLabels) key := by
  unfold recountRow
  cases row : queue.rows.get? key with
  | none =>
    cases found : queue.jobs.get? key with
    | none => rfl
    | some first =>
      rw [Option.bind_some, if_neg]
      intro leads
      obtain ⟨counters, present⟩ := indexed.rows.present _ _ leads
      rw [row] at present
      cases present
  | some counters =>
    have matched := indexed.rows.recounted key counters row
    obtain ⟨first, found, inRow⟩ := kindOf_of_leader matched.leads
    have direction := matched.direction first found
    have label := labelled key counters first row found
    obtain ⟨leads, ⟨queued, running, completed, failed, cancelled, bytesDone⟩, order, bytesTotal,
      _⟩ := matched
    rw [found, Option.bind_some, inRow, if_pos leads, recountCounters, ← direction, ← label,
      ← order, ← queued, ← running, ← completed, ← failed, ← cancelled, ← bytesDone,
      ← bytesTotal]

/-- The rows are shown as the groups of the jobs are. -/
theorem rowList_eq (indexed : queue.Indexed) (labelled : queue.Labelled) :
    queue.rowList = referenceRows queue.jobs queue.batchLabels := by
  have rows : queue.rows = queue.jobs.filterMap fun key first =>
      if leader queue.jobs (kindOf first) = some key then
        some (recountCounters queue.jobs (kindOf first) first.direction
          (expectedLabel queue.batchLabels first))
      else none := by
    refine OrderedMap.ext_get? fun key => ?_
    rw [indexed.get?_rows labelled, OrderedMap.get?_filterMap, recountRow]
  rw [rowList, rows, OrderedMap.values_filterMap, OrderedMap.entries_eq_of_keyed indexed.keyed,
    referenceRows, groupJobs_eq _ indexed.ids_nodup, List.filterMap_map, List.map_filterMap,
    List.map_map, ← List.filterMap_eq_map, List.filterMap_filter]
  refine List.filterMap_congr fun first member => ?_
  obtain ⟨key, found⟩ := OrderedMap.mem_values_iff.mp member
  rw [← indexed.keyed key first found] at found
  have leads := indexed.leader_eq_iff found
  simp only [Function.comp_apply]
  cases isFirstJob : isFirst queue.jobs.values first with
  | false =>
    rw [isFirstJob] at leads
    simp [leads]
  | true =>
    rw [isFirstJob, eq_self_iff_true, iff_true] at leads
    rw [if_pos leads, if_pos rfl, Option.map_some, Option.some.injEq]
    have complete : (groupOf queue.jobs.values first).jobs =
        jobsIn queue.jobs.values (kindOf first) := by
      rw [isFirst, decide_eq_true_iff] at isFirstJob
      exact List.cons_head?_tail isFirstJob
    exact toRow_recountCounters complete

theorem batchProgress_eq (indexed : queue.Indexed) (batch : Nat) :
    queue.batchProgress batch = referenceProgress queue.jobs batch := by
  have inBatch : (queue.jobs.values.filter fun job => decide (job.batchId = some batch)) =
      jobsIn queue.jobs.values (.batch batch) := by
    refine List.filter_congr fun job _ => ?_
    unfold kindOf
    cases job.batchId <;> simp
  have batchRow : queue.batchRow batch = leader queue.jobs (.batch batch) := by
    rw [indexed.batchRow_eq]
    rfl
  unfold batchProgress referenceProgress
  simp only [inBatch, batchRow]
  cases leads : leader queue.jobs (.batch batch) with
  | none =>
    have empty : jobsIn queue.jobs.values (.batch batch) = [] := by
      rw [leader, List.head?_eq_none_iff, indexed.keys_members, List.map_eq_nil_iff] at leads
      exact leads
    simp [empty]
  | some key =>
    obtain ⟨counters, row, sameKind, matched⟩ := indexed.row_of_leader leads
    obtain ⟨_, ⟨queued, running, completed, failed, cancelled, bytesDone⟩, _, bytesTotal, _⟩ :=
      matched
    rw [sameKind] at queued running completed failed cancelled bytesDone bytesTotal
    have total : counters.total = (jobsIn queue.jobs.values (.batch batch)).length := by
      rw [← total_recountCounters queue.jobs (.batch batch) counters.direction counters.label]
      simp only [RowCounters.total, recountCounters, queued, running, completed, failed, cancelled]
    simp only [Option.bind_some, row, total, bytesTotal, bytesDone, completed,
      statusCount_eq_countP, byteSum_eq_sum]

theorem hasPending_eq (indexed : queue.Indexed) (session : Nat) (direction : Direction) :
    queue.hasPending session direction = referenceHasPending queue.jobs session direction := by
  have positive : queue.hasPending session direction =
      decide (0 < pendingCount queue.jobs (session, direction)) := by
    unfold hasPending
    rw [indexed.sets.pending_eq, recountPending]
    split_ifs with zero <;> simp [zero]
  have counted : pendingCount queue.jobs (session, direction) = queue.jobs.values.countP
      fun job => job.status.isPending && decide (job.sessionId = session) &&
        decide (job.direction = direction) := by
    rw [pendingCount, OrderedMap.total_eq_sum_values queue.jobs fun job =>
      if job.status.isPending ∧ (job.sessionId, job.direction) = (session, direction) then 1 else 0]
    induction queue.jobs.values with
    | nil => rfl
    | cons job rest ih =>
      rw [List.map_cons, List.sum_cons, List.countP_cons, ih]
      simp [Nat.add_comm, and_assoc]
  rw [positive, counted, referenceHasPending, any_eq_countP_pos]

end Indexed

/-- Every index and every answer of the queue is what the jobs alone give. -/
structure Recounted (queue : TransferQueue) : Prop where
  running_eq : queue.running = recountStatus queue.jobs .inProgress
  queued_eq : queue.queued = recountStatus queue.jobs .queued
  queuedBySession_eq : ∀ session,
    queue.queuedBySession.get? session = recountQueuedBySession queue.jobs session
  pending_eq : queue.pending = recountPending queue.jobs
  rowOf_eq : queue.rowOf = recountRowOf queue.jobs
  batchRow_eq : queue.batchRow = recountBatchRow queue.jobs
  rows_eq : ∀ key,
    queue.rows.get? key = recountRow queue.jobs (expectedLabel queue.batchLabels) key
  rowList_eq : queue.rowList = referenceRows queue.jobs queue.batchLabels
  batchProgress_eq : ∀ batch, queue.batchProgress batch = referenceProgress queue.jobs batch
  hasPending_eq : ∀ session direction,
    queue.hasPending session direction = referenceHasPending queue.jobs session direction

/-- Every reachable queue answers like a plain recount of its jobs. -/
theorem recounted_of_reachable {queue : TransferQueue} (reached : Reachable intoHeldBatch queue) :
    queue.Recounted := by
  have indexed := reached.indexed
  have labelled := reached.labelled
  exact
    { running_eq := indexed.sets.running_eq
      queued_eq := indexed.sets.queued_eq
      queuedBySession_eq := indexed.sets.queuedBySession_eq
      pending_eq := indexed.sets.pending_eq
      rowOf_eq := indexed.rowOf_eq
      batchRow_eq := indexed.batchRow_eq
      rows_eq := indexed.get?_rows labelled
      rowList_eq := indexed.rowList_eq labelled
      batchProgress_eq := indexed.batchProgress_eq
      hasPending_eq := indexed.hasPending_eq }

/-- The first job of a batch is removed and its row moves to the second. -/
theorem recounted_rekeyed :
    (QueueOp.apply (QueueOp.apply (QueueOp.apply (QueueOp.apply new (.startBatch "docs"))
      (.enqueue (uploadInto 0 "/a"))) (.enqueue (uploadInto 0 "/b")))
      (.removeJobs .insertion [0])).Recounted :=
  recounted_of_reachable
    (.step _ (.step _ (.step _ (.step _ .new trivial) (by rintro _ ⟨⟩; decide))
      (by rintro _ ⟨⟩; decide)) trivial)

end TransferQueue

end Porthmos
