import Porthmos.QueueRecount

/-!
# The indexes of the queue agree with its jobs

`Indexed` says that every derived index equals its recount.  Editing one job in
place moves the job out of the indexes under its old shape and back in under
its new one; entering a job extends the last row or opens a new one.
-/

namespace Porthmos

namespace TransferQueue

/-- The sets and counts that do not depend on rows. -/
structure SetsIndexed (queue : TransferQueue) (jobs : Jobs) : Prop where
  running_eq : queue.running = recountStatus jobs .inProgress
  queued_eq : queue.queued = recountStatus jobs .queued
  queuedBySession_eq : ∀ session,
    queue.queuedBySession.get? session = recountQueuedBySession jobs session
  pending_eq : queue.pending = recountPending jobs

/-- A row under its key is what recounting its jobs gives. -/
structure RowMatches (jobs : Jobs) (key : Nat) (counters : RowCounters) : Prop where
  leads : leader jobs counters.kind = some key
  counts : Counts jobs counters.kind counters
  order : counters.order = (members jobs counters.kind).keys
  bytesTotal : counters.bytesTotal = byteSum jobs counters.kind TransferJob.totalBytes
  direction : ∀ first, jobs.get? key = some first → counters.direction = first.direction

theorem RowMatches.kind_eq {jobs : Jobs} {key : Nat} {counters : RowCounters} {kind : RowKind}
    (matched : RowMatches jobs key counters) (leads : leader jobs kind = some key) :
    counters.kind = kind := by
  obtain ⟨first, found, firstKind⟩ := kindOf_of_leader leads
  obtain ⟨again, againFound, againKind⟩ := kindOf_of_leader matched.leads
  rw [found, Option.some.injEq] at againFound
  rw [← againKind, ← againFound, firstKind]

/-- A job that enters another row is not seen. -/
theorem RowMatches.insert_of_ne {jobs : Jobs} {id key : Nat} {job : TransferJob}
    {counters : RowCounters} (matched : RowMatches jobs key counters)
    (fresh : jobs.get? id = none) (otherRow : kindOf job ≠ counters.kind) :
    RowMatches (jobs.insert id job) key counters := by
  have sameMembers := members_insert_of_ne fresh otherRow
  constructor
  · rw [leader, sameMembers, ← leader, matched.leads]
  · refine matched.counts.of_ne (fun test => ?_) (fun bytes => ?_)
    · rw [statusCount_insert fresh]
      simp [otherRow]
    · rw [byteSum_insert fresh]
      simp [otherRow]
  · rw [sameMembers, matched.order]
  · rw [byteSum_insert fresh, if_neg otherRow, matched.bytesTotal, Nat.add_zero]
  · intro first found
    rw [OrderedMap.get?_insert] at found
    split_ifs at found with same
    · obtain ⟨leading, leadingFound, _⟩ := kindOf_of_leader matched.leads
      rw [same, fresh] at leadingFound
      cases leadingFound
    · exact matched.direction first found

structure RowsIndexed (rows : OrderedMap Nat RowCounters) (jobs : Jobs) : Prop where
  present : ∀ kind key, leader jobs kind = some key → ∃ counters, rows.get? key = some counters
  recounted : ∀ key counters, rows.get? key = some counters → RowMatches jobs key counters

/-- Every index of the queue equals its recount from the jobs. -/
structure Indexed (queue : TransferQueue) : Prop where
  jobs_id : ∀ id job, queue.jobs.get? id = some job → job.id = id ∧ id < queue.nextId
  sets : queue.SetsIndexed queue.jobs
  rowOf_eq : queue.rowOf = recountRowOf queue.jobs
  batchRow_eq : queue.batchRow = recountBatchRow queue.jobs
  rows : RowsIndexed queue.rows queue.jobs

/-- The label a row shows: the label of its batch while that is held, else the
name of its first job. -/
def expectedLabel (labels : Nat → Option String) (first : TransferJob) : String :=
  match first.batchId with
  | some batch => (labels batch).getD first.displayName
  | none => first.displayName

/-- Every row shows the label its first job gives it. -/
def Labelled (queue : TransferQueue) : Prop :=
  ∀ key counters first, queue.rows.get? key = some counters → queue.jobs.get? key = some first →
    counters.label = expectedLabel queue.batchLabels first

theorem indexed_new : new.Indexed where
  jobs_id := by simp [new]
  sets := by
    refine ⟨rfl, rfl, fun session => ?_, ?_⟩
    · rfl
    · rfl
  rowOf_eq := rfl
  batchRow_eq := rfl
  rows := by
    constructor
    · intro kind key leads
      exact absurd leads (by simp [leader, members, new, OrderedMap.empty, OrderedMap.filterMap,
        OrderedMap.keys])
    · simp [new]

/-! ### What accounting leaves alone -/

section Frame

variable (queue : TransferQueue) (id : Nat) (shape : Shape) (add : Bool)

@[simp]
theorem account_jobs : (queue.account id shape add).jobs = queue.jobs := by
  unfold account; cases queue.rowOf id <;> rfl

@[simp]
theorem account_nextId : (queue.account id shape add).nextId = queue.nextId := by
  unfold account; cases queue.rowOf id <;> rfl

@[simp]
theorem account_rowOf : (queue.account id shape add).rowOf = queue.rowOf := by
  unfold account; cases queue.rowOf id <;> rfl

@[simp]
theorem account_batchRow : (queue.account id shape add).batchRow = queue.batchRow := by
  unfold account; cases queue.rowOf id <;> rfl

@[simp]
theorem account_batchLabels : (queue.account id shape add).batchLabels = queue.batchLabels := by
  unfold account; cases queue.rowOf id <;> rfl

@[simp]
theorem account_nextBatchId : (queue.account id shape add).nextBatchId = queue.nextBatchId := by
  unfold account; cases queue.rowOf id <;> rfl

@[simp]
theorem account_changes : (queue.account id shape add).changes = queue.changes := by
  unfold account; cases queue.rowOf id <;> rfl

theorem account_rows {key : Nat} (inRow : queue.rowOf id = some key) :
    (queue.account id shape add).rows =
      queue.rows.modify key fun counters => accountRow counters shape add := by
  rw [account, inRow]

@[simp]
theorem setJobs_jobs (jobs : Jobs) : (queue.setJobs jobs).jobs = jobs :=
  rfl

@[simp]
theorem setJobs_fields (jobs : Jobs) : (queue.setJobs jobs).nextId = queue.nextId ∧
      (queue.setJobs jobs).nextBatchId = queue.nextBatchId ∧
      (queue.setJobs jobs).batchLabels = queue.batchLabels ∧
      (queue.setJobs jobs).rows = queue.rows ∧ (queue.setJobs jobs).rowOf = queue.rowOf ∧
      (queue.setJobs jobs).batchRow = queue.batchRow ∧
      (queue.setJobs jobs).changes = queue.changes :=
  ⟨rfl, rfl, rfl, rfl, rfl, rfl, rfl⟩

theorem account_setJobs (jobs : Jobs) :
    (queue.setJobs jobs).account id shape add = (queue.account id shape add).setJobs jobs := by
  unfold account setJobs; cases queue.rowOf id <;> rfl

variable (before after : Shape)

theorem reaccount_setJobs (jobs : Jobs) : (queue.setJobs jobs).reaccount id before after =
      (queue.reaccount id before after).setJobs jobs := by
  rw [reaccount, reaccount, account_setJobs, account_setJobs]

@[simp]
theorem reaccount_fields : (queue.reaccount id before after).nextId = queue.nextId ∧
      (queue.reaccount id before after).nextBatchId = queue.nextBatchId ∧
      (queue.reaccount id before after).batchLabels = queue.batchLabels ∧
      (queue.reaccount id before after).rowOf = queue.rowOf ∧
      (queue.reaccount id before after).batchRow = queue.batchRow ∧
      (queue.reaccount id before after).changes = queue.changes := by
  simp [reaccount]

theorem reaccount_rows {key : Nat} (inRow : queue.rowOf id = some key) :
    (queue.reaccount id before after).rows =
      (queue.rows.modify key fun counters => accountRow counters before false).modify key
        fun counters => accountRow counters after true := by
  have stillInRow : (queue.account id before false).rowOf id = some key := by simpa using inRow
  rw [reaccount, account_rows _ _ _ _ stillInRow, account_rows _ _ _ _ inRow]

end Frame

namespace SetsIndexed

variable {queue : TransferQueue} {jobs : Jobs} {id key : Nat} {job : TransferJob}

theorem account_erase (sets : queue.SetsIndexed jobs) (found : jobs.get? id = some job)
    (inRow : queue.rowOf id = some key) :
    (queue.account id (Shape.of job) false).SetsIndexed (jobs.erase id) := by
  rw [account, inRow]
  constructor
  · rw [sets.running_eq, recountStatus_erase found]
  · rw [sets.queued_eq, recountStatus_erase found]
  · exact recountQueuedBySession_erase sets.queuedBySession_eq found
  · rw [sets.pending_eq, recountPending_erase found]

theorem account_insert (sets : queue.SetsIndexed jobs) (fresh : jobs.get? id = none)
    (inRow : queue.rowOf id = some key) :
    (queue.account id (Shape.of job) true).SetsIndexed (jobs.insert id job) := by
  rw [account, inRow]
  constructor
  · rw [sets.running_eq, recountStatus_insert fresh]
  · rw [sets.queued_eq, recountStatus_insert fresh]
  · exact recountQueuedBySession_insert sets.queuedBySession_eq fresh
  · rw [sets.pending_eq, recountPending_insert fresh]

theorem insert_of_shape_eq {changed : TransferJob} (sets : queue.SetsIndexed jobs)
    (found : jobs.get? id = some job) (same : Shape.of changed = Shape.of job) :
    queue.SetsIndexed (jobs.insert id changed) := by
  simp only [Shape.of, Shape.mk.injEq] at same
  obtain ⟨status, _, session, direction⟩ := same
  have queuedIn (session : Nat) :
      recountQueuedIn (jobs.insert id changed) session = recountQueuedIn jobs session :=
    OrderedMap.filterMap_insert_of_eq found (by simp only [*])
  constructor
  · rw [sets.running_eq]
    exact (OrderedMap.filterMap_insert_of_eq found (by simp only [status])).symm
  · rw [sets.queued_eq]
    exact (OrderedMap.filterMap_insert_of_eq found (by simp only [status])).symm
  · intro session
    rw [sets.queuedBySession_eq, recountQueuedBySession, recountQueuedBySession, queuedIn]
  · have count (key : Nat × Direction) :
        pendingCount (jobs.insert id changed) key = pendingCount jobs key :=
      OrderedMap.total_insert_of_eq found (by simp only [*])
    funext key
    rw [sets.pending_eq, recountPending, recountPending, count]

end SetsIndexed

/-! ### Editing one job in place -/

/-- What an edit of a queued job leaves alone. -/
structure KeepsRow (job changed : TransferJob) : Prop where
  id : changed.id = job.id
  batchId : changed.batchId = job.batchId
  direction : changed.direction = job.direction
  totalBytes : changed.totalBytes = job.totalBytes
  displayName : changed.displayName = job.displayName

theorem KeepsRow.kindOf {job changed : TransferJob} (kept : KeepsRow job changed) :
    kindOf changed = kindOf job := by
  simp only [TransferQueue.kindOf, kept.batchId, kept.id]

section Edit

variable {jobs : Jobs} {id : Nat} {job changed : TransferJob}

theorem members_insert_of_kept (found : jobs.get? id = some job) (kept : KeepsRow job changed)
    (kind : RowKind) : members (jobs.insert id changed) kind = members jobs kind :=
  OrderedMap.filterMap_insert_of_eq found (by rw [kept.kindOf])

theorem leader_insert_of_kept (found : jobs.get? id = some job) (kept : KeepsRow job changed)
    (kind : RowKind) : leader (jobs.insert id changed) kind = leader jobs kind := by
  rw [leader, leader, members_insert_of_kept found kept]

theorem totalBytes_insert_of_kept (found : jobs.get? id = some job)
    (kept : KeepsRow job changed) (kind : RowKind) :
    byteSum (jobs.insert id changed) kind TransferJob.totalBytes =
      byteSum jobs kind TransferJob.totalBytes :=
  OrderedMap.total_insert_of_eq found (by rw [kept.kindOf, kept.totalBytes])

/-- The counts of a row do not see an edit that keeps the shape, nor any edit
in another row. -/
theorem Counts.insert_of_kept {kind : RowKind} {counters : RowCounters}
    (counts : Counts jobs kind counters) (found : jobs.get? id = some job)
    (kept : KeepsRow job changed)
    (unseen : Shape.of changed = Shape.of job ∨ TransferQueue.kindOf job ≠ kind) :
    Counts (jobs.insert id changed) kind counters := by
  have sameFacts : TransferQueue.kindOf job ≠ kind ∨
      changed.status = job.status ∧ changed.transferredBytes = job.transferredBytes := by
    rcases unseen with same | otherRow
    · simp only [Shape.of, Shape.mk.injEq] at same
      exact Or.inr ⟨same.1, same.2.1⟩
    · exact Or.inl otherRow
  have sameStatus (test : JobStatus → Bool) :
      statusCount (jobs.insert id changed) kind test = statusCount jobs kind test := by
    refine OrderedMap.total_insert_of_eq found ?_
    rw [kept.kindOf]
    rcases sameFacts with otherRow | ⟨status, _⟩
    · simp [otherRow]
    · rw [status]
  have sameBytes : byteSum (jobs.insert id changed) kind TransferJob.transferredBytes =
      byteSum jobs kind TransferJob.transferredBytes := by
    refine OrderedMap.total_insert_of_eq found ?_
    rw [kept.kindOf]
    rcases sameFacts with otherRow | ⟨_, bytes⟩
    · simp [otherRow]
    · rw [bytes]
  obtain ⟨queued, running, completed, failed, cancelled, bytes⟩ := counts
  constructor <;> simp only [sameStatus, sameBytes] <;> assumption

/-- A row keeps matching its jobs when an edit leaves its counters right. -/
theorem RowMatches.insert_of_kept {key : Nat} {counters recounted : RowCounters}
    (matched : RowMatches jobs key counters) (found : jobs.get? id = some job)
    (kept : KeepsRow job changed)
    (sameFields : recounted.kind = counters.kind ∧ recounted.direction = counters.direction ∧
      recounted.order = counters.order ∧ recounted.bytesTotal = counters.bytesTotal)
    (counts : Counts (jobs.insert id changed) counters.kind recounted) :
    RowMatches (jobs.insert id changed) key recounted := by
  obtain ⟨kind, direction, order, bytesTotal⟩ := sameFields
  constructor
  · rw [kind, leader_insert_of_kept found kept, matched.leads]
  · rw [kind]
    exact counts
  · rw [kind, order, members_insert_of_kept found kept, matched.order]
  · rw [kind, bytesTotal, totalBytes_insert_of_kept found kept, matched.bytesTotal]
  · intro first firstFound
    rw [direction]
    by_cases same : key = id
    · subst same
      rw [OrderedMap.get?_insert, if_pos rfl, Option.some.injEq] at firstFound
      subst firstFound
      rw [kept.direction, matched.direction job found]
    · rw [OrderedMap.get?_insert, if_neg same] at firstFound
      exact matched.direction first firstFound

end Edit

/-! ### Finished rows -/

/-- Whether no job of a row is waiting or running. -/
def rowDone (jobs : Jobs) (kind : RowKind) : Bool :=
  decide (statusCount jobs kind isQueuedStatus = 0 ∧ statusCount jobs kind isRunningStatus = 0)

/-- A row with a job in it counts at least that job. -/
theorem Counts.total_pos {jobs : Jobs} {kind : RowKind} {counters : RowCounters}
    {id : Nat} {job : TransferJob} (counts : Counts jobs kind counters)
    (found : jobs.get? id = some job) (inRow : kindOf job = kind) : 0 < counters.total := by
  have counted (test : JobStatus → Bool) (passes : test job.status = true) :
      0 < statusCount jobs kind test := by
    have atLeast := OrderedMap.le_total (fun _ job =>
      if kindOf job = kind ∧ test job.status then 1 else 0) found
    simp only [inRow, passes, and_self, if_true] at atLeast
    exact atLeast
  obtain ⟨queued, running, completed, failed, cancelled, _⟩ := counts
  unfold RowCounters.total
  cases status : job.status with
  | queued =>
    have := counted isQueuedStatus (by rw [status]; rfl)
    omega
  | inProgress =>
    have := counted isRunningStatus (by rw [status]; rfl)
    omega
  | completed =>
    have := counted isCompletedStatus (by rw [status]; rfl)
    omega
  | failed message =>
    have := counted isFailedStatus (by rw [status]; rfl)
    omega
  | cancelled =>
    have := counted isCancelledStatus (by rw [status]; rfl)
    omega

theorem Counts.finished_eq {jobs : Jobs} {kind : RowKind} {counters : RowCounters}
    {id : Nat} {job : TransferJob} (counts : Counts jobs kind counters)
    (found : jobs.get? id = some job) (inRow : kindOf job = kind) :
    counters.finished = rowDone jobs kind := by
  have jobsInRow := counts.total_pos found inRow
  unfold RowCounters.finished rowDone
  rw [counts.queued, counts.running]
  simp [jobsInRow]

theorem RowMatches.finished_eq {jobs : Jobs} {key : Nat} {counters : RowCounters}
    (matched : RowMatches jobs key counters) :
    counters.finished = rowDone jobs counters.kind := by
  obtain ⟨first, found, kind⟩ := kindOf_of_leader matched.leads
  exact matched.counts.finished_eq found kind

/-- The change that is pushed when a row goes from one finished state to
another. -/
def flipChanges (kind : RowKind) (before after : Bool) : List RowChange :=
  match before, after with
  | false, true => [.finished kind]
  | true, false => [.reopened kind]
  | _, _ => []

@[simp]
theorem flipChanges_self (kind : RowKind) (state : Bool) : flipChanges kind state state = [] := by
  cases state <;> rfl

/-- Everything `update` and a guard do to the queue. -/
structure Updated (queue result : TransferQueue) (id : Nat) (job changed : TransferJob) :
    Prop where
  indexed : result.Indexed
  jobs_eq : result.jobs = queue.jobs.insert id changed
  nextId_eq : result.nextId = queue.nextId
  nextBatchId_eq : result.nextBatchId = queue.nextBatchId
  batchLabels_eq : result.batchLabels = queue.batchLabels
  label_eq : ∀ key,
    (result.rows.get? key).map RowCounters.label = (queue.rows.get? key).map RowCounters.label
  changes_eq : result.changes = queue.changes ++
    flipChanges (kindOf job) (rowDone queue.jobs (kindOf job)) (rowDone result.jobs (kindOf job))

namespace Indexed

variable {queue : TransferQueue} {id : Nat} {job : TransferJob}

theorem row_of_job (indexed : queue.Indexed) (found : queue.jobs.get? id = some job) :
    ∃ key counters, queue.rowOf id = some key ∧ queue.rows.get? key = some counters ∧
      leader queue.jobs (kindOf job) = some key ∧ counters.kind = kindOf job := by
  have member : id ∈ (members queue.jobs (kindOf job)).keys :=
    mem_members_iff.mpr ⟨job, found, rfl⟩
  obtain ⟨key, leads⟩ : ∃ key, leader queue.jobs (kindOf job) = some key := by
    cases none : leader queue.jobs (kindOf job) with
    | none => exact absurd member (leader_eq_none_iff.mp none id)
    | some key => exact ⟨key, rfl⟩
  obtain ⟨counters, row⟩ := indexed.rows.present _ _ leads
  refine ⟨key, counters, ?_, row, leads, (indexed.rows.recounted key counters row).kind_eq leads⟩
  rw [indexed.rowOf_eq, recountRowOf, found]
  exact leads

theorem kind_ne_of_key_ne (indexed : queue.Indexed) {key other : Nat} {kind : RowKind}
    {counters : RowCounters} (leads : leader queue.jobs kind = some key)
    (row : queue.rows.get? other = some counters) (different : other ≠ key) :
    kind ≠ counters.kind := by
  rintro rfl
  have otherLeads := (indexed.rows.recounted other counters row).leads
  rw [leads, Option.some.injEq] at otherLeads
  exact different otherLeads.symm

/-- Reaccounting one row while one of its jobs changes in place. -/
theorem rows_insert_of_kept (indexed : queue.Indexed) {changed : TransferJob} {key : Nat}
    (found : queue.jobs.get? id = some job) (kept : KeepsRow job changed)
    (leads : leader queue.jobs (kindOf job) = some key) :
    RowsIndexed ((queue.rows.modify key fun counters =>
          accountRow counters (Shape.of job) false).modify key fun counters =>
        accountRow counters (Shape.of changed) true)
      (queue.jobs.insert id changed) := by
  constructor
  · intro kind other otherLeads
    rw [leader_insert_of_kept found kept] at otherLeads
    obtain ⟨counters, row⟩ := indexed.rows.present kind other otherLeads
    by_cases same : other = key
    · subst same
      simp [row]
    · exact ⟨counters, by simp [same, row]⟩
  · intro other counters row
    by_cases same : other = key
    · subst same
      simp only [OrderedMap.get?_modify, if_true, Option.map_map] at row
      obtain ⟨before, beforeRow, rfl⟩ := Option.map_eq_some_iff.mp row
      have matched := indexed.rows.recounted other before beforeRow
      have inRow : kindOf job = before.kind := (matched.kind_eq leads).symm
      have counts : Counts ((queue.jobs.erase id).insert id changed) before.kind
          (accountRow (accountRow before (Shape.of job) false) (Shape.of changed) true) :=
        (matched.counts.erase found inRow).insert (by simp) (by rw [kept.kindOf, inRow])
      rw [OrderedMap.insert_erase] at counts
      exact matched.insert_of_kept found kept (by simp) counts
    · simp only [OrderedMap.get?_modify, if_neg same] at row
      have matched := indexed.rows.recounted other counters row
      refine matched.insert_of_kept found kept (by simp) ?_
      exact matched.counts.insert_of_kept found kept
        (Or.inr (indexed.kind_ne_of_key_ne leads row same))

theorem jobs_id_insert (indexed : queue.Indexed) {changed : TransferJob}
    (found : queue.jobs.get? id = some job) (kept : KeepsRow job changed) :
    ∀ other entry, (queue.jobs.insert id changed).get? other = some entry →
      entry.id = other ∧ other < queue.nextId := by
  intro other entry entryFound
  rw [OrderedMap.get?_insert] at entryFound
  split_ifs at entryFound with same
  · cases entryFound
    subst same
    exact ⟨kept.id.trans (indexed.jobs_id _ _ found).1, (indexed.jobs_id _ _ found).2⟩
  · exact indexed.jobs_id _ _ entryFound

theorem rowOf_insert (indexed : queue.Indexed) {changed : TransferJob}
    (found : queue.jobs.get? id = some job) (kept : KeepsRow job changed) :
    queue.rowOf = recountRowOf (queue.jobs.insert id changed) := by
  rw [indexed.rowOf_eq]
  funext other
  rw [recountRowOf, recountRowOf, OrderedMap.get?_insert]
  split_ifs with same
  · subst same
    simp [found, kept.kindOf, leader_insert_of_kept found kept]
  · simp only [leader_insert_of_kept found kept]

theorem batchRow_insert (indexed : queue.Indexed) {changed : TransferJob}
    (found : queue.jobs.get? id = some job) (kept : KeepsRow job changed) :
    queue.batchRow = recountBatchRow (queue.jobs.insert id changed) := by
  rw [indexed.batchRow_eq]
  funext batch
  rw [recountBatchRow, recountBatchRow, leader_insert_of_kept found kept]

theorem reaccount (indexed : queue.Indexed) {changed : TransferJob} {key : Nat}
    (found : queue.jobs.get? id = some job) (kept : KeepsRow job changed)
    (inRow : queue.rowOf id = some key) (leads : leader queue.jobs (kindOf job) = some key) :
    ((queue.setJobs (queue.jobs.insert id changed)).reaccount id (Shape.of job)
      (Shape.of changed)).Indexed := by
  have setsOut := indexed.sets.account_erase found inRow
  have setsBack : ((queue.account id (Shape.of job) false).account id (Shape.of changed)
      true).SetsIndexed ((queue.jobs.erase id).insert id changed) :=
    setsOut.account_insert (by simp) (by rwa [account_rowOf])
  rw [OrderedMap.insert_erase] at setsBack
  rw [reaccount_setJobs]
  constructor
  · simpa [setJobs] using indexed.jobs_id_insert found kept
  · exact ⟨setsBack.running_eq, setsBack.queued_eq, setsBack.queuedBySession_eq,
      setsBack.pending_eq⟩
  · simpa [setJobs] using indexed.rowOf_insert found kept
  · simpa [setJobs] using indexed.batchRow_insert found kept
  · have rows := indexed.rows_insert_of_kept found kept leads
    rw [← reaccount_rows _ _ _ _ inRow] at rows
    exact rows

end Indexed

theorem reconcile_of_ne {queue : TransferQueue} {id key : Nat} {job : TransferJob}
    {before : Shape} {counters : RowCounters} (found : queue.jobs.get? id = some job)
    (changed : Shape.of job ≠ before) (inRow : queue.rowOf id = some key)
    (row : (queue.reaccount id before (Shape.of job)).rows.get? key = some counters) :
    queue.reconcile id before = { queue.reaccount id before (Shape.of job) with
        changes := queue.changes ++
          flipChanges counters.kind (queue.rowFinished key) counters.finished } := by
  have sameChanges : (queue.reaccount id before (Shape.of job)).changes = queue.changes := by
    simp [reaccount]
  unfold reconcile
  simp only [found, if_neg changed, inRow, row]
  cases queue.rowFinished key <;> cases counters.finished <;>
    simp only [flipChanges, pushChange, List.append_nil, ← sameChanges]

theorem Indexed.of_fields {queue other : TransferQueue} (indexed : queue.Indexed)
    (jobs : other.jobs = queue.jobs) (nextId : other.nextId = queue.nextId)
    (rows : other.rows = queue.rows) (rowOf : other.rowOf = queue.rowOf)
    (batchRow : other.batchRow = queue.batchRow) (running : other.running = queue.running)
    (queued : other.queued = queue.queued)
    (queuedBySession : other.queuedBySession = queue.queuedBySession)
    (pending : other.pending = queue.pending) : other.Indexed := by
  obtain ⟨jobsId, ⟨runningEq, queuedEq, bySessionEq, pendingEq⟩, rowOfEq, batchRowEq, rowsEq⟩ :=
    indexed
  constructor
  · rwa [jobs, nextId]
  · constructor
    · rwa [running, jobs]
    · rwa [queued, jobs]
    · rwa [queuedBySession, jobs]
    · rwa [pending, jobs]
  · rwa [rowOf, jobs]
  · rwa [batchRow, jobs]
  · rwa [rows, jobs]

namespace Indexed

variable {queue : TransferQueue} {id : Nat} {job : TransferJob}

theorem setJobs_of_shape_eq (indexed : queue.Indexed) {changed : TransferJob}
    (found : queue.jobs.get? id = some job) (kept : KeepsRow job changed)
    (same : Shape.of changed = Shape.of job) :
    (queue.setJobs (queue.jobs.insert id changed)).Indexed := by
  have sets := indexed.sets.insert_of_shape_eq found same
  constructor
  · exact indexed.jobs_id_insert found kept
  · exact ⟨sets.running_eq, sets.queued_eq, sets.queuedBySession_eq, sets.pending_eq⟩
  · exact indexed.rowOf_insert found kept
  · exact indexed.batchRow_insert found kept
  · constructor
    · intro kind key leads
      rw [setJobs_jobs, leader_insert_of_kept found kept] at leads
      exact indexed.rows.present kind key leads
    · intro key counters row
      have matched := indexed.rows.recounted key counters row
      exact matched.insert_of_kept found kept (by simp)
        (matched.counts.insert_of_kept found kept (Or.inl same))

/-- The specification of `update` on a job of the queue. -/
theorem update (indexed : queue.Indexed) (found : queue.jobs.get? id = some job)
    {change : TransferJob → TransferJob} (kept : KeepsRow job (change job)) :
    Updated queue (queue.update id change) id job (change job) := by
  obtain ⟨key, counters, inRow, row, leads, kind⟩ := indexed.row_of_job found
  have matched := indexed.rows.recounted key counters row
  have edited : (queue.setJobs (queue.jobs.insert id (change job))).jobs.get? id =
      some (change job) := by simp
  by_cases same : Shape.of (change job) = Shape.of job
  · have unchanged : queue.update id change =
        queue.setJobs (queue.jobs.insert id (change job)) := by
      unfold TransferQueue.update reconcile
      simp only [found, OrderedMap.modify_eq_insert found, edited, same, if_true]
    rw [unchanged]
    refine ⟨indexed.setJobs_of_shape_eq found kept same, rfl, rfl, rfl, rfl, fun _ => rfl, ?_⟩
    have counts := matched.counts.insert_of_kept found kept (Or.inl same)
    have sameDone : rowDone (queue.jobs.insert id (change job)) (kindOf job) =
        rowDone queue.jobs (kindOf job) := by
      rw [← kind, rowDone, rowDone, ← counts.queued, ← counts.running, ← matched.counts.queued,
        ← matched.counts.running]
    simp [setJobs, sameDone]
  · have reindexed := indexed.reaccount found kept inRow leads
    have newRow : ((queue.setJobs (queue.jobs.insert id (change job))).reaccount id (Shape.of job)
        (Shape.of (change job))).rows.get? key =
          some (accountRow (accountRow counters (Shape.of job) false)
            (Shape.of (change job)) true) := by
      rw [reaccount_setJobs, setJobs, reaccount_rows _ _ _ _ inRow]
      simp [row]
    have done := (reindexed.rows.recounted key _ newRow).finished_eq
    have wasDone : (queue.setJobs (queue.jobs.insert id (change job))).rowFinished key =
        rowDone queue.jobs (kindOf job) := by
      rw [← kind, ← matched.finished_eq]
      simp [rowFinished, setJobs, row]
    have updated : queue.update id change =
        (queue.setJobs (queue.jobs.insert id (change job))).reconcile id (Shape.of job) := by
      simp [TransferQueue.update, found, OrderedMap.modify_eq_insert found]
    rw [updated, reconcile_of_ne edited same (by exact inRow) newRow]
    refine ⟨reindexed.of_fields rfl rfl rfl rfl rfl rfl rfl rfl rfl, ?_, ?_, ?_, ?_, ?_, ?_⟩
    · simp [reaccount_setJobs]
    · simp
    · simp
    · simp
    · intro other
      rw [reaccount_setJobs, setJobs, reaccount_rows _ _ _ _ inRow]
      by_cases sameKey : other = key
      · simp [sameKey, row]
      · simp [sameKey]
    · rw [done, wasDone]
      simp [kind, reaccount_setJobs]

end Indexed

end TransferQueue

end Porthmos
