import Porthmos.TransferQueue

/-!
# Recounting the indexes from the jobs

Every index of the queue has a meaning in terms of the job map alone.  This
file states those meanings and how each changes when one job enters or leaves
the map.
-/

namespace Porthmos

namespace TransferQueue

/-- The map of all jobs, keyed by their ids. -/
abbrev Jobs := OrderedMap Nat TransferJob

/-- The ids of all jobs with this status. -/
def recountStatus (jobs : Jobs) (status : JobStatus) : OrderedSet Nat :=
  jobs.filterMap fun _ job => if job.status = status then some () else none

/-- The queued jobs of one session. -/
def recountQueuedIn (jobs : Jobs) (session : Nat) : OrderedSet Nat :=
  jobs.filterMap fun _ job =>
    if job.status = .queued ∧ job.sessionId = session then some () else none

/-- A session has an entry only while it has queued jobs. -/
def recountQueuedBySession (jobs : Jobs) (session : Nat) : Option (OrderedSet Nat) :=
  if (recountQueuedIn jobs session).entries.isEmpty then none
  else some (recountQueuedIn jobs session)

def pendingCount (jobs : Jobs) (key : Nat × Direction) : Nat :=
  jobs.total fun _ job =>
    if job.status.isPending ∧ (job.sessionId, job.direction) = key then 1 else 0

/-- A pending count has an entry only while it is positive. -/
def recountPending (jobs : Jobs) (key : Nat × Direction) : Option Nat :=
  if pendingCount jobs key = 0 then none else some (pendingCount jobs key)

/-- The ids of the jobs of one row. -/
def members (jobs : Jobs) (kind : RowKind) : OrderedSet Nat :=
  jobs.filterMap fun _ job => if kindOf job = kind then some () else none

/-- The first job of a row, which is also the row's key. -/
def leader (jobs : Jobs) (kind : RowKind) : Option Nat := (members jobs kind).keys.head?

def recountRowOf (jobs : Jobs) (id : Nat) : Option Nat :=
  (jobs.get? id).bind fun job => leader jobs (kindOf job)

def recountBatchRow (jobs : Jobs) (batch : Nat) : Option Nat := leader jobs (.batch batch)

/-- The number of jobs of one row whose status passes a test. -/
def statusCount (jobs : Jobs) (kind : RowKind) (test : JobStatus → Bool) : Nat :=
  jobs.total fun _ job => if kindOf job = kind ∧ test job.status then 1 else 0

/-- The sum of a byte count over the jobs of one row. -/
def byteSum (jobs : Jobs) (kind : RowKind) (bytes : TransferJob → Nat) : Nat :=
  jobs.total fun _ job => if kindOf job = kind then bytes job else 0

def isQueuedStatus (status : JobStatus) : Bool := decide (status = .queued)

def isRunningStatus (status : JobStatus) : Bool := decide (status = .inProgress)

def isCompletedStatus (status : JobStatus) : Bool := decide (status = .completed)

def isFailedStatus : JobStatus → Bool
  | .failed _ => true
  | _ => false

def isCancelledStatus (status : JobStatus) : Bool := decide (status = .cancelled)

/-- The counters of one row, recounted; the label is filled in separately. -/
def recountCounters (jobs : Jobs) (kind : RowKind) (direction : Direction) (label : String) :
    RowCounters where
  kind := kind
  label := label
  direction := direction
  order := (members jobs kind).keys
  queued := statusCount jobs kind isQueuedStatus
  running := statusCount jobs kind isRunningStatus
  completed := statusCount jobs kind isCompletedStatus
  failed := statusCount jobs kind isFailedStatus
  cancelled := statusCount jobs kind isCancelledStatus
  bytesDone := byteSum jobs kind TransferJob.transferredBytes
  bytesTotal := byteSum jobs kind TransferJob.totalBytes

/-- The row under a key: the row of the job with that id, if that job is the
row's first. -/
def recountRow (jobs : Jobs) (label : TransferJob → String) (key : Nat) : Option RowCounters :=
  (jobs.get? key).bind fun first =>
    if leader jobs (kindOf first) = some key then
      some (recountCounters jobs (kindOf first) first.direction (label first))
    else none

/-! ### One job enters or leaves the sets -/

section OneJob

variable {jobs : Jobs} {id : Nat} {job : TransferJob}

theorem recountStatus_erase (found : jobs.get? id = some job) (tracked : JobStatus) :
    accountStatus tracked (recountStatus jobs tracked) id (Shape.of job) false =
      recountStatus (jobs.erase id) tracked := by
  refine OrderedMap.ext_get? fun other => ?_
  unfold accountStatus recountStatus Shape.of
  by_cases same : other = id
  · subst same
    by_cases status : job.status = tracked <;> simp [found, status]
  · by_cases status : job.status = tracked <;> simp [same, status]

theorem recountStatus_insert (fresh : jobs.get? id = none) (tracked : JobStatus) :
    accountStatus tracked (recountStatus jobs tracked) id (Shape.of job) true =
      recountStatus (jobs.insert id job) tracked := by
  refine OrderedMap.ext_get? fun other => ?_
  unfold accountStatus recountStatus Shape.of
  by_cases same : other = id
  · subst same
    by_cases status : job.status = tracked <;> simp [fresh, status]
  · by_cases status : job.status = tracked <;> simp [same, status]

theorem recountQueuedIn_erase (found : jobs.get? id = some job) (session : Nat) :
    recountQueuedIn (jobs.erase id) session =
      if job.status = .queued ∧ job.sessionId = session then
        (recountQueuedIn jobs session).erase id
      else recountQueuedIn jobs session := by
  refine OrderedMap.ext_get? fun other => ?_
  unfold recountQueuedIn
  by_cases same : other = id
  · subst same
    split_ifs with tracked <;> simp [found, tracked]
  · split_ifs <;> simp [same]

theorem recountQueuedIn_insert (fresh : jobs.get? id = none) (session : Nat) :
    recountQueuedIn (jobs.insert id job) session =
      if job.status = .queued ∧ job.sessionId = session then
        (recountQueuedIn jobs session).insert id ()
      else recountQueuedIn jobs session := by
  refine OrderedMap.ext_get? fun other => ?_
  unfold recountQueuedIn
  by_cases same : other = id
  · subst same
    split_ifs with tracked <;> simp [fresh, tracked]
  · split_ifs <;> simp [same]

theorem recountQueuedBySession_getD (jobs : Jobs) (session : Nat) :
    (recountQueuedBySession jobs session).getD .empty = recountQueuedIn jobs session := by
  unfold recountQueuedBySession
  split_ifs with empty
  · refine OrderedMap.ext_get? fun key => ?_
    rw [OrderedMap.isEmpty_entries_iff] at empty
    simp [empty key]
  · rfl

theorem recountQueuedBySession_erase {index : OrderedMap Nat (OrderedSet Nat)}
    (indexed : ∀ session, index.get? session = recountQueuedBySession jobs session)
    (found : jobs.get? id = some job) (session : Nat) :
    (accountQueuedBySession index id (Shape.of job) false).get? session =
      recountQueuedBySession (jobs.erase id) session := by
  unfold accountQueuedBySession Shape.of
  cases status : job.status with
  | queued =>
    have present : (recountQueuedIn jobs job.sessionId).get? id = some () := by
      simp [recountQueuedIn, found, status]
    have nonempty : ¬(recountQueuedIn jobs job.sessionId).entries.isEmpty := by
      rw [OrderedMap.isEmpty_entries_iff]
      intro absent
      simp [absent id] at present
    have entry : index.get? job.sessionId = some (recountQueuedIn jobs job.sessionId) := by
      rw [indexed, recountQueuedBySession, if_neg nonempty]
    have rest : recountQueuedIn (jobs.erase id) job.sessionId =
        (recountQueuedIn jobs job.sessionId).erase id := by
      rw [recountQueuedIn_erase found, if_pos ⟨status, rfl⟩]
    by_cases same : session = job.sessionId
    · subst same
      simp only [entry, recountQueuedBySession, rest, Bool.false_eq_true, if_false]
      split_ifs <;> simp
    · have other : recountQueuedIn (jobs.erase id) session = recountQueuedIn jobs session := by
        rw [recountQueuedIn_erase found, if_neg (fun tracked => same tracked.2.symm)]
      simp only [entry, Bool.false_eq_true, if_false]
      split_ifs <;> simp [same, indexed, recountQueuedBySession, other]
  | _ =>
    have other : recountQueuedIn (jobs.erase id) session = recountQueuedIn jobs session := by
      rw [recountQueuedIn_erase found, if_neg (by simp [status])]
    simp [indexed, recountQueuedBySession, other]

theorem recountQueuedBySession_insert {index : OrderedMap Nat (OrderedSet Nat)}
    (indexed : ∀ session, index.get? session = recountQueuedBySession jobs session)
    (fresh : jobs.get? id = none) (session : Nat) :
    (accountQueuedBySession index id (Shape.of job) true).get? session =
      recountQueuedBySession (jobs.insert id job) session := by
  unfold accountQueuedBySession Shape.of
  cases status : job.status with
  | queued =>
    by_cases same : session = job.sessionId
    · subst same
      have entered : recountQueuedIn (jobs.insert id job) job.sessionId =
          (recountQueuedIn jobs job.sessionId).insert id () := by
        rw [recountQueuedIn_insert fresh, if_pos ⟨status, rfl⟩]
      have nonempty : ¬((recountQueuedIn jobs job.sessionId).insert id ()).entries.isEmpty := by
        rw [OrderedMap.isEmpty_entries_iff]
        intro absent
        simpa using absent id
      simp only [indexed, recountQueuedBySession_getD, if_true, OrderedMap.get?_insert]
      rw [recountQueuedBySession, entered, if_neg nonempty]
    · have other : recountQueuedIn (jobs.insert id job) session = recountQueuedIn jobs session := by
        rw [recountQueuedIn_insert fresh, if_neg (fun tracked => same tracked.2.symm)]
      simp [same, indexed, recountQueuedBySession, other]
  | _ =>
    have other : recountQueuedIn (jobs.insert id job) session = recountQueuedIn jobs session := by
      rw [recountQueuedIn_insert fresh, if_neg (by simp [status])]
    simp [indexed, recountQueuedBySession, other]

theorem recountPending_erase (found : jobs.get? id = some job) :
    accountPending (recountPending jobs) (Shape.of job) false = recountPending (jobs.erase id) := by
  funext key
  have count : pendingCount (jobs.erase id) key +
      (if job.status.isPending ∧ (job.sessionId, job.direction) = key then 1 else 0) =
        pendingCount jobs key :=
    OrderedMap.total_erase_add found _
  unfold accountPending Shape.of
  by_cases tracked : job.status.isPending = true ∧ (job.sessionId, job.direction) = key
  · obtain ⟨pending, rfl⟩ := tracked
    simp only [pending, and_self, if_true] at count
    have positive : pendingCount jobs (job.sessionId, job.direction) ≠ 0 := by omega
    have less : pendingCount jobs (job.sessionId, job.direction) - 1 =
        pendingCount (jobs.erase id) (job.sessionId, job.direction) := by omega
    simp only [pending, if_true, Bool.false_eq_true, if_false, decrement, recountPending,
      positive, less]
    split_ifs <;> simp
  · rw [if_neg tracked, Nat.add_zero] at count
    have same : recountPending (jobs.erase id) key = recountPending jobs key := by
      rw [recountPending, recountPending, count]
    rw [same]
    by_cases pending : job.status.isPending = true
    · have different : key ≠ (job.sessionId, job.direction) :=
        fun equal => tracked ⟨pending, equal.symm⟩
      simp [pending, decrement_of_ne _ different]
    · simp [pending]

theorem recountPending_insert (fresh : jobs.get? id = none) :
    accountPending (recountPending jobs) (Shape.of job) true =
      recountPending (jobs.insert id job) := by
  funext key
  have count : pendingCount (jobs.insert id job) key = pendingCount jobs key +
      (if job.status.isPending ∧ (job.sessionId, job.direction) = key then 1 else 0) :=
    OrderedMap.total_insert_new fresh _ job
  unfold accountPending Shape.of
  by_cases tracked : job.status.isPending = true ∧ (job.sessionId, job.direction) = key
  · obtain ⟨pending, rfl⟩ := tracked
    simp only [pending, and_self, if_true] at count
    have entry : (recountPending jobs (job.sessionId, job.direction)).getD 0 =
        pendingCount jobs (job.sessionId, job.direction) := by
      unfold recountPending
      split_ifs with zero <;> simp [zero]
    simp only [pending, if_true, increment, Function.update_self, entry]
    rw [recountPending, count, if_neg (Nat.succ_ne_zero _)]
  · rw [if_neg tracked, Nat.add_zero] at count
    have same : recountPending (jobs.insert id job) key = recountPending jobs key := by
      rw [recountPending, recountPending, count]
    rw [same]
    by_cases pending : job.status.isPending = true
    · have different : key ≠ (job.sessionId, job.direction) :=
        fun equal => tracked ⟨pending, equal.symm⟩
      simp [pending, increment_of_ne _ different]
    · simp [pending]

/-! ### One job enters or leaves a row -/

theorem statusCount_erase (found : jobs.get? id = some job) (kind : RowKind)
    (test : JobStatus → Bool) :
    statusCount (jobs.erase id) kind test +
        (if kindOf job = kind ∧ test job.status then 1 else 0) = statusCount jobs kind test :=
  OrderedMap.total_erase_add found _

theorem statusCount_insert (fresh : jobs.get? id = none) (job : TransferJob) (kind : RowKind)
    (test : JobStatus → Bool) :
    statusCount (jobs.insert id job) kind test = statusCount jobs kind test +
      (if kindOf job = kind ∧ test job.status then 1 else 0) :=
  OrderedMap.total_insert_new fresh _ job

theorem byteSum_erase (found : jobs.get? id = some job) (kind : RowKind)
    (bytes : TransferJob → Nat) :
    byteSum (jobs.erase id) kind bytes + (if kindOf job = kind then bytes job else 0) =
      byteSum jobs kind bytes :=
  OrderedMap.total_erase_add found _

theorem byteSum_insert (fresh : jobs.get? id = none) (job : TransferJob) (kind : RowKind)
    (bytes : TransferJob → Nat) :
    byteSum (jobs.insert id job) kind bytes =
      byteSum jobs kind bytes + (if kindOf job = kind then bytes job else 0) :=
  OrderedMap.total_insert_new fresh _ job

/-- The part of a row that `account` keeps. -/
structure Counts (jobs : Jobs) (kind : RowKind) (counters : RowCounters) : Prop where
  queued : counters.queued = statusCount jobs kind isQueuedStatus
  running : counters.running = statusCount jobs kind isRunningStatus
  completed : counters.completed = statusCount jobs kind isCompletedStatus
  failed : counters.failed = statusCount jobs kind isFailedStatus
  cancelled : counters.cancelled = statusCount jobs kind isCancelledStatus
  bytesDone : counters.bytesDone = byteSum jobs kind TransferJob.transferredBytes

theorem Counts.erase {kind : RowKind} {counters : RowCounters}
    (counts : Counts jobs kind counters) (found : jobs.get? id = some job)
    (inRow : kindOf job = kind) :
    Counts (jobs.erase id) kind (accountRow counters (Shape.of job) false) := by
  obtain ⟨queued, running, completed, failed, cancelled, bytes⟩ := counts
  have queuedLess := statusCount_erase found kind isQueuedStatus
  have runningLess := statusCount_erase found kind isRunningStatus
  have completedLess := statusCount_erase found kind isCompletedStatus
  have failedLess := statusCount_erase found kind isFailedStatus
  have cancelledLess := statusCount_erase found kind isCancelledStatus
  have bytesLess := byteSum_erase found kind TransferJob.transferredBytes
  rw [if_pos inRow] at bytesLess
  simp only [inRow, true_and] at queuedLess runningLess completedLess failedLess cancelledLess
  unfold accountRow Shape.of RowCounters.changeSlot
  cases status : job.status <;>
    simp only [status, isQueuedStatus, isRunningStatus, isCompletedStatus, isFailedStatus,
      isCancelledStatus, decide_true, decide_false, reduceCtorEq, if_true, Bool.false_eq_true,
      if_false, Nat.add_zero] at queuedLess runningLess completedLess failedLess cancelledLess <;>
    constructor <;>
    simp only [Bool.false_eq_true, if_false] <;>
    omega

theorem Counts.insert {kind : RowKind} {counters : RowCounters}
    (counts : Counts jobs kind counters) (fresh : jobs.get? id = none)
    (inRow : kindOf job = kind) :
    Counts (jobs.insert id job) kind (accountRow counters (Shape.of job) true) := by
  obtain ⟨queued, running, completed, failed, cancelled, bytes⟩ := counts
  have queuedMore := statusCount_insert fresh job kind isQueuedStatus
  have runningMore := statusCount_insert fresh job kind isRunningStatus
  have completedMore := statusCount_insert fresh job kind isCompletedStatus
  have failedMore := statusCount_insert fresh job kind isFailedStatus
  have cancelledMore := statusCount_insert fresh job kind isCancelledStatus
  have bytesMore := byteSum_insert fresh job kind TransferJob.transferredBytes
  rw [if_pos inRow] at bytesMore
  simp only [inRow, true_and] at queuedMore runningMore completedMore failedMore cancelledMore
  unfold accountRow Shape.of RowCounters.changeSlot
  cases status : job.status <;>
    simp only [status, isQueuedStatus, isRunningStatus, isCompletedStatus, isFailedStatus,
      isCancelledStatus, decide_true, decide_false, reduceCtorEq, if_true, Bool.false_eq_true,
      if_false, Nat.add_zero] at queuedMore runningMore completedMore failedMore cancelledMore <;>
    constructor <;>
    simp only [if_true] <;>
    omega

theorem Counts.of_ne {kind : RowKind} {counters : RowCounters} {other : Jobs}
    (counts : Counts jobs kind counters)
    (sameStatus : ∀ test, statusCount other kind test = statusCount jobs kind test)
    (sameBytes : ∀ bytes, byteSum other kind bytes = byteSum jobs kind bytes) :
    Counts other kind counters := by
  obtain ⟨queued, running, completed, failed, cancelled, bytes⟩ := counts
  constructor <;> simp only [sameStatus, sameBytes] <;> assumption

@[simp]
theorem accountRow_fields (counters : RowCounters) (shape : Shape) (add : Bool) :
    (accountRow counters shape add).kind = counters.kind ∧
      (accountRow counters shape add).label = counters.label ∧
      (accountRow counters shape add).direction = counters.direction ∧
      (accountRow counters shape add).order = counters.order ∧
      (accountRow counters shape add).bytesTotal = counters.bytesTotal := by
  unfold accountRow RowCounters.changeSlot
  cases shape.status <;> simp

/-! ### The members of a row -/

theorem get?_members (jobs : Jobs) (kind : RowKind) (id : Nat) : (members jobs kind).get? id =
      (jobs.get? id).bind fun job => if kindOf job = kind then some () else none :=
  OrderedMap.get?_filterMap _ _ _

theorem mem_members_iff {kind : RowKind} :
    id ∈ (members jobs kind).keys ↔ ∃ job, jobs.get? id = some job ∧ kindOf job = kind := by
  simp [OrderedMap.mem_keys_iff, get?_members, Option.bind_eq_some_iff]

theorem members_insert_of_ne {kind : RowKind} (fresh : jobs.get? id = none)
    (otherRow : kindOf job ≠ kind) : members (jobs.insert id job) kind = members jobs kind := by
  refine OrderedMap.ext_get? fun other => ?_
  by_cases same : other = id
  · subst same
    simp [get?_members, fresh, otherRow]
  · simp [get?_members, same]

theorem members_insert_of_eq {kind : RowKind} (inRow : kindOf job = kind) :
    members (jobs.insert id job) kind = (members jobs kind).insert id () := by
  refine OrderedMap.ext_get? fun other => ?_
  by_cases same : other = id <;> simp [get?_members, same, inRow]

theorem leader_mem {kind : RowKind} {key : Nat} (leads : leader jobs kind = some key) :
    key ∈ (members jobs kind).keys :=
  List.mem_of_mem_head? leads

theorem leader_eq_none_iff {kind : RowKind} :
    leader jobs kind = none ↔ ∀ id, id ∉ (members jobs kind).keys := by
  rw [leader, List.head?_eq_none_iff, List.eq_nil_iff_forall_not_mem]

theorem kindOf_of_leader {kind : RowKind} {key : Nat} (leads : leader jobs kind = some key) :
    ∃ first, jobs.get? key = some first ∧ kindOf first = kind :=
  mem_members_iff.mp (leader_mem leads)

end OneJob

end TransferQueue

end Porthmos
