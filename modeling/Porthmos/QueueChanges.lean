import Porthmos.QueueBulk
import Porthmos.QueueRemoval

/-!
# What an operation changes, job by job

For the engine it matters which jobs an operation changes and how, that the queue stays
indexed, and that every row which finishes or stops being finished is reported.
-/

namespace Porthmos

namespace TransferQueue

variable {queue middle result : TransferQueue}

/-! ### Finished rows -/

/-- The row has jobs, and none of them is waiting or running. -/
structure RowFinished (jobs : Jobs) (kind : RowKind) : Prop where
  some_job : ∃ id job, jobs.get? id = some job ∧ kindOf job = kind
  none_pending : ∀ id job, jobs.get? id = some job → kindOf job = kind → job.status.isPending = false

theorem statusCount_eq_zero_iff {jobs : Jobs} {kind : RowKind} {test : JobStatus → Bool} :
    statusCount jobs kind test = 0 ↔
      ∀ id job, jobs.get? id = some job → kindOf job = kind → test job.status = false := by
  constructor
  · intro none id job found inRow
    have counted := OrderedMap.le_total (fun _ job =>
      if kindOf job = kind ∧ test job.status then 1 else 0) found
    change _ ≤ statusCount jobs kind test at counted
    rw [none] at counted
    by_cases met : test job.status = true
    · simp [inRow, met] at counted
    · simpa using met
  · intro none
    refine OrderedMap.total_eq_zero fun id job found => ?_
    rw [if_neg]
    rintro ⟨inRow, met⟩
    rw [none id job found inRow] at met
    cases met

theorem rowPhase_eq_true_iff {jobs : Jobs} {kind : RowKind} :
    rowPhase jobs kind = some true ↔ RowFinished jobs kind := by
  have pending (status : JobStatus) : status.isPending = false ↔
      isQueuedStatus status = false ∧ isRunningStatus status = false := by
    rw [isPending_eq, Bool.or_eq_false_iff]
  have leads : (∃ key, leader jobs kind = some key) ↔
      ∃ id job, jobs.get? id = some job ∧ kindOf job = kind := by
    constructor
    · rintro ⟨key, isLeader⟩
      obtain ⟨first, found, inRow⟩ := kindOf_of_leader isLeader
      exact ⟨key, first, found, inRow⟩
    · rintro ⟨id, job, found, inRow⟩
      cases isLeader : leader jobs kind with
      | some key => exact ⟨key, rfl⟩
      | none =>
        have member : id ∈ (members jobs kind).keys := mem_members_iff.mpr ⟨job, found, inRow⟩
        exact absurd member (leader_eq_none_iff.mp isLeader id)
  rw [rowPhase, Option.map_eq_some_iff]
  simp only [rowDone, decide_eq_true_eq, exists_and_right, leads, statusCount_eq_zero_iff]
  constructor
  · rintro ⟨present, noneQueued, noneRunning⟩
    exact ⟨present, fun id job found inRow =>
      (pending job.status).mpr ⟨noneQueued id job found inRow, noneRunning id job found inRow⟩⟩
  · rintro ⟨present, none⟩
    exact ⟨present, fun id job found inRow => ((pending _).mp (none id job found inRow)).1,
      fun id job found inRow => ((pending _).mp (none id job found inRow)).2⟩

/-! ### Reports -/

/-- The changes reported since name every row that finished or is no longer finished. -/
def Reported (queue result : TransferQueue) : Prop :=
  ∃ appended, result.changes = queue.changes ++ appended ∧ ∀ kind,
    (∀ change ∈ appended, change.kind ≠ kind) →
      (RowFinished result.jobs kind ↔ RowFinished queue.jobs kind)

theorem Reported.of_eq (changes : result.changes = queue.changes) (jobs : result.jobs = queue.jobs) :
    Reported queue result :=
  ⟨[], by rw [changes, List.append_nil], fun kind _ => by rw [jobs]⟩

theorem Reported.trans (first : Reported queue middle) (second : Reported middle result) :
    Reported queue result := by
  obtain ⟨earlier, earlierEq, earlierRows⟩ := first
  obtain ⟨later, laterEq, laterRows⟩ := second
  refine ⟨earlier ++ later, by rw [laterEq, earlierEq, List.append_assoc], fun kind unnamed => ?_⟩
  rw [laterRows kind fun change member => unnamed change (List.mem_append_right _ member),
    earlierRows kind fun change member => unnamed change (List.mem_append_left _ member)]

theorem ChangesExact.reported (exact : ChangesExact queue result)
    (noneNew : ∀ kind, rowPhase queue.jobs kind = none → rowPhase result.jobs kind ≠ some true) :
    Reported queue result := by
  obtain ⟨appended, changes, reported⟩ := exact
  refine ⟨appended, changes, fun kind unnamed => ?_⟩
  have unreported := reported kind
  rw [changesOf_eq_nil unnamed] at unreported
  have isNew := noneNew kind
  rw [← rowPhase_eq_true_iff, ← rowPhase_eq_true_iff]
  generalize rowPhase queue.jobs kind = before at *
  generalize rowPhase result.jobs kind = after at *
  rcases before with _ | _ | _ <;> rcases after with _ | _ | _ <;>
    simp [phaseChanges] at unreported isNew ⊢

/-! ### One job -/

/-- One job is changed. -/
structure JobChanged (queue result : TransferQueue) (id : Nat) (job changed : TransferJob) :
    Prop where
  indexed : result.Indexed
  found : queue.jobs.get? id = some job
  kept : KeepsRow job changed
  jobs_eq : result.jobs = queue.jobs.insert id changed
  nextId_eq : result.nextId = queue.nextId
  nextBatchId_eq : result.nextBatchId = queue.nextBatchId
  reported : Reported queue result

variable {id : Nat} {job changed last : TransferJob}

theorem Updated.jobChanged (updated : Updated queue result id job changed) (indexed : queue.Indexed)
    (found : queue.jobs.get? id = some job) (kept : KeepsRow job changed) :
    JobChanged queue result id job changed := by
  refine ⟨updated.indexed, found, kept, updated.jobs_eq, updated.nextId_eq, updated.nextBatchId_eq,
    (updated.changesExact indexed found kept).reported fun kind isNew => ?_⟩
  rw [rowPhase, updated.jobs_eq, leader_insert_of_kept found kept]
  rw [rowPhase, Option.map_eq_none_iff] at isNew
  simp [isNew]

theorem KeepsRow.trans (first : KeepsRow job changed) (second : KeepsRow changed last) :
    KeepsRow job last :=
  ⟨second.id.trans first.id, second.batchId.trans first.batchId,
    second.direction.trans first.direction, second.totalBytes.trans first.totalBytes,
    second.displayName.trans first.displayName⟩

theorem insert_insert (jobs : Jobs) (id : Nat) (first second : TransferJob) :
    (jobs.insert id first).insert id second = jobs.insert id second := by
  refine OrderedMap.ext_get? fun key => ?_
  simp only [OrderedMap.get?_insert]
  split_ifs <;> rfl

theorem JobChanged.get?_self (change : JobChanged queue result id job changed) :
    result.jobs.get? id = some changed := by
  rw [change.jobs_eq, OrderedMap.get?_insert, if_pos rfl]

theorem JobChanged.trans (first : JobChanged queue middle id job changed)
    (second : JobChanged middle result id changed last) : JobChanged queue result id job last :=
  ⟨second.indexed, first.found, first.kept.trans second.kept,
    by rw [second.jobs_eq, first.jobs_eq, insert_insert], second.nextId_eq.trans first.nextId_eq,
    second.nextBatchId_eq.trans first.nextBatchId_eq, first.reported.trans second.reported⟩

theorem Indexed.jobChanged (indexed : queue.Indexed) (found : queue.jobs.get? id = some job)
    {change : TransferJob → TransferJob} (kept : KeepsRow job (change job)) :
    JobChanged queue (queue.update id change) id job (change job) :=
  (indexed.update found kept).jobChanged indexed found kept

theorem Indexed.editGuarded_jobChanged (indexed : queue.Indexed)
    (found : queue.jobs.get? id = some job) {change : TransferJob → TransferJob}
    (kept : KeepsRow job (change job)) :
    JobChanged queue (queue.editGuarded id change) id job (change job) := by
  rw [editGuarded_eq_update]
  exact indexed.jobChanged found kept

theorem editGuarded_of_none (change : TransferJob → TransferJob)
    (absent : queue.jobs.get? id = none) : queue.editGuarded id change = queue := by
  simp [editGuarded, getMut, absent]

/-- A change that keeps the status of its job reports nothing. -/
theorem Indexed.changes_update (indexed : queue.Indexed) (found : queue.jobs.get? id = some job)
    {change : TransferJob → TransferJob} (kept : KeepsRow job (change job))
    (sameStatus : (change job).status = job.status) :
    (queue.update id change).changes = queue.changes := by
  have updated := indexed.update found kept
  obtain ⟨appended, changes, exact⟩ := updated.changesExact indexed found kept
  have unchanged (kind : RowKind) :
      rowPhase (queue.update id change).jobs kind = rowPhase queue.jobs kind := by
    have same (test : JobStatus → Bool) :
        statusCount (queue.jobs.insert id (change job)) kind test =
          statusCount queue.jobs kind test := by
      refine OrderedMap.total_insert_of_eq found ?_
      rw [kept.kindOf, sameStatus]
    rw [updated.jobs_eq, rowPhase, rowPhase, leader_insert_of_kept found kept, rowDone, rowDone,
      same, same]
  cases appended with
  | nil => rw [changes, List.append_nil]
  | cons first rest =>
    have reported := exact first.kind
    rw [unchanged, phaseChanges_self, changesOf, List.filter_cons_of_pos (by simp)] at reported
    cases reported

/-! ### New jobs -/

/-- One job is new. -/
structure JobEntered (queue result : TransferQueue) (job : TransferJob) : Prop where
  indexed : result.Indexed
  jobs_eq : result.jobs = queue.jobs.insert queue.nextId job
  nextId_eq : result.nextId = queue.nextId + 1
  nextBatchId_eq : result.nextBatchId = queue.nextBatchId
  reported : Reported queue result

theorem Indexed.enqueue_jobEntered (indexed : queue.Indexed) (new : NewJob) :
    JobEntered queue (queue.enqueue new).1 (new.toJob queue.nextId) := by
  have entered := indexed.enqueue new
  refine ⟨entered.indexed, entered.jobs_eq, entered.nextId_eq, entered.nextBatchId_eq,
    (entered.changesExact indexed).reported fun kind isNew finished => ?_⟩
  rw [rowPhase_eq_true_iff, entered.jobs_eq] at finished
  obtain ⟨⟨id, job, found, inRow⟩, nonePending⟩ := finished
  have isOld : queue.jobs.get? id ≠ none := by
    intro absent
    rw [OrderedMap.get?_insert] at found
    split_ifs at found with same
    · cases found
      have waiting := nonePending id (new.toJob queue.nextId) (by simp [same]) inRow
      cases waiting
    · rw [absent] at found
      cases found
  obtain ⟨old, oldFound⟩ := Option.ne_none_iff_exists'.mp isOld
  have same : id ≠ queue.nextId := (indexed.jobs_id id old oldFound).2.ne
  rw [OrderedMap.get?_insert, if_neg same] at found
  rw [rowPhase, Option.map_eq_none_iff, leader_eq_none_iff] at isNew
  exact isNew id (mem_members_iff.mpr ⟨job, found, inRow⟩)

theorem JobEntered.trans (entered : JobEntered queue middle job)
    (change : JobChanged middle result queue.nextId job changed) : JobEntered queue result changed :=
  ⟨change.indexed, by rw [change.jobs_eq, entered.jobs_eq, insert_insert],
    change.nextId_eq.trans entered.nextId_eq, change.nextBatchId_eq.trans entered.nextBatchId_eq,
    entered.reported.trans change.reported⟩

theorem JobEntered.get?_self (entered : JobEntered queue result job) :
    result.jobs.get? queue.nextId = some job := by
  rw [entered.jobs_eq, OrderedMap.get?_insert, if_pos rfl]

/-! ### No job -/

/-- All jobs stay as they are. -/
structure JobsKept (queue result : TransferQueue) : Prop where
  indexed : result.Indexed
  jobs_eq : result.jobs = queue.jobs
  nextId_eq : result.nextId = queue.nextId
  reported : Reported queue result

theorem Indexed.startBatch_jobsKept (indexed : queue.Indexed) (label : String) :
    JobsKept queue (queue.startBatch label).1 :=
  ⟨indexed.of_fields rfl rfl rfl rfl rfl rfl rfl rfl rfl, rfl, rfl, .of_eq rfl rfl⟩

theorem Indexed.flagUnkeptTimes_jobsKept (indexed : queue.Indexed) (batch : Nat) :
    JobsKept queue (queue.flagUnkeptTimes batch).1 :=
  ⟨indexed.of_fields rfl rfl rfl rfl rfl rfl rfl rfl rfl, rfl, rfl, .of_eq rfl rfl⟩

theorem Indexed.forgetBatchIfEmpty_jobsKept (indexed : queue.Indexed) (batch : Nat) :
    JobsKept queue (queue.forgetBatchIfEmpty batch) := by
  unfold forgetBatchIfEmpty
  split_ifs
  · exact ⟨indexed.of_fields rfl rfl rfl rfl rfl rfl rfl rfl rfl, rfl, rfl, .of_eq rfl rfl⟩
  · exact ⟨indexed, rfl, rfl, .of_eq rfl rfl⟩

theorem forgetBatchIfEmpty_nextBatchId (queue : TransferQueue) (batch : Nat) :
    (queue.forgetBatchIfEmpty batch).nextBatchId = queue.nextBatchId := by
  unfold forgetBatchIfEmpty
  split_ifs <;> rfl

theorem Removed.reported {ids : List Nat} (removed : Removed queue result ids) :
    Reported queue result := by
  refine removed.changes.reported fun kind isNew finished => ?_
  rw [rowPhase_eq_true_iff] at finished
  obtain ⟨id, job, found, inRow⟩ := finished.some_job
  rw [removed.jobs_eq] at found
  split_ifs at found
  rw [rowPhase, Option.map_eq_none_iff, leader_eq_none_iff] at isNew
  exact isNew id (mem_members_iff.mpr ⟨job, found, inRow⟩)

end TransferQueue

end Porthmos
