import Mathlib.Algebra.Order.BigOperators.Group.List
import Porthmos.EngineMoves

/-!
# Every running job and every scan has an owner

A job that runs is settled by exactly one live task or unhandled message, and so is every
scan that is planned.  Nothing else is owned.
-/

namespace Porthmos

open TransferQueue

theorem total_map {κ α β : Type*} [LinearOrder κ] (map : OrderedMap κ α) (image : α → β)
    (weight : κ → β → Nat) :
    (map.filterMap fun _ value => some (image value)).total weight =
      map.total fun key value => weight key (image value) := by
  unfold OrderedMap.total OrderedMap.filterMap
  simp [List.filterMap_eq_map', Function.comp_def]

namespace Engine

variable {engine : Engine} {tasks : Tasks} {internal : List Internal}

/-- 1 for what is to settle an owner. -/
def owns (owner : Owner) (found : Option Owner) : Nat := if found = some owner then 1 else 0

/-- The tasks and messages that are to settle an owner. -/
def ownerCount (tasks : Tasks) (internal : List Internal) (owner : Owner) : Nat :=
  tasks.live.total (fun _ live => owns owner live.work.owner) +
    (internal.map fun message => owns owner message.owner).sum

def statusRuns (status : JobStatus) : Nat := if status = .inProgress then 1 else 0

/-- 1 for a job that runs. -/
def runsOf (jobs : Jobs) (id : Nat) : Nat := (jobs.get? id).elim 0 fun job => statusRuns job.status

def scansOf (planning : List PlanningScan) (batchId : Nat) : Nat :=
  planning.countP fun scan => decide (scan.batchId = batchId)

structure Owned (engine : Engine) : Prop where
  tasks_lt : ∀ task live, engine.tasks.live.get? task = some live → task < engine.tasks.next
  jobs : ∀ id, ownerCount engine.tasks engine.internal (.job id) =
    runsOf engine.transfers.jobs id
  scans : ∀ batchId, ownerCount engine.tasks engine.internal (.scan batchId) =
    scansOf engine.planning batchId
  scans_le : ∀ batchId, scansOf engine.planning batchId ≤ 1
  scans_lt : ∀ batchId, 0 < scansOf engine.planning batchId →
    batchId < engine.transfers.nextBatchId
  live_scanned : ∀ task live batchId kind, engine.tasks.live.get? task = some live →
    live.work.scanned = some (batchId, kind) → engine.sync.scanning batchId = kind
  message_scanned : ∀ message ∈ engine.internal, ∀ batchId kind,
    message.scanned = some (batchId, kind) → engine.sync.scanning batchId = kind
  named : ∀ message ∈ engine.internal, message.PlanNamed
  scanning : ∀ batchId, engine.sync.scanning batchId = true →
    scansOf engine.planning batchId = 1

theorem planned_iff (batchId : Nat) : engine.Planned batchId ↔ 0 < scansOf engine.planning batchId := by
  unfold Planned scansOf
  rw [List.countP_pos_iff]
  simp

theorem running_iff (id : Nat) : engine.Running id ↔ 0 < runsOf engine.transfers.jobs id := by
  unfold Running runsOf statusRuns
  cases engine.transfers.jobs.get? id with
  | none => simp
  | some job => by_cases runs : job.status = .inProgress <;> simp [runs]

/-! ### Counting owners -/

@[simp]
theorem owns_self (owner : Owner) : owns owner (some owner) = 1 := if_pos rfl

@[simp]
theorem owns_none (owner : Owner) : owns owner none = 0 := if_neg (by simp)

theorem owns_of_ne {owner other : Owner} (different : other ≠ owner) :
    owns owner (some other) = 0 :=
  if_neg fun same => different (Option.some.inj same)

@[simp]
theorem owns_job_scan (id batchId : Nat) : owns (.job id) (some (.scan batchId)) = 0 :=
  owns_of_ne (by simp)

@[simp]
theorem owns_scan_job (id batchId : Nat) : owns (.scan batchId) (some (.job id)) = 0 :=
  owns_of_ne (by simp)

theorem ownerCount_pos_of_live {task : Nat} {live : Live} {owner : Owner}
    (found : tasks.live.get? task = some live) (isOwner : live.work.owner = some owner) :
    0 < ownerCount tasks internal owner := by
  have counted := OrderedMap.le_total (fun _ live => owns owner (Work.owner live.work)) found
  rw [isOwner, owns_self] at counted
  unfold ownerCount
  omega

theorem ownerCount_pos_of_message {message : Internal} {owner : Owner} (member : message ∈ internal)
    (isOwner : message.owner = some owner) : 0 < ownerCount tasks internal owner := by
  have counted := List.le_sum_of_mem
    (List.mem_map_of_mem (f := fun message => owns owner (Internal.owner message)) member)
  rw [isOwner, owns_self] at counted
  unfold ownerCount
  omega

theorem ownerCount_spawn (fresh : tasks.live.get? tasks.next = none) (work : Work) (owner : Owner) :
    ownerCount (tasks.spawn work) internal owner =
      ownerCount tasks internal owner + owns owner work.owner := by
  rw [ownerCount, ownerCount, Tasks.spawn, OrderedMap.total_insert_new fresh]
  exact Nat.add_right_comm _ _ _

theorem ownerCount_forget (scope : Scope) (owner : Owner) :
    ownerCount (tasks.forget scope) internal owner = ownerCount tasks internal owner := rfl

theorem ownerCount_cancel (scope : Scope) (owner : Owner) :
    ownerCount (tasks.cancel scope) internal owner = ownerCount tasks internal owner := by
  have sameWork (live : Live) :
      (if live.work.scope = scope then { live with cancel := true } else live).work = live.work := by
    split_ifs <;> rfl
  rw [ownerCount, ownerCount, Tasks.cancel, total_map]
  simp only [sameWork]

theorem ownerCount_cons (message : Internal) (owner : Owner) :
    ownerCount tasks (message :: internal) owner =
      ownerCount tasks internal owner + owns owner message.owner := by
  rw [ownerCount, ownerCount, List.map_cons, List.sum_cons]
  omega

theorem ownerCount_append (message : Internal) (owner : Owner) :
    ownerCount tasks (internal ++ [message]) owner =
      ownerCount tasks internal owner + owns owner message.owner := by
  rw [ownerCount, ownerCount, List.map_append, List.sum_append, List.map_singleton,
    List.sum_singleton]
  omega

theorem ownerCount_finish {task : Nat} {live : Live} (found : tasks.live.get? task = some live)
    (owner : Owner) :
    ownerCount (tasks.finish task) internal owner + owns owner live.work.owner =
      ownerCount tasks internal owner := by
  have removal := OrderedMap.total_erase_add found fun _ live => owns owner (Work.owner live.work)
  rw [ownerCount, ownerCount, Tasks.finish, ← removal]
  exact Nat.add_right_comm _ _ _

theorem owner_of_scanned {work : Work} {batchId : Nat} {kind : Bool}
    (isScan : work.scanned = some (batchId, kind)) : work.owner = some (.scan batchId) := by
  cases work <;> cases isScan <;> rfl

theorem owner_of_message_scanned {message : Internal} {batchId : Nat} {kind : Bool}
    (isScan : message.scanned = some (batchId, kind)) : message.owner = some (.scan batchId) := by
  cases message with
  | transfer event => cases event <;> cases isScan <;> rfl
  | connected name fs => cases isScan
  | connectFailed name => cases isScan
  | taskPanicked name scope => cases isScan
  | other => cases isScan

/-! ### Tasks -/

theorem eq_or_found_of_spawn {work : Work} {task : Nat} {live : Live}
    (found : (tasks.spawn work).live.get? task = some live) :
    task = tasks.next ∧ live = ⟨work, false⟩ ∨ tasks.live.get? task = some live :=
  (OrderedMap.get?_insert_cases found).imp_right And.right

theorem found_of_cancel {scope : Scope} {task : Nat} {live : Live}
    (found : (tasks.cancel scope).live.get? task = some live) :
    ∃ before, tasks.live.get? task = some before ∧ before.work = live.work := by
  rw [Tasks.cancel, OrderedMap.get?_filterMap, Option.bind_eq_some_iff] at found
  obtain ⟨before, isBefore, isAfter⟩ := found
  rw [Option.some.injEq] at isAfter
  refine ⟨before, isBefore, ?_⟩
  rw [← isAfter]
  split_ifs <;> rfl

theorem found_of_finish {task other : Nat} {live : Live}
    (found : (tasks.finish task).live.get? other = some live) :
    tasks.live.get? other = some live := by
  rw [Tasks.finish, OrderedMap.get?_erase] at found
  split_ifs at found
  exact found

theorem Owned.fresh (owned : engine.Owned) : engine.tasks.live.get? engine.tasks.next = none := by
  cases found : engine.tasks.live.get? engine.tasks.next with
  | none => rfl
  | some live => exact absurd (owned.tasks_lt _ _ found) (lt_irrefl _)

theorem Owned.tasks_lt_spawn (owned : engine.Owned) (work : Work) (task : Nat) (live : Live)
    (found : (engine.tasks.spawn work).live.get? task = some live) :
    task < (engine.tasks.spawn work).next := by
  rcases eq_or_found_of_spawn found with ⟨isNew, _⟩ | earlier
  · exact isNew ▸ Nat.lt_succ_self _
  · exact (owned.tasks_lt _ _ earlier).trans (Nat.lt_succ_self _)

theorem Owned.scansOf_of_live (owned : engine.Owned) {task batchId : Nat} {live : Live} {kind : Bool}
    (found : engine.tasks.live.get? task = some live)
    (isScan : live.work.scanned = some (batchId, kind)) : 0 < scansOf engine.planning batchId :=
  owned.scans batchId ▸ ownerCount_pos_of_live found (owner_of_scanned isScan)

theorem Owned.scansOf_of_message (owned : engine.Owned) {message : Internal} {batchId : Nat}
    {kind : Bool} (member : message ∈ engine.internal)
    (isScan : message.scanned = some (batchId, kind)) : 0 < scansOf engine.planning batchId :=
  owned.scans batchId ▸ ownerCount_pos_of_message member (owner_of_message_scanned isScan)

/-! ### Jobs and scans -/

theorem runsOf_insert (jobs : Jobs) (id other : Nat) (job : TransferJob) :
    runsOf (jobs.insert id job) other =
      if other = id then statusRuns job.status else runsOf jobs other := by
  rw [runsOf, OrderedMap.get?_insert]
  split_ifs <;> rfl

variable {queue result : TransferQueue} {id : Nat} {job changed : TransferJob}

theorem runsOf_jobChanged (change : JobChanged queue result id job changed)
    (same : statusRuns changed.status = statusRuns job.status) (other : Nat) :
    runsOf result.jobs other = runsOf queue.jobs other := by
  rw [change.jobs_eq, runsOf_insert]
  split_ifs with isJob
  · rw [same, isJob, runsOf, change.found]
    rfl
  · rfl

theorem statusRuns_of_isInterrupted {status : JobStatus} (interrupted : status.isInterrupted = true) :
    statusRuns status = 0 := by
  cases status <;> first | rfl | cases interrupted

theorem runsOf_jobEntered (entered : JobEntered queue result job) (indexed : queue.Indexed)
    (waiting : job.status = .queued) (other : Nat) :
    runsOf result.jobs other = runsOf queue.jobs other := by
  rw [entered.jobs_eq, runsOf_insert]
  split_ifs with isNew
  · rw [isNew, runsOf, indexed.fresh_nextId, waiting]
    rfl
  · rfl

theorem runsOf_removed {ids : List Nat} (removed : Removed queue result ids)
    (finished : ∀ id ∈ ids, ∀ job, queue.jobs.get? id = some job →
      RowFinished queue.jobs (kindOf job)) (other : Nat) :
    runsOf result.jobs other = runsOf queue.jobs other := by
  rw [runsOf, runsOf, removed.jobs_eq]
  split_ifs with isRemoved
  · cases found : queue.jobs.get? other with
    | none => rfl
    | some job =>
      have ended := (finished other isRemoved job found).none_pending other job found rfl
      cases status : job.status <;> simp [statusRuns, status, JobStatus.isPending] at ended ⊢
  · rfl

theorem scansOf_append (planning : List PlanningScan) (scan : PlanningScan) (batchId : Nat) :
    scansOf (planning ++ [scan]) batchId =
      scansOf planning batchId + if scan.batchId = batchId then 1 else 0 := by
  unfold scansOf
  rw [List.countP_append, List.countP_singleton]
  simp

theorem scansOf_filter (planning : List PlanningScan) (batchId other : Nat) :
    scansOf (planning.filter fun scan => decide (scan.batchId ≠ batchId)) other =
      if other = batchId then 0 else scansOf planning other := by
  unfold scansOf
  rw [List.countP_filter]
  split_ifs with same
  · subst same
    simp
  · refine List.countP_congr fun scan _ => ?_
    simp only [Bool.and_eq_true, decide_eq_true_eq]
    constructor
    · exact And.left
    · intro isOther
      exact ⟨isOther, fun isBatch => same (isOther.symm.trans isBatch)⟩

/-! ### Moves -/

theorem Owned.works (owned : engine.Owned) {work : Work} (connecting : List String)
    (isOwner : work.owner = none) (isScan : work.scanned = none) :
    Owned { engine with connecting := connecting, tasks := engine.tasks.spawn work } := by
  refine ⟨owned.tasks_lt_spawn work, fun id => ?_, fun batchId => ?_, owned.scans_le,
    owned.scans_lt, ?_, owned.message_scanned, owned.named, owned.scanning⟩
  · rw [ownerCount_spawn owned.fresh, isOwner, owns_none, Nat.add_zero, owned.jobs]
  · rw [ownerCount_spawn owned.fresh, isOwner, owns_none, Nat.add_zero, owned.scans]
  · intro task live batchId kind found scanned
    rcases eq_or_found_of_spawn found with ⟨_, rfl⟩ | earlier
    · rw [isScan] at scanned
      cases scanned
    · exact owned.live_scanned _ _ _ _ earlier scanned

/-- A job starts, and a task transfers it. -/
theorem Owned.begins (owned : engine.Owned) (waiting : job.status = .queued)
    (change : JobChanged engine.transfers result id job (TransferQueue.begin job)) :
    Owned { engine with
      transfers := result
      tasks := engine.tasks.spawn (.transfer id) } := by
  have lt := owned.scans_lt
  rw [← change.nextBatchId_eq] at lt
  refine ⟨owned.tasks_lt_spawn _, fun other => ?_, fun batchId => ?_, owned.scans_le, lt, ?_,
    owned.message_scanned, owned.named, owned.scanning⟩
  · rw [ownerCount_spawn owned.fresh, owned.jobs, change.jobs_eq, runsOf_insert]
    split_ifs with isJob
    · subst isJob
      rw [runsOf, change.found, Option.elim_some, waiting]
      exact congrArg (0 + ·) (owns_self _)
    · exact congrArg (runsOf _ other + ·) (owns_of_ne fun same => isJob (Owner.job.inj same).symm)
  · rw [ownerCount_spawn owned.fresh, owned.scans]
    exact congrArg (scansOf _ batchId + ·) (owns_scan_job _ _)
  · intro task live batchId kind found scanned
    rcases eq_or_found_of_spawn found with ⟨_, rfl⟩ | earlier
    · cases scanned
    · exact owned.live_scanned _ _ _ _ earlier scanned

/-- A batch is new, and a task scans for it. -/
theorem Owned.plans (owned : engine.Owned) {scan : PlanningScan} {work : Work}
    {scanning : Nat → Bool} {kind : Bool} (isNew : scan.batchId = engine.transfers.nextBatchId)
    (kept : JobsKept engine.transfers result)
    (nextBatch : result.nextBatchId = engine.transfers.nextBatchId + 1)
    (isOwner : work.owner = some (.scan scan.batchId))
    (isScan : work.scanned = some (scan.batchId, kind))
    (isScanning : scanning scan.batchId = kind)
    (others : ∀ other ≠ scan.batchId, scanning other = engine.sync.scanning other) :
    Owned { engine with
      transfers := result
      planning := engine.planning ++ [scan]
      tasks := engine.tasks.spawn work
      sync := ⟨engine.sync.plans, scanning⟩ } := by
  have noScan : scansOf engine.planning scan.batchId = 0 := by
    have before := owned.scans_lt scan.batchId
    omega
  have isOther {batchId : Nat} (planned : 0 < scansOf engine.planning batchId) :
      batchId ≠ scan.batchId := by
    rintro rfl
    omega
  refine ⟨owned.tasks_lt_spawn _, fun id => ?_, fun batchId => ?_, fun batchId => ?_,
    fun batchId => ?_, ?_, ?_, owned.named, fun batchId => ?_⟩
  · rw [ownerCount_spawn owned.fresh, isOwner, owns_job_scan, kept.jobs_eq, owned.jobs]
    rfl
  · rw [ownerCount_spawn owned.fresh, isOwner, scansOf_append, owned.scans]
    unfold owns
    simp
  · have before := owned.scans_le batchId
    rw [scansOf_append]
    split_ifs with isBatch
    · rw [← isBatch, noScan]
    · exact before
  · have before := owned.scans_lt batchId
    rw [scansOf_append, nextBatch]
    split_ifs with isBatch
    · omega
    · exact fun planned => (before planned).trans (Nat.lt_succ_self _)
  · intro task live batchId given found scanned
    rcases eq_or_found_of_spawn found with ⟨_, rfl⟩ | earlier
    · rw [isScan, Option.some.injEq, Prod.mk.injEq] at scanned
      obtain ⟨rfl, rfl⟩ := scanned
      exact isScanning
    · exact (others _ (isOther (owned.scansOf_of_live earlier scanned))).trans
        (owned.live_scanned _ _ _ _ earlier scanned)
  · intro message member batchId given scanned
    exact (others _ (isOther (owned.scansOf_of_message member scanned))).trans
      (owned.message_scanned _ member _ _ scanned)
  · intro isOn
    rw [scansOf_append]
    by_cases isBatch : batchId = scan.batchId
    · rw [isBatch, noScan, if_pos rfl]
    · rw [if_neg (Ne.symm isBatch), Nat.add_zero]
      exact owned.scanning batchId ((others _ isBatch).symm.trans isOn)

/-- A message about a running job is handled, after which the job no longer runs. -/
theorem Owned.settlesJob (owned : engine.Owned) {message : Internal} {rest : List Internal}
    (front : engine.internal = message :: rest) (isOwner : message.owner = some (.job id))
    (runs : job.status = .inProgress) (ended : changed.status ≠ .inProgress)
    (change : JobChanged engine.transfers result id job changed) :
    Owned { engine with
      internal := rest
      tasks := engine.tasks.forget (.transfer id)
      transfers := result } := by
  have isRest {later : Internal} (member : later ∈ rest) : later ∈ engine.internal := by
    rw [front]
    exact List.mem_cons_of_mem _ member
  have lt := owned.scans_lt
  rw [← change.nextBatchId_eq] at lt
  refine ⟨owned.tasks_lt, fun other => ?_, fun batchId => ?_, owned.scans_le, lt,
    owned.live_scanned, fun message member => owned.message_scanned message (isRest member),
    fun message member => owned.named message (isRest member), owned.scanning⟩
  · have before := owned.jobs other
    rw [front, ownerCount_cons, isOwner] at before
    rw [ownerCount_forget, change.jobs_eq, runsOf_insert]
    split_ifs with isJob
    · subst isJob
      rw [owns_self, runsOf, change.found, Option.elim_some, runs] at before
      rw [statusRuns, if_neg ended]
      exact Nat.succ.inj before
    · rwa [owns_of_ne fun same => isJob (Owner.job.inj same).symm, Nat.add_zero] at before
  · have before := owned.scans batchId
    rwa [front, ownerCount_cons, isOwner, owns_scan_job, Nat.add_zero] at before

/-- The result of a scan is handled, after which the scan is no longer planned. -/
theorem Owned.settles (owned : engine.Owned) {batchId : Nat} {message : Internal}
    {rest : List Internal} (front : engine.internal = message :: rest)
    (isOwner : message.owner = some (.scan batchId)) :
    Owned { engine with
      internal := rest
      planning := engine.planning.filter fun scan => decide (scan.batchId ≠ batchId)
      tasks := engine.tasks.forget (.planning batchId)
      sync := ⟨engine.sync.plans, Function.update engine.sync.scanning batchId false⟩ } := by
  have isRest {later : Internal} (member : later ∈ rest) : later ∈ engine.internal := by
    rw [front]
    exact List.mem_cons_of_mem _ member
  -- Nothing is left that owns the scan.
  have noOwner : ownerCount engine.tasks rest (.scan batchId) = 0 := by
    have before := owned.scans batchId
    have once := owned.scans_le batchId
    rw [front, ownerCount_cons, isOwner, owns_self] at before
    omega
  refine ⟨owned.tasks_lt, fun id => ?_, fun other => ?_, fun other => ?_, fun other => ?_, ?_, ?_,
    fun message member => owned.named message (isRest member), fun other => ?_⟩
  · have before := owned.jobs id
    rwa [front, ownerCount_cons, isOwner, owns_job_scan, Nat.add_zero] at before
  · have before := owned.scans other
    rw [front, ownerCount_cons, isOwner] at before
    rw [ownerCount_forget, scansOf_filter]
    split_ifs with isBatch
    · rw [isBatch, noOwner]
    · rwa [owns_of_ne fun same => isBatch (Owner.scan.inj same).symm, Nat.add_zero] at before
  · rw [scansOf_filter]
    split_ifs
    · exact Nat.zero_le _
    · exact owned.scans_le other
  · rw [scansOf_filter]
    split_ifs
    · exact fun planned => absurd planned (lt_irrefl _)
    · exact owned.scans_lt other
  · intro task live other kind found scanned
    dsimp only
    rw [Function.update_of_ne]
    · exact owned.live_scanned _ _ _ _ found scanned
    · rintro rfl
      have pos := @ownerCount_pos_of_live engine.tasks rest _ _ _ found (owner_of_scanned scanned)
      omega
  · intro message member other kind scanned
    dsimp only
    rw [Function.update_of_ne]
    · exact owned.message_scanned _ (isRest member) _ _ scanned
    · rintro rfl
      have pos := @ownerCount_pos_of_message engine.tasks rest _ _ member
        (owner_of_message_scanned scanned)
      omega
  · rw [scansOf_filter]
    dsimp only
    by_cases isBatch : other = batchId
    · rw [isBatch, Function.update_self]
      exact nofun
    · rw [Function.update_of_ne isBatch, if_neg isBatch]
      exact owned.scanning other

theorem Owned.setInternal (owned : engine.Owned) {internal : List Internal}
    (counts : ∀ owner, ownerCount engine.tasks internal owner =
      ownerCount engine.tasks engine.internal owner)
    (new : ∀ message ∈ internal, message ∈ engine.internal ∨
      message.scanned = none ∧ message.PlanNamed) : Owned { engine with internal } := by
  refine ⟨owned.tasks_lt, fun id => (counts _).trans (owned.jobs id),
    fun batchId => (counts _).trans (owned.scans batchId), owned.scans_le, owned.scans_lt,
    owned.live_scanned, ?_, ?_, owned.scanning⟩
  · intro message member batchId kind scanned
    rcases new message member with earlier | ⟨noScan, _⟩
    · exact owned.message_scanned _ earlier _ _ scanned
    · rw [noScan] at scanned
      cases scanned
  · intro message member
    rcases new message member with earlier | ⟨_, named⟩
    · exact owned.named _ earlier
    · exact named

/-- A task hands what it owns to its last message. -/
theorem Owned.ends (owned : engine.Owned) {task : Nat} {live : Live} {message : Internal}
    (found : engine.tasks.live.get? task = some live)
    (isLast : (∃ result, live.work.result result = some message) ∨
      message = .taskPanicked live.work.name live.work.scope) :
    Owned { engine with
      tasks := engine.tasks.finish task
      internal := engine.internal ++ [message] } := by
  have fits : message.owner = live.work.owner ∧
      (message.scanned = live.work.scanned ∨ message.scanned = none) ∧ message.PlanNamed := by
    rcases isLast with ⟨result, sent⟩ | rfl
    · obtain ⟨sameOwner, sameScan, named⟩ := Work.result_fits sent
      exact ⟨sameOwner, Or.inl sameScan, named⟩
    · exact ⟨rfl, Or.inr rfl, trivial⟩
  obtain ⟨sameOwner, scan, isNamed⟩ := fits
  have counts (owner : Owner) : ownerCount (engine.tasks.finish task)
      (engine.internal ++ [message]) owner = ownerCount engine.tasks engine.internal owner := by
    rw [ownerCount_append, sameOwner, ownerCount_finish found]
  refine ⟨fun other otherLive isFound => owned.tasks_lt _ _ (found_of_finish isFound),
    fun id => (counts _).trans (owned.jobs id), fun batchId => (counts _).trans (owned.scans batchId),
    owned.scans_le, owned.scans_lt, fun other otherLive batchId kind isFound =>
      owned.live_scanned _ _ _ _ (found_of_finish isFound), ?_, ?_, owned.scanning⟩
  · intro sent member batchId kind scanned
    rcases List.mem_append.mp member with earlier | isNew
    · exact owned.message_scanned _ earlier _ _ scanned
    · rw [List.mem_singleton.mp isNew] at scanned
      rcases scan with same | none
      · exact owned.live_scanned _ _ _ _ found (same.symm.trans scanned)
      · rw [none] at scanned
        cases scanned
  · intro sent member
    rcases List.mem_append.mp member with earlier | isNew
    · exact owned.named _ earlier
    · exact List.mem_singleton.mp isNew ▸ isNamed

theorem Owned.marks (owned : engine.Owned) (scope : Scope) :
    Owned { engine with tasks := engine.tasks.cancel scope } := by
  refine ⟨?_, fun id => (ownerCount_cancel _ _).trans (owned.jobs id),
    fun batchId => (ownerCount_cancel _ _).trans (owned.scans batchId), owned.scans_le,
    owned.scans_lt, ?_, owned.message_scanned, owned.named, owned.scanning⟩
  · intro task live found
    obtain ⟨before, isBefore, _⟩ := found_of_cancel found
    exact owned.tasks_lt _ _ isBefore
  · intro task live batchId kind found scanned
    obtain ⟨before, isBefore, sameWork⟩ := found_of_cancel found
    exact owned.live_scanned _ _ _ _ isBefore (sameWork ▸ scanned)

/-- A task that settles nothing goes on. -/
theorem Owned.goesOn (owned : engine.Owned) {task : Nat} {before after : Live}
    (found : engine.tasks.live.get? task = some before) (noOwner : before.work.owner = none)
    (stillNone : after.work.owner = none) (noScan : after.work.scanned = none) :
    Owned { engine with
      tasks := { engine.tasks with live := engine.tasks.live.insert task after } } := by
  have counts (owner : Owner) : ownerCount
      { engine.tasks with live := engine.tasks.live.insert task after } engine.internal owner =
        ownerCount engine.tasks engine.internal owner := by
    rw [ownerCount, ownerCount, OrderedMap.total_insert_of_eq found]
    rw [noOwner, stillNone]
  refine ⟨?_, fun id => (counts _).trans (owned.jobs id),
    fun batchId => (counts _).trans (owned.scans batchId), owned.scans_le, owned.scans_lt, ?_,
    owned.message_scanned, owned.named, owned.scanning⟩
  · intro other live isFound
    rcases OrderedMap.get?_insert_cases isFound with ⟨rfl, _⟩ | ⟨_, earlier⟩
    · exact owned.tasks_lt _ _ found
    · exact owned.tasks_lt _ _ earlier
  · intro other live batchId kind isFound scanned
    rcases OrderedMap.get?_insert_cases isFound with ⟨_, rfl⟩ | ⟨_, earlier⟩
    · rw [noScan] at scanned
      cases scanned
    · exact owned.live_scanned _ _ _ _ earlier scanned

theorem Owned.setTransfers (owned : engine.Owned)
    (runs : ∀ id, runsOf result.jobs id = runsOf engine.transfers.jobs id)
    (batches : result.nextBatchId = engine.transfers.nextBatchId) :
    Owned { engine with transfers := result } := by
  have lt := owned.scans_lt
  rw [← batches] at lt
  exact ⟨owned.tasks_lt, fun id => (owned.jobs id).trans (runs id).symm, owned.scans,
    owned.scans_le, lt, owned.live_scanned, owned.message_scanned, owned.named, owned.scanning⟩

theorem Owned.setOthers (owned : engine.Owned) (sessions : OrderedMap Nat LiveSession)
    (nextSessionId : Nat) (connecting : List String) (reviews : List ConflictReview)
    (history : HistoryLog) (plans : OrderedMap Nat SyncPlan) :
    Owned { engine with
      sessions := sessions
      nextSessionId := nextSessionId
      connecting := connecting
      reviews := reviews
      history := history
      sync := ⟨plans, engine.sync.scanning⟩ } :=
  ⟨owned.tasks_lt, owned.jobs, owned.scans, owned.scans_le, owned.scans_lt, owned.live_scanned,
    owned.message_scanned, owned.named, owned.scanning⟩

theorem processRowChanges_eq (now : Nat) (engine : Engine) :
    ∃ history, engine.processRowChanges now =
      { engine with transfers := engine.transfers.takeChanges.1, history } := by
  have row (engine : Engine) (kind : RowKind) :
      ∃ history, processRow now engine kind = { engine with history } := by
    unfold processRow setHistory
    split
    · exact ⟨_, rfl⟩
    · split_ifs <;> exact ⟨_, rfl⟩
  have rows (kinds : List RowKind) (engine : Engine) :
      ∃ history, kinds.foldl (processRow now) engine = { engine with history } := by
    induction kinds generalizing engine with
    | nil => exact ⟨_, rfl⟩
    | cons kind rest ih =>
      obtain ⟨first, isFirst⟩ := row engine kind
      obtain ⟨last, isLast⟩ := ih { engine with history := first }
      exact ⟨last, by rw [List.foldl_cons, isFirst, isLast]⟩
  exact rows _ _

/-- Every move leaves exactly one owner for each running job and each planned scan. -/
theorem Owned.move {label : Label} {before after : Engine} (owned : before.Owned)
    (indexed : before.transfers.Indexed) (move : Move label before after) : after.Owned := by
  cases move with
  | plans scan work scanning kind isNew kept next isOwner isScan isScanning others =>
    exact owned.plans isNew kept next isOwner isScan isScanning others
  | begins waiting live room change => exact owned.begins waiting change
  | abandons waiting ended change =>
    refine owned.setTransfers (runsOf_jobChanged change ?_) change.nextBatchId_eq
    rw [waiting]
    exact statusRuns_of_isInterrupted ended
  | retries interrupted live change =>
    refine owned.setTransfers (runsOf_jobChanged change ?_) change.nextBatchId_eq
    exact (statusRuns_of_isInterrupted interrupted).symm
  | advances transferred change =>
    exact owned.setTransfers (runsOf_jobChanged change rfl) change.nextBatchId_eq
  | enqueues inBatch waiting untried live settled sameSession entered =>
    exact owned.setTransfers (runsOf_jobEntered entered indexed waiting) entered.nextBatchId_eq
  | removes finished reported removed =>
    exact owned.setTransfers (runsOf_removed removed finished) removed.nextBatchId_eq
  | books kept next => exact owned.setTransfers (fun id => by rw [kept.jobs_eq]) next
  | finishes front runs ended reported change =>
    refine owned.settlesJob front rfl runs ?_ change
    rcases ended with rfl | rfl <;> exact nofun
  | fails front isOwner runs change =>
    refine owned.settlesJob front isOwner runs ?_ change
    unfold failedJob
    split_ifs <;> exact nofun
  | settles front isOwner => exact owned.settles front isOwner
  | drops connecting front isOwner =>
    refine (owned.setOthers _ _ connecting _ _ _).setInternal (fun owner => ?_) fun message member => ?_
    · rw [front, ownerCount_cons, isOwner, owns_none, Nat.add_zero]
    · rw [front]
      exact Or.inl (List.mem_cons_of_mem _ member)
  | @connects _ name fs _ connecting front =>
    refine (owned.setOthers (before.sessions.insert before.nextSessionId ⟨name, fs⟩)
      (before.nextSessionId + 1) connecting _ _ _).setInternal (fun owner => ?_)
        fun message member => ?_
    · rw [front, ownerCount_cons]
      rfl
    · rw [front]
      exact Or.inl (List.mem_cons_of_mem _ member)
  | @disconnects _ session name noneWaiting allMarked noReview noPlan =>
    exact owned.setOthers (before.sessions.erase session) _ _ _
      (before.history.rememberSession session name) _
  | marks isOwner => exact owned.marks _
  | reviews review live settled noJobs => exact owned.setOthers _ _ _ (before.reviews ++ [review]) _ _
  | @closesReviews _ reviews fewer => exact owned.setOthers _ _ _ reviews _ _
  | opensPlan batchId plan named live settled =>
    exact owned.setOthers _ _ _ _ _ (before.sync.plans.insert batchId plan)
  | @closesPlans _ plans fewer => exact owned.setOthers _ _ _ _ _ plans
  | works connecting work isOwner isScan => exact owned.works connecting isOwner isScan
  | records now =>
    obtain ⟨history, same⟩ := processRowChanges_eq now before
    rw [same]
    exact (owned.setOthers _ _ _ _ history _).setTransfers (fun _ => rfl) rfl
  | @logs _ history recorded counted stored => exact owned.setOthers _ _ _ _ history _
  | tells message isOwner isScan named =>
    refine owned.setInternal (fun owner => ?_) fun sent member => ?_
    · rw [ownerCount_append, isOwner, owns_none, Nat.add_zero]
    · rcases List.mem_append.mp member with earlier | isNew
      · exact Or.inl earlier
      · rw [List.mem_singleton.mp isNew]
        exact Or.inr ⟨isScan, named⟩
  | ends found isLast => exact owned.ends found isLast
  | removesPart found => exact owned.goesOn found rfl rfl rfl

end Engine

end Porthmos
