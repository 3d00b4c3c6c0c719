import Porthmos.EngineProgress

/-!
# Retries, cancels and disconnects

A job is attempted no more than three times unless the user retries it.  What the user
cancels is not attempted again before that, and what belongs to a session that is gone is
not attempted at all.
-/

namespace Porthmos

open TransferQueue

namespace Engine

variable {engine : Engine} {label : Label} {before after : Engine} {id : Nat}

/-! ### Attempts -/

/-- The live tasks that transfer a job and are not older than a number. -/
def transfersSince (since id : Nat) (tasks : Tasks) : Nat :=
  tasks.live.total fun task live =>
    if since ≤ task ∧ live.work.scope = .transfer id then 1 else 0

/-- The transfer tasks that a step starts for a job.  No step both starts a task and ends
one. -/
def startedBy (step : EngineStep) (engine : Engine) (id : Nat) : Nat :=
  transfersSince engine.tasks.next id (step.next engine).tasks

/-- The transfer tasks that a run starts for a job. -/
def startedIn (id : Nat) : Engine → List EngineStep → Nat
  | _, [] => 0
  | engine, step :: rest => startedBy step engine id + startedIn id (step.next engine) rest

/-- The step is a `RetryRow` that puts the job back into the queue. -/
def Requeues (engine : Engine) (id : Nat) (step : EngineStep) : Prop :=
  ∃ moment kind first, step = .command moment (.retryRow kind) ∧ id ∈ engine.retryableIds kind ∧
    (engine.retryableIds kind).head?.bind engine.transfers.get = some first ∧
    engine.connected first.sessionId = true

/-- No step of the run puts the job back into the queue. -/
def NeverRequeued (id : Nat) : Engine → List EngineStep → Prop
  | _, [] => True
  | engine, step :: rest => ¬ engine.Requeues id step ∧ NeverRequeued id (step.next engine) rest

/-- The attempts that are left for a job. -/
def attemptsLeft (queue : TransferQueue) (id : Nat) : Nat :=
  match queue.jobs.get? id with
  | some job => maxAttempts - job.attempts
  | none => if id < queue.nextId then 0 else maxAttempts

theorem not_allows_retries {step : EngineStep} (notRequeued : ¬ engine.Requeues id step) :
    ¬ Allows engine step (.retries id) := by
  rintro (plain | permits)
  · exact plain
  · cases permits with
    | retries member isFirst live => exact notRequeued ⟨_, _, _, rfl, member, isFirst, live⟩

theorem attemptsLeft_of_some {queue : TransferQueue} {job : TransferJob}
    (found : queue.jobs.get? id = some job) : attemptsLeft queue id = maxAttempts - job.attempts := by
  rw [attemptsLeft, found]

theorem attemptsLeft_of_none {queue : TransferQueue} (absent : queue.jobs.get? id = none) :
    attemptsLeft queue id = if id < queue.nextId then 0 else maxAttempts := by
  rw [attemptsLeft, absent]

theorem attemptsLeft_congr {queue result : TransferQueue}
    (sameJob : result.jobs.get? id = queue.jobs.get? id) (sameNext : result.nextId = queue.nextId) :
    attemptsLeft result id = attemptsLeft queue id := by
  rw [attemptsLeft, sameJob, sameNext, ← attemptsLeft]

theorem attemptsLeft_le (queue : TransferQueue) (id : Nat) : attemptsLeft queue id ≤ maxAttempts := by
  cases found : queue.jobs.get? id with
  | none =>
    rw [attemptsLeft_of_none found]
    split_ifs
    · exact Nat.zero_le _
    · exact le_rfl
  | some job => exact attemptsLeft_of_some found ▸ Nat.sub_le _ _

/-! ### What a move starts -/

theorem transfersSince_cancel (since id : Nat) (tasks : Tasks) (scope : Scope) :
    transfersSince since id (tasks.cancel scope) = transfersSince since id tasks := by
  have sameWork (live : Live) :
      (if live.work.scope = scope then { live with cancel := true } else live).work = live.work := by
    split_ifs <;> rfl
  rw [transfersSince, Tasks.cancel, total_map]
  simp only [sameWork]
  rfl

theorem transfersSince_spawn (since id : Nat) {tasks : Tasks} {work : Work}
    (fresh : tasks.live.get? tasks.next = none) (other : work.scope ≠ .transfer id) :
    transfersSince since id (tasks.spawn work) = transfersSince since id tasks := by
  rw [transfersSince, Tasks.spawn, OrderedMap.total_insert_new fresh, if_neg fun both => other both.2]
  rfl

theorem scope_of_owner_ne {work : Work} (other : work.owner ≠ some (.job id)) :
    work.scope ≠ .transfer id := by
  intro same
  exact other (by rw [Work.owner, same]; rfl)

/-- Only `begins` starts a task for a job. -/
theorem transfersSince_move (since id : Nat) (sound : before.Sound) (move : Move label before after)
    (notBegins : label ≠ .begins id) :
    transfersSince since id after.tasks ≤ transfersSince since id before.tasks := by
  cases move with
  | plans scan work scanning kind isNew kept next isOwner =>
    exact (transfersSince_spawn since id sound.owned.fresh
      (scope_of_owner_ne (by simp [isOwner]))).le
  | begins waiting live room change =>
    refine (transfersSince_spawn since id sound.owned.fresh ?_).le
    exact fun same => notBegins (congrArg Label.begins (Scope.transfer.inj same))
  | marks isOwner => exact (transfersSince_cancel since id before.tasks _).le
  | works connecting work isOwner isScan =>
    exact (transfersSince_spawn since id sound.owned.fresh
      (scope_of_owner_ne (by simp [isOwner]))).le
  | records now =>
    obtain ⟨history, same⟩ := processRowChanges_eq now before
    rw [same]
  | ends found isLast =>
    exact Nat.le_of_add_right_le (OrderedMap.total_erase before.tasks.live _ _).le
  | removesPart found =>
    refine (OrderedMap.total_insert_of_eq found ?_).le
    rfl
  | abandons | retries | advances | enqueues | removes | books | finishes | fails | settles | drops
  | connects | disconnects | reviews | closesReviews | opensPlan | closesPlans | logs | tells =>
    exact le_rfl

theorem transfersSince_spawn_le (since id : Nat) {tasks : Tasks} (work : Work)
    (fresh : tasks.live.get? tasks.next = none) :
    transfersSince since id (tasks.spawn work) ≤ transfersSince since id tasks + 1 := by
  rw [transfersSince, Tasks.spawn, OrderedMap.total_insert_new fresh]
  refine Nat.add_le_add_left ?_ _
  split_ifs
  · exact le_rfl
  · exact Nat.zero_le _

/-! ### Attempts are used up -/

theorem attemptsLeft_change {queue result : TransferQueue} {other : Nat} {job changed : TransferJob}
    (change : JobChanged queue result other job changed)
    (same : other = id → changed.attempts = job.attempts) :
    attemptsLeft result id = attemptsLeft queue id := by
  by_cases isJob : other = id
  · subst isJob
    rw [attemptsLeft_of_some change.found, attemptsLeft_of_some change.get?_self, same rfl]
  · refine attemptsLeft_congr ?_ change.nextId_eq
    rw [change.jobs_eq, OrderedMap.get?_insert, if_neg (Ne.symm isJob)]

theorem attemptsLeft_entered {queue result : TransferQueue} {job : TransferJob}
    (indexed : queue.Indexed) (entered : JobEntered queue result job) :
    attemptsLeft result id ≤ attemptsLeft queue id := by
  have absent := indexed.fresh_nextId
  by_cases isNew : id = queue.nextId
  · subst isNew
    rw [attemptsLeft_of_none absent, if_neg (lt_irrefl _)]
    exact attemptsLeft_le _ _
  · have sameJob : result.jobs.get? id = queue.jobs.get? id := by
      rw [entered.jobs_eq, OrderedMap.get?_insert, if_neg isNew]
    cases found : queue.jobs.get? id with
    | some job => rw [attemptsLeft_of_some found, attemptsLeft_of_some (sameJob.trans found)]
    | none =>
      rw [attemptsLeft_of_none found, attemptsLeft_of_none (sameJob.trans found), entered.nextId_eq]
      split_ifs <;> omega

theorem attemptsLeft_removed {queue result : TransferQueue} {ids : List Nat}
    (indexed : queue.Indexed) (removed : Removed queue result ids) :
    attemptsLeft result id ≤ attemptsLeft queue id := by
  by_cases isRemoved : id ∈ ids
  · have gone : result.jobs.get? id = none := by rw [removed.jobs_eq, if_pos isRemoved]
    rw [attemptsLeft_of_none gone, removed.nextId_eq]
    cases found : queue.jobs.get? id with
    | some job =>
      rw [if_pos (indexed.jobs_id id job found).2]
      exact Nat.zero_le _
    | none => rw [attemptsLeft_of_none found]
  · exact (attemptsLeft_congr (by rw [removed.jobs_eq, if_neg isRemoved]) removed.nextId_eq).le

/-- What a move starts, it takes off the attempts that are left. -/
theorem attempts_paid (since id : Nat) (sound : before.Sound) (move : Move label before after)
    (notRetries : label ≠ .retries id) :
    transfersSince since id after.tasks + attemptsLeft after.transfers id ≤
      transfersSince since id before.tasks + attemptsLeft before.transfers id := by
  have started := transfersSince_move since id sound move
  have paid (notBegins : label ≠ .begins id)
      (left : attemptsLeft after.transfers id ≤ attemptsLeft before.transfers id) :
      transfersSince since id after.tasks + attemptsLeft after.transfers id ≤
        transfersSince since id before.tasks + attemptsLeft before.transfers id :=
    Nat.add_le_add (started notBegins) left
  cases move with
  | plans scan work scanning kind isNew kept =>
    exact paid nofun (attemptsLeft_congr (by rw [kept.jobs_eq]) kept.nextId_eq).le
  | @begins _ _ other job waiting live room change =>
    by_cases isJob : other = id
    · subst isJob
      have tried := sound.attempts _ _ change.found
      have left := tried.waiting waiting
      have more := transfersSince_spawn_le since other (.transfer other) sound.owned.fresh
      rw [attemptsLeft_of_some change.found, attemptsLeft_of_some change.get?_self]
      change _ + (maxAttempts - (job.attempts + 1)) ≤ _
      change transfersSince since other (before.tasks.spawn (.transfer other)) + _ ≤ _
      omega
    · exact paid (fun same => isJob (Label.begins.inj same))
        (attemptsLeft_change change fun same => absurd same isJob).le
  | abandons waiting ended change => exact paid nofun (attemptsLeft_change change fun _ => rfl).le
  | @retries _ _ other job interrupted live change =>
    refine paid nofun (attemptsLeft_change change fun same => ?_).le
    exact absurd (congrArg Label.retries same) notRetries
  | advances transferred change => exact paid nofun (attemptsLeft_change change fun _ => rfl).le
  | enqueues inBatch waiting untried live settled sameSession entered =>
    exact paid nofun (attemptsLeft_entered sound.indexed entered)
  | removes finished reported removed =>
    exact paid nofun (attemptsLeft_removed sound.indexed removed)
  | books kept next =>
    exact paid nofun (attemptsLeft_congr (by rw [kept.jobs_eq]) kept.nextId_eq).le
  | finishes front runs ended reported change =>
    exact paid nofun (attemptsLeft_change change fun _ => rfl).le
  | fails front isOwner runs change =>
    refine paid nofun (attemptsLeft_change change fun _ => ?_).le
    unfold failedJob
    split_ifs <;> rfl
  | records now =>
    obtain ⟨history, same⟩ := processRowChanges_eq now before
    rw [same]
    exact le_rfl
  | settles | drops | connects | disconnects | marks | reviews | closesReviews | opensPlan
  | closesPlans | works | logs | tells | ends | removesPart => exact paid nofun le_rfl

theorem transfersSince_of_lt {since : Nat} {tasks : Tasks}
    (older : ∀ task live, tasks.live.get? task = some live → task < since) :
    transfersSince since id tasks = 0 :=
  OrderedMap.total_eq_zero fun task live found =>
    if_neg fun both => absurd (older task live found) both.1.not_gt

theorem Steady.startedBy_paid (steady : engine.Steady) {step : EngineStep}
    (notRequeued : ¬ engine.Requeues id step) :
    startedBy step engine id + attemptsLeft (step.next engine).transfers id ≤
      attemptsLeft engine.transfers id := by
  have start : transfersSince engine.tasks.next id engine.tasks = 0 :=
    transfersSince_of_lt steady.sound.owned.tasks_lt
  refine ((steady.moves step).invariant
    (fun later => transfersSince engine.tasks.next id later.tasks + attemptsLeft later.transfers id ≤
      attemptsLeft engine.transfers id) steady.sound ?_
    fun allows sound move paid => (attempts_paid _ _ sound move ?_).trans paid).2
  · rw [start, Nat.zero_add]
  · rintro rfl
    exact not_allows_retries notRequeued allows

/-- What `RetryRow` puts back is started at most once in the same step. -/
theorem Steady.startedBy_requeued (steady : engine.Steady) {moment : Moment} {kind : RowKind} :
    startedBy (.command moment (.retryRow kind)) engine id +
      attemptsLeft (EngineStep.next engine (.command moment (.retryRow kind))).transfers id ≤
        maxAttempts := by
  have start : transfersSince engine.tasks.next id engine.tasks = 0 :=
    transfersSince_of_lt steady.sound.owned.tasks_lt
  -- Once it is started it runs until the step is over.
  have once := ((steady.moves (.command moment (.retryRow kind))).invariant
    (fun later => transfersSince engine.tasks.next id later.tasks = 0 ∨
      transfersSince engine.tasks.next id later.tasks + attemptsLeft later.transfers id ≤
        maxAttempts ∧ later.Running id) steady.sound (Or.inl start) ?_).2
  · rcases once with none | ⟨paid, _⟩
    · rw [startedBy, none, Nat.zero_add]
      exact attemptsLeft_le _ _
    · exact paid
  · intro label before after allows sound move earlier
    have started := transfersSince_move engine.tasks.next id sound move
    have noFinish (other : Nat) : label ≠ .finishes other := by
      rintro rfl
      rcases allows with plain | permits
      · exact plain
      · cases permits
    have noFail (other : Nat) : label ≠ .fails other := by
      rintro rfl
      rcases allows with plain | permits
      · exact plain
      · cases permits
    rcases earlier with none | ⟨paid, running⟩
    · by_cases begins : label = .begins id
      · subst begins
        have total := attempts_paid engine.tasks.next id sound move nofun
        rw [none, Nat.zero_add] at total
        cases move with
        | begins waiting live room change =>
          exact Or.inr ⟨total.trans (attemptsLeft_le _ _), _, change.get?_self, rfl⟩
      · exact Or.inl (Nat.eq_zero_of_le_zero (none ▸ started begins))
    · refine Or.inr ⟨(attempts_paid _ _ sound move ?_).trans paid,
        running_stays running sound move noFinish noFail⟩
      rintro rfl
      obtain ⟨job, found, runs⟩ := running
      cases move with
      | retries interrupted live change =>
        rw [change.found] at found
        cases found
        exact (isInterrupted_ne interrupted).2 runs

theorem Steady.startedBy_le (steady : engine.Steady) (step : EngineStep) :
    startedBy step engine id + attemptsLeft (step.next engine).transfers id ≤ maxAttempts := by
  by_cases requeued : engine.Requeues id step
  · obtain ⟨moment, kind, first, rfl, _⟩ := requeued
    exact steady.startedBy_requeued
  · exact (steady.startedBy_paid requeued).trans (attemptsLeft_le _ _)

theorem Steady.startedIn_paid (steady : engine.Steady) {steps : List EngineStep}
    (never : NeverRequeued id engine steps) :
    startedIn id engine steps + attemptsLeft (engine.after steps).transfers id ≤
      attemptsLeft engine.transfers id := by
  induction steps generalizing engine with
  | nil => exact (Nat.zero_add _).le
  | cons step rest ih =>
    have later := ih (steady.next step) never.2
    have first := steady.startedBy_paid never.1
    rw [startedIn]
    change _ + attemptsLeft ((step.next engine).after rest).transfers id ≤ _
    omega

/-! ### What is cancelled -/

/-- The job does not wait, and if it runs it is marked. -/
structure Stopped (id : Nat) (queue : TransferQueue) (cancelled : Scope → Bool) : Prop where
  known : id < queue.nextId
  notWaiting : ∀ job, queue.jobs.get? id = some job → job.status ≠ .queued
  marked : ∀ job, queue.jobs.get? id = some job → job.status = .inProgress →
    cancelled (.transfer id) = true

theorem Stopped.change {queue result : TransferQueue} {cancelled marks : Scope → Bool} {other : Nat}
    {job changed : TransferJob} (stopped : Stopped id queue cancelled)
    (change : JobChanged queue result other job changed)
    (marksKept : other ≠ id → cancelled (.transfer id) = true → marks (.transfer id) = true)
    (ended : other = id → changed.status ≠ .queued ∧
      (changed.status = .inProgress → marks (.transfer id) = true)) : Stopped id result marks := by
  refine ⟨change.nextId_eq.symm ▸ stopped.known, fun last found => ?_, fun last found runs => ?_⟩
  · rw [change.jobs_eq] at found
    rcases OrderedMap.get?_insert_cases found with ⟨same, rfl⟩ | ⟨_, earlier⟩
    · exact (ended same.symm).1
    · exact stopped.notWaiting last earlier
  · rw [change.jobs_eq] at found
    rcases OrderedMap.get?_insert_cases found with ⟨same, rfl⟩ | ⟨isOther, earlier⟩
    · exact (ended same.symm).2 runs
    · exact marksKept (Ne.symm isOther) (stopped.marked last earlier runs)

/-- Nothing but a retry gets a stopped job going. -/
theorem Stopped.move (stopped : Stopped id before.transfers before.tasks.cancelled)
    (move : Move label before after) (notRetries : label ≠ .retries id) :
    Stopped id after.transfers after.tasks.cancelled := by
  have same {queue : TransferQueue} (kept : JobsKept before.transfers queue) :
      Stopped id queue before.tasks.cancelled :=
    ⟨kept.nextId_eq.symm ▸ stopped.known, kept.jobs_eq.symm ▸ stopped.notWaiting,
      kept.jobs_eq.symm ▸ stopped.marked⟩
  cases move with
  | plans scan work scanning kind isNew kept => exact same kept
  | begins waiting live room change =>
    refine stopped.change change (fun _ marked => marked) ?_
    rintro rfl
    exact absurd waiting (stopped.notWaiting _ change.found)
  | abandons waiting ended change =>
    refine stopped.change change (fun _ marked => marked) ?_
    rintro rfl
    exact absurd waiting (stopped.notWaiting _ change.found)
  | retries interrupted live change =>
    refine stopped.change change (fun _ marked => marked) ?_
    rintro rfl
    exact absurd rfl notRetries
  | advances transferred change =>
    refine stopped.change change (fun _ marked => marked) ?_
    rintro rfl
    exact ⟨fun waits => stopped.notWaiting _ change.found waits,
      fun runs => stopped.marked _ change.found runs⟩
  | @enqueues _ transfers _ _ inBatch waiting untried live settled sameSession entered =>
    have old {job : TransferJob} (found : transfers.jobs.get? id = some job) :
        before.transfers.jobs.get? id = some job := by
      rwa [entered.jobs_eq, OrderedMap.get?_insert, if_neg stopped.known.ne] at found
    exact ⟨entered.nextId_eq.symm ▸ Nat.lt_succ_of_lt stopped.known,
      fun job found => stopped.notWaiting job (old found),
      fun job found => stopped.marked job (old found)⟩
  | @removes _ transfers _ finished reported removed =>
    have old {job : TransferJob} (found : transfers.jobs.get? id = some job) :
        before.transfers.jobs.get? id = some job := by
      rw [removed.jobs_eq] at found
      split_ifs at found
      exact found
    exact ⟨removed.nextId_eq.symm ▸ stopped.known, fun job found => stopped.notWaiting job (old found),
      fun job found => stopped.marked job (old found)⟩
  | books kept next => exact same kept
  | finishes front runs ended reported change =>
    refine stopped.change change (fun isOther marked => ?_) fun _ => ?_
    · exact (forget_other _ (Ne.symm isOther)).trans marked
    · rcases ended with rfl | rfl <;> exact ⟨nofun, nofun⟩
  | @fails _ _ other job text message rest front isOwner runs change =>
    refine stopped.change change (fun isOther marked => ?_) ?_
    · exact (forget_other _ (Ne.symm isOther)).trans marked
    · rintro rfl
      -- The mark turns the failure into a cancel.
      rw [failedJob, if_pos (stopped.marked _ change.found runs)]
      exact ⟨nofun, nofun⟩
  | @settles _ batchId _ _ front isOwner =>
    have isOther : Scope.transfer id ≠ .planning batchId := nofun
    exact ⟨stopped.known, stopped.notWaiting, fun job found runs =>
      (forget_of_ne _ isOther).trans (stopped.marked job found runs)⟩
  | marks isOwner =>
    refine ⟨stopped.known, stopped.notWaiting, fun job found runs => ?_⟩
    have marked := stopped.marked job found runs
    change Function.update before.tasks.cancelled _ true _ = true
    rw [Function.update_apply]
    split_ifs
    · rfl
    · exact marked
  | records now =>
    obtain ⟨history, same⟩ := processRowChanges_eq now before
    rw [same]
    exact ⟨stopped.known, stopped.notWaiting, stopped.marked⟩
  | drops | connects | disconnects | reviews | closesReviews | opensPlan | closesPlans | works
  | logs | tells | ends | removesPart => exact stopped

/-- What cancels a job: a cancel of everything or of the row it is in. -/
inductive Cancels (engine : Engine) (id : Nat) : EngineStep → Prop
  | all {moment : Moment} : Cancels engine id (.command moment .cancelAllTransfers)
  | row {moment : Moment} {job : TransferJob} (found : engine.transfers.jobs.get? id = some job) :
      Cancels engine id (.command moment (.cancelRow (kindOf job)))

theorem Stopped.plain (stopped : Stopped id before.transfers before.tasks.cancelled)
    (sound : before.Sound) (moves : Moves Label.Plain before after) :
    Stopped id after.transfers after.tasks.cancelled := by
  refine (moves.invariant (fun later => Stopped id later.transfers later.tasks.cancelled) sound
    stopped fun {label} _ _ isPlain _ move still => still.move move ?_).2
  rintro rfl
  exact isPlain

theorem cancelJob_stopped (sound : engine.Sound) {job : TransferJob}
    (found : engine.transfers.jobs.get? id = some job) (pending : job.status.isPending = true) :
    Stopped id (engine.cancelJob id).transfers (engine.cancelJob id).tasks.cancelled := by
  have known := (sound.indexed.jobs_id id job found).2
  unfold cancelJob TransferQueue.get
  rw [found]
  dsimp only
  cases status : job.status with
  | queued =>
    have change : JobChanged engine.transfers
        (engine.transfers.editGuarded id (setStatus .cancelled)) id job (setStatus .cancelled job) :=
      sound.indexed.editGuarded_jobChanged found ⟨rfl, rfl, rfl, rfl, rfl⟩
    refine ⟨change.nextId_eq.symm ▸ known, fun last isLast => ?_, fun last isLast => ?_⟩ <;>
      cases change.get?_self.symm.trans isLast <;> exact nofun
  | inProgress =>
    refine ⟨known, fun last isLast => ?_, fun _ _ _ => Function.update_self _ _ _⟩
    rw [Option.some.inj (isLast.symm.trans found), status]
    exact nofun
  | completed | cancelled =>
    rw [status] at pending
    cases pending
  | failed message =>
    rw [status] at pending
    cases pending

theorem cancelJob_other (sound : engine.Sound) {other : Nat} (isOther : id ≠ other) :
    (engine.cancelJob other).transfers.jobs.get? id = engine.transfers.jobs.get? id := by
  unfold cancelJob TransferQueue.get
  cases found : engine.transfers.jobs.get? other with
  | none => rfl
  | some job =>
    dsimp only
    cases job.status with
    | queued =>
      have change : JobChanged engine.transfers
          (engine.transfers.editGuarded other (setStatus .cancelled)) other job
          (setStatus .cancelled job) :=
        sound.indexed.editGuarded_jobChanged found ⟨rfl, rfl, rfl, rfl, rfl⟩
      change (engine.transfers.editGuarded other (setStatus .cancelled)).jobs.get? id = _
      rw [change.jobs_eq, OrderedMap.get?_insert, if_neg isOther]
    | inProgress | completed | cancelled => rfl
    | failed message => rfl

theorem foldl_cancelJob_stopped (sound : engine.Sound) {ids : List Nat} (member : id ∈ ids)
    {job : TransferJob} (found : engine.transfers.jobs.get? id = some job)
    (pending : job.status.isPending = true) :
    Stopped id (ids.foldl cancelJob engine).transfers
      (ids.foldl cancelJob engine).tasks.cancelled := by
  induction ids generalizing engine with
  | nil => exact absurd member List.not_mem_nil
  | cons first rest ih =>
    have moves := cancelJob_moves sound first
    have firstSound := moves.sound sound
    by_cases isFirst : id = first
    · subst isFirst
      exact (cancelJob_stopped sound found pending).plain firstSound
        (foldl_plain rest firstSound fun _ other isSound => cancelJob_moves isSound other)
    · exact ih firstSound ((List.mem_cons.mp member).resolve_left isFirst)
        ((cancelJob_other sound isFirst).trans found)

theorem cancelAllCopies_stopped (sound : engine.Sound) {job : TransferJob}
    (found : engine.transfers.jobs.get? id = some job) :
    Stopped id engine.cancelAllCopies.transfers engine.cancelAllCopies.tasks.cancelled := by
  have dropped := dropConflictReviews_moves sound fun _ => true
  have marked := dropped.trans (dropSyncPlans_moves fun _ => true)
  obtain ⟨jobs, _, _, _⟩ := dropConflictReviews_keeps engine fun _ => true
  unfold cancelAllCopies
  dsimp only
  rw [cancelAllWork_eq]
  generalize middle : (engine.dropConflictReviews fun _ => true).dropSyncPlans (fun _ => true) =
    dropping at marked ⊢
  have sameJobs : dropping.transfers.jobs = engine.transfers.jobs := middle ▸ jobs
  have droppingSound := marked.sound sound
  have known := (droppingSound.indexed.jobs_id id job (sameJobs ▸ found)).2
  have bulk := droppingSound.indexed.cancelAllQueued
  have changed {last : TransferJob}
      (isLast : dropping.transfers.cancelAllQueued.1.jobs.get? id = some last) :
      last.status ≠ .queued ∧ (last.status = .inProgress →
        dropping.transfers.jobs.get? id = some last) := by
    obtain ⟨earlier, isEarlier, isChange⟩ := Option.map_eq_some_iff.mp
      ((bulk.jobs_eq id).symm.trans isLast)
    split_ifs at isChange with waited
    · rw [← isChange]
      exact ⟨nofun, nofun⟩
    · rw [← isChange]
      exact ⟨waited, fun _ => isEarlier⟩
  change Stopped id ((List.foldl cancelScope dropping _).transfers.cancelAllQueued.1) _
  rw [foldl_cancelScope_transfers]
  refine ⟨bulk.nextId_eq.symm ▸ known, fun last isLast => (changed isLast).1,
    fun last isLast runs => mem_foldl_cancelScope (Or.inl (List.mem_append_right _ ?_))⟩
  -- What runs was among the active jobs.
  have isActive := (changed isLast).2 runs
  refine List.mem_map.mpr ⟨last, ?_, congrArg Scope.transfer
    (droppingSound.indexed.jobs_id id last isActive).1⟩
  rw [droppingSound.indexed.activeJobs_eq]
  exact List.mem_filter.mpr ⟨OrderedMap.mem_values_iff.mpr ⟨id, isActive⟩, decide_eq_true runs⟩

theorem foldl_cancelScope_next (engine : Engine) (scopes : List Scope) :
    (scopes.foldl cancelScope engine).tasks.next = engine.tasks.next := by
  induction scopes generalizing engine with
  | nil => rfl
  | cons first rest ih => exact ih (engine.cancelScope first)

theorem foldl_cancelJob_next (engine : Engine) (ids : List Nat) :
    (ids.foldl cancelJob engine).tasks.next = engine.tasks.next := by
  induction ids generalizing engine with
  | nil => rfl
  | cons first rest ih =>
    refine (ih (engine.cancelJob first)).trans ?_
    unfold cancelJob
    split
    · rfl
    · split <;> rfl

theorem cancelAllCopies_next (engine : Engine) :
    engine.cancelAllCopies.tasks.next = engine.tasks.next := by
  obtain ⟨_, tasks, _⟩ := dropConflictReviews_keeps engine fun _ => true
  unfold cancelAllCopies
  dsimp only
  rw [cancelAllWork_eq]
  exact (foldl_cancelScope_next _ _).trans (congrArg Tasks.next tasks)

theorem cancelRow_kindOf (engine : Engine) (job : TransferJob) : engine.cancelRow (kindOf job) =
      ((engine.transfers.jobsOf (kindOf job)).map TransferJob.id).foldl cancelJob engine := by
  unfold kindOf
  cases job.batchId <;> rfl

/-- A cancel stops the job, and starts nothing. -/
theorem Cancels.stopped {step : EngineStep} (cancels : Cancels engine id step)
    (sound : engine.Sound) {job : TransferJob} (found : engine.transfers.jobs.get? id = some job)
    (pending : job.status.isPending = true) :
    Stopped id (step.next engine).transfers (step.next engine).tasks.cancelled ∧
      (step.next engine).tasks.next = engine.tasks.next := by
  have then_records {moment : Moment} {middle : Engine} (isSound : middle.Sound)
      (stopped : Stopped id middle.transfers middle.tasks.cancelled)
      (next : middle.tasks.next = engine.tasks.next) :
      Stopped id ((middle.processRowChanges moment.now).requestPublish moment).transfers
          ((middle.processRowChanges moment.now).requestPublish moment).tasks.cancelled ∧
        ((middle.processRowChanges moment.now).requestPublish moment).tasks.next =
          engine.tasks.next := by
    constructor
    · exact stopped.plain isSound (publish_moves moment middle)
    · obtain ⟨history, same⟩ := publish_eq moment middle
      rw [same]
      exact next
  cases cancels with
  | all =>
    exact then_records ((cancelAllCopies_moves sound).sound sound)
      (cancelAllCopies_stopped sound found) (cancelAllCopies_next engine)
  | @row _ inRow foundInRow =>
    cases found.symm.trans foundInRow
    have isId := (sound.indexed.jobs_id id job found).1
    have member : id ∈ (engine.transfers.jobsOf (kindOf job)).map TransferJob.id :=
      List.mem_map.mpr ⟨job, sound.indexed.mem_jobsOf.mpr ⟨isId.symm ▸ found, rfl⟩, isId⟩
    refine then_records ((cancelRow_moves sound (kindOf job)).sound sound) ?_ ?_
    · change Stopped id (engine.cancelRow (kindOf job)).transfers
        (engine.cancelRow (kindOf job)).tasks.cancelled
      rw [cancelRow_kindOf]
      exact foldl_cancelJob_stopped sound member found pending
    · change (engine.cancelRow (kindOf job)).tasks.next = _
      rw [cancelRow_kindOf]
      exact foldl_cancelJob_next engine _

theorem Steady.stopped_next (steady : engine.Steady) {step : EngineStep}
    (stopped : Stopped id engine.transfers engine.tasks.cancelled)
    (notRequeued : ¬ engine.Requeues id step) :
    Stopped id (step.next engine).transfers (step.next engine).tasks.cancelled ∧
      startedBy step engine id = 0 := by
  refine ((steady.moves step).invariant
    (fun later => Stopped id later.transfers later.tasks.cancelled ∧
      transfersSince engine.tasks.next id later.tasks = 0) steady.sound
    ⟨stopped, transfersSince_of_lt steady.sound.owned.tasks_lt⟩ ?_).2
  intro label before after allows sound move ⟨still, noneYet⟩
  have notRetries : label ≠ .retries id := by
    rintro rfl
    exact not_allows_retries notRequeued allows
  have notBegins : label ≠ .begins id := by
    rintro rfl
    cases move with
    | begins waiting live room change => exact still.notWaiting _ change.found waiting
  exact ⟨still.move move notRetries, Nat.eq_zero_of_le_zero
    (noneYet ▸ transfersSince_move engine.tasks.next id sound move notBegins)⟩

theorem Steady.stopped_startedIn (steady : engine.Steady) {steps : List EngineStep}
    (stopped : Stopped id engine.transfers engine.tasks.cancelled)
    (never : NeverRequeued id engine steps) : startedIn id engine steps = 0 := by
  induction steps generalizing engine with
  | nil => rfl
  | cons step rest ih =>
    obtain ⟨still, none⟩ := steady.stopped_next stopped never.1
    rw [startedIn, none, ih (steady.next step) still never.2]

/-- In any run, no more than three transfer tasks are started for a job from a step on, be it
the one that queues the job or a `RetryRow`, until a `RetryRow` requeues it.  Once the job
was cancelled while it waited or ran, none is. -/
theorem startedIn_of_run (localFs : FsTraits) (maxParallel : Nat) (onConflict : ConflictPolicy)
    (store : List HistoryEntry) (earlier : List EngineStep) (step : EngineStep)
    (rest : List EngineStep) (id : Nat)
    (never : NeverRequeued id
      ((Engine.new localFs maxParallel onConflict store).after (earlier ++ [step])) rest) :
    startedIn id ((Engine.new localFs maxParallel onConflict store).after earlier)
        (step :: rest) ≤ 3 ∧
      ∀ job, ((Engine.new localFs maxParallel onConflict store).after
          earlier).transfers.jobs.get? id = some job → job.status.isPending = true →
        Cancels ((Engine.new localFs maxParallel onConflict store).after earlier) id step →
        startedIn id ((Engine.new localFs maxParallel onConflict store).after earlier)
          (step :: rest) = 0 := by
  have steady := (steady_new localFs maxParallel onConflict store).after earlier
  rw [after_append] at never
  generalize (Engine.new localFs maxParallel onConflict store).after earlier = engine at *
  change NeverRequeued id (step.next engine) rest at never
  have later := steady.next step
  rw [startedIn]
  constructor
  · have first : startedBy step engine id + attemptsLeft (step.next engine).transfers id ≤
        maxAttempts := steady.startedBy_le step
    have others := later.startedIn_paid never
    change _ ≤ maxAttempts
    omega
  · intro job found pending cancels
    obtain ⟨stopped, next⟩ := cancels.stopped steady.sound found pending
    have noneNow : startedBy step engine id = 0 :=
      transfersSince_of_lt (next ▸ later.sound.owned.tasks_lt)
    rw [noneNow, later.stopped_startedIn stopped never]

theorem not_requeues_finish {task : Nat} {result : TaskResult} :
    ¬ engine.Requeues id (.finish task result) := by
  rintro ⟨_, _, _, same, _⟩
  cases same

theorem not_requeues_handle {moment : Moment} : ¬ engine.Requeues id (.handle moment) := by
  rintro ⟨_, _, _, same, _⟩
  cases same

theorem startedIn_of_run_first :
    startedIn 0 ((Engine.new .oneAtATime 2 .ask []).after (connectSteps ++ copySteps))
        [.handle .usual, .finish 2 (.failed "lost")] ≤ 3 ∧
      startedIn 0 ((Engine.new .oneAtATime 2 .ask []).after
          (connectSteps ++ copySteps ++ [.handle .usual]))
        [.command .usual .cancelAllTransfers, .finish 2 (.failed "lost"), .handle .usual] = 0 := by
  constructor
  · exact (startedIn_of_run .oneAtATime 2 .ask [] (connectSteps ++ copySteps) (.handle .usual)
      [.finish 2 (.failed "lost")] 0 ⟨not_requeues_finish, trivial⟩).1
  · have runs : (((Engine.new .oneAtATime 2 .ask []).after (connectSteps ++ copySteps ++
        [.handle .usual])).transfers.jobs.get? 0).any (fun job => job.status.isPending) = true := by
      decide
    have stops := (startedIn_of_run .oneAtATime 2 .ask []
      (connectSteps ++ copySteps ++ [.handle .usual]) (.command .usual .cancelAllTransfers)
      [.finish 2 (.failed "lost"), .handle .usual] 0
      ⟨not_requeues_finish, not_requeues_handle, trivial⟩).2
    generalize (Engine.new .oneAtATime 2 .ask []).after
      (connectSteps ++ copySteps ++ [.handle .usual]) = engine at *
    obtain ⟨job, found, pending⟩ := any_eq_true runs
    exact stops job found pending .all

/-! ### Disconnected sessions -/

/-- The session was there and is there no more. -/
structure Gone (session : Nat) (engine : Engine) : Prop where
  known : session < engine.nextSessionId
  absent : engine.sessions.get? session = none

theorem Gone.not_connected {session : Nat} (gone : Gone session engine) :
    engine.connected session ≠ true := by
  intro live
  obtain ⟨found, isFound⟩ := OrderedMap.contains_iff.mp live
  rw [gone.absent] at isFound
  cases isFound

theorem Gone.move {session : Nat} (gone : Gone session before) (move : Move label before after) :
    Gone session after := by
  refine ⟨gone.known.trans_le (nextSessionId_le_move move), Option.eq_none_iff_forall_ne_some.mpr ?_⟩
  intro live found
  have earlier := session_move move gone.known found
  rw [gone.absent] at earlier
  cases earlier

/-- Nothing of the session waits, is reviewed or is open. -/
structure NothingOf (session : Nat) (engine : Engine) : Prop where
  noneQueued : ∀ id job, engine.transfers.jobs.get? id = some job → job.status = .queued →
    job.sessionId ≠ session
  noReview : ∀ review ∈ engine.reviews, review.sessionId ≠ session
  noPlan : ∀ batchId plan, engine.sync.plans.get? batchId = some plan → plan.session ≠ session

theorem Gone.nothingOf {session : Nat} (gone : Gone session engine) (sound : engine.Sound) :
    NothingOf session engine := by
  have connections := sound.connections
  constructor
  · rintro id job found waits rfl
    exact gone.not_connected (connections.waiting id job found waits)
  · rintro review member rfl
    exact gone.not_connected (connections.reviews_live review member)
  · rintro batchId plan found rfl
    exact gone.not_connected (connections.plans_live batchId plan found)

/-- What was started for the job, if anything, belongs to another session. -/
def StartedElsewhere (session since id : Nat) (engine : Engine) : Prop :=
  transfersSince since id engine.tasks = 0 ∨
    ∃ job, engine.transfers.jobs.get? id = some job ∧ job.sessionId ≠ session

theorem transfersSince_of_not_running (owned : engine.Owned) (since : Nat)
    (notRunning : ¬ engine.Running id) : transfersSince since id engine.tasks = 0 := by
  refine OrderedMap.total_eq_zero fun task live found => if_neg fun both => notRunning ?_
  rw [running_iff, ← owned.jobs]
  exact ownerCount_pos_of_live found (by rw [Work.owner, both.2]; rfl)

theorem StartedElsewhere.move {session since : Nat} (gone : Gone session before)
    (elsewhere : StartedElsewhere session since id before) (sound : before.Sound)
    (move : Move label before after) : StartedElsewhere session since id after := by
  by_cases removes : ∃ ids, label = .removes ids
  · -- A job whose row is cleared does not run, so that it has no task.
    obtain ⟨ids, rfl⟩ := removes
    cases move with
    | removes finished reported removed =>
      by_cases isRemoved : id ∈ ids
      · refine Or.inl (transfersSince_of_not_running sound.owned since ?_)
        rintro ⟨job, found, runs⟩
        have ended := (finished id isRemoved job found).none_pending id job found rfl
        rw [runs] at ended
        cases ended
      · rcases elsewhere with none | ⟨job, found, isOther⟩
        · exact Or.inl none
        · refine Or.inr ⟨job, ?_, isOther⟩
          dsimp only
          rw [removed.jobs_eq, if_neg isRemoved, found]
  · have stays {job : TransferJob} (found : before.transfers.jobs.get? id = some job)
        (isOther : job.sessionId ≠ session) : StartedElsewhere session since id after := by
      obtain ⟨last, isLast, same, _⟩ := present_stays found sound move fun ids same =>
        removes ⟨ids, same⟩
      exact Or.inr ⟨last, isLast, same ▸ isOther⟩
    rcases elsewhere with none | ⟨job, found, isOther⟩
    · by_cases begins : label = .begins id
      · subst begins
        cases move with
        | begins waiting live room change =>
          refine Or.inr ⟨_, change.get?_self, ?_⟩
          rintro rfl
          exact gone.not_connected live
      · exact Or.inl (Nat.eq_zero_of_le_zero
          (none ▸ transfersSince_move since id sound move begins))
    · exact stays found isOther

theorem Steady.startedElsewhere (steady : engine.Steady) {session : Nat}
    (gone : Gone session engine) (step : EngineStep) :
    StartedElsewhere session engine.tasks.next id (step.next engine) :=
  ((steady.moves step).invariant
    (fun later => Gone session later ∧ StartedElsewhere session engine.tasks.next id later)
    steady.sound ⟨gone, Or.inl (transfersSince_of_lt steady.sound.owned.tasks_lt)⟩
    fun _ sound move ⟨still, elsewhere⟩ => ⟨still.move move, elsewhere.move still sound move⟩).2.2

theorem startedBy_pos {step : EngineStep} {task : Nat} {live : Live}
    (found : (step.next engine).tasks.live.get? task = some live)
    (isNew : engine.tasks.next ≤ task) (transfers : live.work = .transfer id) :
    0 < startedBy step engine id := by
  have counted := OrderedMap.le_total (fun task live =>
    if engine.tasks.next ≤ task ∧ live.work.scope = .transfer id then 1 else 0) found
  rwa [if_pos ⟨isNew, by rw [transfers]; rfl⟩] at counted

theorem Steady.gone_of_disconnect (steady : engine.Steady) {session : Nat}
    (known : session < engine.nextSessionId) (moment : Moment) :
    Gone session (EngineStep.next engine (.command moment (.disconnect session))) := by
  constructor
  · exact ((steady.moves _).invariant (fun later => session < later.nextSessionId) steady.sound known
      fun _ _ move still => still.trans_le (nextSessionId_le_move move)).2
  · obtain ⟨history, same⟩ := publish_eq moment (engine.disconnect session)
    have isNext : EngineStep.next engine (.command moment (.disconnect session)) = _ := same
    rw [isNext]
    dsimp only
    cases found : engine.sessions.get? session with
    | none =>
      unfold disconnect
      rw [found]
      exact found
    | some live =>
      rw [disconnect_eq found]
      exact (OrderedMap.get?_erase _ _ _).trans (if_pos rfl)

/-- In any run, once the engine was told to disconnect a session that it had connected, nothing
of the session waits, is reviewed or is open, and every transfer task that is started is for
a job of another session. -/
theorem nothingOf_of_run (localFs : FsTraits) (maxParallel : Nat) (onConflict : ConflictPolicy)
    (store : List HistoryEntry) (earlier later : List EngineStep) (moment : Moment) (session : Nat)
    (known : session <
      ((Engine.new localFs maxParallel onConflict store).after earlier).nextSessionId) :
    let engine := (Engine.new localFs maxParallel onConflict store).after
      (earlier ++ .command moment (.disconnect session) :: later)
    NothingOf session engine ∧
      ∀ (step : EngineStep) (task : Nat) (live : Live) (id : Nat),
        (step.next engine).tasks.live.get? task = some live → engine.tasks.next ≤ task →
        live.work = .transfer id →
        ∃ job, (step.next engine).transfers.jobs.get? id = some job ∧ job.sessionId ≠ session := by
  have steady := (steady_new localFs maxParallel onConflict store).after earlier
  rw [after_append]
  generalize (Engine.new localFs maxParallel onConflict store).after earlier = start at *
  have gone := steady.gone_of_disconnect known moment
  have next := steady.next (.command moment (.disconnect session))
  have still := next.invariant (Gone session) gone later fun _ _ _ _ _ move gone => gone.move move
  have last := next.after later
  refine ⟨still.nothingOf last.sound, fun step task live id found isNew transfers => ?_⟩
  exact (last.startedElsewhere still step).resolve_left
    (startedBy_pos found isNew transfers).ne'

theorem nothingOf_of_run_first :
    NothingOf 0 ((Engine.new .oneAtATime 2 .ask []).after
      ((connectSteps ++ copySteps) ++ .command .usual (.disconnect 0) :: [.handle .usual])) :=
  (nothingOf_of_run .oneAtATime 2 .ask [] (connectSteps ++ copySteps) [.handle .usual] .usual 0
    (by decide)).1

end Engine

end Porthmos
