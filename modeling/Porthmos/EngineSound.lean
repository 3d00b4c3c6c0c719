import Porthmos.EngineOwners

/-!
# What holds of the engine between any two moves

A batch is planned, then perhaps under review, and only then has jobs.  What waits, is
under review or is still to be chosen belongs to a live session, and a job that runs
without one was cancelled.
-/

namespace Porthmos

open TransferQueue

/-! ### Batches -/

/-- Where a batch can be, and that its jobs share a session. -/
structure Batches (jobs : Jobs) (next : Nat) (planning : List PlanningScan)
    (reviews : List ConflictReview) (plans : OrderedMap Nat SyncPlan) : Prop where
  jobs_lt : ∀ id job batch, jobs.get? id = some job → job.batchId = some batch → batch < next
  scans_lt : ∀ scan ∈ planning, scan.batchId < next
  reviews_lt : ∀ review ∈ reviews, review.batchId < next
  plans_lt : ∀ batch plan, plans.get? batch = some plan → batch < next
  plans_named : ∀ batch plan, plans.get? batch = some plan → plan.syncId = batch
  planned_jobs : ∀ scan ∈ planning, ∀ id job, jobs.get? id = some job →
    job.batchId ≠ some scan.batchId
  planned_reviews : ∀ scan ∈ planning, ∀ review ∈ reviews, review.batchId ≠ scan.batchId
  planned_plans : ∀ scan ∈ planning, plans.get? scan.batchId = none
  reviewed_jobs : ∀ review ∈ reviews, ∀ id job, jobs.get? id = some job →
    job.batchId ≠ some review.batchId
  reviews_nodup : (reviews.map ConflictReview.batchId).Nodup
  same_session : ∀ first second firstJob secondJob batch, jobs.get? first = some firstJob →
    jobs.get? second = some secondJob → firstJob.batchId = some batch →
    secondJob.batchId = some batch → firstJob.sessionId = secondJob.sessionId

namespace Batches

variable {jobs result : Jobs} {next : Nat} {planning : List PlanningScan}
  {reviews : List ConflictReview} {plans : OrderedMap Nat SyncPlan}

theorem setJobs (batches : Batches jobs next planning reviews plans)
    (old : ∀ id job, result.get? id = some job → ∃ before, jobs.get? id = some before ∧
      job.batchId = before.batchId ∧ job.sessionId = before.sessionId) :
    Batches result next planning reviews plans := by
  refine { batches with jobs_lt := ?_, planned_jobs := ?_, reviewed_jobs := ?_, same_session := ?_ }
  · intro id job batch found inBatch
    obtain ⟨before, isBefore, sameBatch, _⟩ := old id job found
    exact batches.jobs_lt id before batch isBefore (sameBatch ▸ inBatch)
  · intro scan member id job found
    obtain ⟨before, isBefore, sameBatch, _⟩ := old id job found
    exact sameBatch ▸ batches.planned_jobs scan member id before isBefore
  · intro review member id job found
    obtain ⟨before, isBefore, sameBatch, _⟩ := old id job found
    exact sameBatch ▸ batches.reviewed_jobs review member id before isBefore
  · intro first second firstJob secondJob batch firstFound secondFound firstIn secondIn
    obtain ⟨earlier, isEarlier, firstBatch, firstSession⟩ := old first firstJob firstFound
    obtain ⟨later, isLater, secondBatch, secondSession⟩ := old second secondJob secondFound
    rw [firstSession, secondSession]
    exact batches.same_session _ _ _ _ batch isEarlier isLater (firstBatch ▸ firstIn)
      (secondBatch ▸ secondIn)

theorem change (batches : Batches jobs next planning reviews plans) {id : Nat}
    {job changed : TransferJob} (found : jobs.get? id = some job)
    (sameBatch : changed.batchId = job.batchId) (sameSession : changed.sessionId = job.sessionId) :
    Batches (jobs.insert id changed) next planning reviews plans := by
  refine batches.setJobs fun other after isFound => ?_
  rcases OrderedMap.get?_insert_cases isFound with ⟨rfl, rfl⟩ | ⟨_, earlier⟩
  · exact ⟨job, found, sameBatch, sameSession⟩
  · exact ⟨after, earlier, rfl, rfl⟩

/-- A batch that has left planning and review gets a job. -/
theorem enqueue (batches : Batches jobs next planning reviews plans) {id batch : Nat}
    {job : TransferJob} (inBatch : job.batchId = some batch) (known : batch < next)
    (notPlanned : ∀ scan ∈ planning, scan.batchId ≠ batch)
    (notReviewed : ∀ review ∈ reviews, review.batchId ≠ batch)
    (sameSession : ∀ other after, jobs.get? other = some after → after.batchId = some batch →
      after.sessionId = job.sessionId) :
    Batches (jobs.insert id job) next planning reviews plans := by
  have old {other : Nat} {after : TransferJob} (isFound : (jobs.insert id job).get? other = some after) :
      after = job ∨ jobs.get? other = some after :=
    (OrderedMap.get?_insert_cases isFound).imp And.right And.right
  refine { batches with jobs_lt := ?_, planned_jobs := ?_, reviewed_jobs := ?_, same_session := ?_ }
  · intro other after given found isIn
    rcases old found with rfl | earlier
    · exact Option.some.inj (inBatch.symm.trans isIn) ▸ known
    · exact batches.jobs_lt _ _ _ earlier isIn
  · intro scan member other after found
    rcases old found with rfl | earlier
    · rw [inBatch]
      exact fun same => notPlanned scan member (Option.some.inj same).symm
    · exact batches.planned_jobs scan member _ _ earlier
  · intro review member other after found
    rcases old found with rfl | earlier
    · rw [inBatch]
      exact fun same => notReviewed review member (Option.some.inj same).symm
    · exact batches.reviewed_jobs review member _ _ earlier
  · intro first second firstJob secondJob given firstFound secondFound firstIn secondIn
    rcases old firstFound with rfl | firstEarlier <;> rcases old secondFound with rfl | secondEarlier
    · rfl
    · have same := Option.some.inj (inBatch.symm.trans firstIn)
      exact (sameSession _ _ secondEarlier (same ▸ secondIn)).symm
    · have same := Option.some.inj (inBatch.symm.trans secondIn)
      exact sameSession _ _ firstEarlier (same ▸ firstIn)
    · exact batches.same_session _ _ _ _ _ firstEarlier secondEarlier firstIn secondIn

/-- The next batch is planned. -/
theorem plan (batches : Batches jobs next planning reviews plans) {scan : PlanningScan}
    (isNew : scan.batchId = next) : Batches jobs (next + 1) (planning ++ [scan]) reviews plans := by
  have planned {other : PlanningScan} (member : other ∈ planning ++ [scan]) :
      other ∈ planning ∨ other = scan := by simpa using member
  refine { batches with
      jobs_lt := fun id job batch found inBatch => (batches.jobs_lt _ _ _ found inBatch).trans
        (Nat.lt_succ_self _)
      scans_lt := fun other member => ?_
      reviews_lt := fun review member => (batches.reviews_lt _ member).trans (Nat.lt_succ_self _)
      plans_lt := fun batch plan found => (batches.plans_lt _ _ found).trans (Nat.lt_succ_self _)
      planned_jobs := fun other member => ?_
      planned_reviews := fun other member => ?_
      planned_plans := fun other member => ?_ }
  · rcases planned member with earlier | rfl
    · exact (batches.scans_lt _ earlier).trans (Nat.lt_succ_self _)
    · exact isNew ▸ Nat.lt_succ_self _
  · rcases planned member with earlier | rfl
    · exact batches.planned_jobs _ earlier
    · intro id job found inBatch
      exact absurd (batches.jobs_lt _ _ _ found inBatch) (isNew ▸ lt_irrefl _)
  · rcases planned member with earlier | rfl
    · exact batches.planned_reviews _ earlier
    · intro review reviewed same
      exact absurd (batches.reviews_lt _ reviewed) (same ▸ isNew ▸ lt_irrefl _)
  · rcases planned member with earlier | rfl
    · exact batches.planned_plans _ earlier
    · cases found : plans.get? other.batchId with
      | none => rfl
      | some plan => exact absurd (batches.plans_lt _ _ found) (isNew ▸ lt_irrefl _)

theorem unplan (batches : Batches jobs next planning reviews plans) {fewer : List PlanningScan}
    (sub : fewer ⊆ planning) : Batches jobs next fewer reviews plans :=
  { batches with
    scans_lt := fun scan member => batches.scans_lt scan (sub member)
    planned_jobs := fun scan member => batches.planned_jobs scan (sub member)
    planned_reviews := fun scan member => batches.planned_reviews scan (sub member)
    planned_plans := fun scan member => batches.planned_plans scan (sub member) }

theorem review (batches : Batches jobs next planning reviews plans) {review : ConflictReview}
    (known : review.batchId < next) (notPlanned : ∀ scan ∈ planning, scan.batchId ≠ review.batchId)
    (notReviewed : ∀ other ∈ reviews, other.batchId ≠ review.batchId)
    (noJobs : ∀ id job, jobs.get? id = some job → job.batchId ≠ some review.batchId) :
    Batches jobs next planning (reviews ++ [review]) plans := by
  have reviewed {other : ConflictReview} (member : other ∈ reviews ++ [review]) :
      other ∈ reviews ∨ other = review := by simpa using member
  refine { batches with
      reviews_lt := fun other member => ?_
      planned_reviews := fun scan planned other member => ?_
      reviewed_jobs := fun other member => ?_
      reviews_nodup := ?_ }
  · rcases reviewed member with earlier | rfl
    · exact batches.reviews_lt _ earlier
    · exact known
  · rcases reviewed member with earlier | rfl
    · exact batches.planned_reviews _ planned _ earlier
    · exact (notPlanned _ planned).symm
  · rcases reviewed member with earlier | rfl
    · exact batches.reviewed_jobs _ earlier
    · exact noJobs
  · rw [List.map_append, List.map_singleton, List.nodup_append]
    refine ⟨batches.reviews_nodup, List.nodup_singleton _, fun batch member given isNew same => ?_⟩
    obtain ⟨other, earlier, rfl⟩ := List.mem_map.mp member
    exact notReviewed other earlier (same.trans (List.mem_singleton.mp isNew))

theorem closeReviews (batches : Batches jobs next planning reviews plans)
    {fewer : List ConflictReview} (sub : fewer.Sublist reviews) :
    Batches jobs next planning fewer plans :=
  { batches with
    reviews_lt := fun review member => batches.reviews_lt review (sub.subset member)
    planned_reviews := fun scan planned review member =>
      batches.planned_reviews scan planned review (sub.subset member)
    reviewed_jobs := fun review member => batches.reviewed_jobs review (sub.subset member)
    reviews_nodup := (sub.map _).nodup batches.reviews_nodup }

theorem openPlan (batches : Batches jobs next planning reviews plans) {batch : Nat} {plan : SyncPlan}
    (named : plan.syncId = batch) (known : batch < next)
    (notPlanned : ∀ scan ∈ planning, scan.batchId ≠ batch) :
    Batches jobs next planning reviews (plans.insert batch plan) := by
  refine { batches with
      plans_lt := fun other given found => ?_
      plans_named := fun other given found => ?_
      planned_plans := fun scan planned => ?_ }
  · rcases OrderedMap.get?_insert_cases found with ⟨rfl, _⟩ | ⟨_, earlier⟩
    · exact known
    · exact batches.plans_lt _ _ earlier
  · rcases OrderedMap.get?_insert_cases found with ⟨rfl, rfl⟩ | ⟨_, earlier⟩
    · exact named
    · exact batches.plans_named _ _ earlier
  · rw [OrderedMap.get?_insert, if_neg (notPlanned scan planned)]
    exact batches.planned_plans scan planned

theorem closePlans (batches : Batches jobs next planning reviews plans)
    {fewer : OrderedMap Nat SyncPlan}
    (sub : ∀ batch plan, fewer.get? batch = some plan → plans.get? batch = some plan) :
    Batches jobs next planning reviews fewer := by
  refine { batches with
      plans_lt := fun batch plan found => batches.plans_lt _ _ (sub _ _ found)
      plans_named := fun batch plan found => batches.plans_named _ _ (sub _ _ found)
      planned_plans := fun scan planned => ?_ }
  cases found : fewer.get? scan.batchId with
  | none => rfl
  | some plan => exact absurd (sub _ _ found) (by simp [batches.planned_plans scan planned])

end Batches

/-! ### Connections -/

/-- Which sessions the state speaks of, and that what waits for a session is given up with
it. -/
structure Connections (sessions : OrderedMap Nat LiveSession) (next : Nat) (jobs : Jobs)
    (cancelled : Scope → Bool) (reviews : List ConflictReview) (plans : OrderedMap Nat SyncPlan) :
    Prop where
  sessions_lt : ∀ session live, sessions.get? session = some live → session < next
  jobs_lt : ∀ id job, jobs.get? id = some job → job.sessionId < next
  waiting : ∀ id job, jobs.get? id = some job → job.status = .queued →
    sessions.contains job.sessionId = true
  running : ∀ id job, jobs.get? id = some job → job.status = .inProgress →
    sessions.contains job.sessionId = true ∨ cancelled (.transfer id) = true
  reviews_live : ∀ review ∈ reviews, sessions.contains review.sessionId = true
  plans_live : ∀ batch plan, plans.get? batch = some plan → sessions.contains plan.session = true

namespace Connections

variable {sessions : OrderedMap Nat LiveSession} {next : Nat} {jobs result : Jobs}
  {cancelled marks : Scope → Bool} {reviews : List ConflictReview} {plans : OrderedMap Nat SyncPlan}

theorem lt_of_contains (connections : Connections sessions next jobs cancelled reviews plans)
    {session : Nat} (live : sessions.contains session = true) : session < next := by
  obtain ⟨found, isFound⟩ := OrderedMap.contains_iff.mp live
  exact connections.sessions_lt session found isFound

/-- A job changes, and with it perhaps its mark. -/
theorem change (connections : Connections sessions next jobs cancelled reviews plans) {id : Nat}
    {job changed : TransferJob} (found : jobs.get? id = some job)
    (sameSession : changed.sessionId = job.sessionId)
    (others : ∀ other ≠ id, marks (.transfer other) = cancelled (.transfer other))
    (waits : changed.status = .queued → sessions.contains job.sessionId = true)
    (runs : changed.status = .inProgress →
      sessions.contains job.sessionId = true ∨ marks (.transfer id) = true) :
    Connections sessions next (jobs.insert id changed) marks reviews plans := by
  refine { connections with jobs_lt := ?_, waiting := ?_, running := ?_ }
  · intro other after isFound
    rcases OrderedMap.get?_insert_cases isFound with ⟨rfl, rfl⟩ | ⟨_, earlier⟩
    · exact sameSession ▸ connections.jobs_lt _ _ found
    · exact connections.jobs_lt _ _ earlier
  · intro other after isFound isQueued
    rcases OrderedMap.get?_insert_cases isFound with ⟨rfl, rfl⟩ | ⟨_, earlier⟩
    · exact sameSession ▸ waits isQueued
    · exact connections.waiting _ _ earlier isQueued
  · intro other after isFound isRunning
    rcases OrderedMap.get?_insert_cases isFound with ⟨rfl, rfl⟩ | ⟨isOther, earlier⟩
    · exact sameSession ▸ runs isRunning
    · exact others other isOther ▸ connections.running _ _ earlier isRunning

theorem enqueue (connections : Connections sessions next jobs cancelled reviews plans) (id : Nat)
    {job : TransferJob} (isQueued : job.status = .queued)
    (live : sessions.contains job.sessionId = true) :
    Connections sessions next (jobs.insert id job) cancelled reviews plans := by
  have old {other : Nat} {after : TransferJob}
      (isFound : (jobs.insert id job).get? other = some after) :
      after = job ∨ jobs.get? other = some after :=
    (OrderedMap.get?_insert_cases isFound).imp And.right And.right
  refine { connections with jobs_lt := ?_, waiting := ?_, running := ?_ }
  · intro other after isFound
    rcases old isFound with rfl | earlier
    · exact connections.lt_of_contains live
    · exact connections.jobs_lt _ _ earlier
  · intro other after isFound waits
    rcases old isFound with rfl | earlier
    · exact live
    · exact connections.waiting _ _ earlier waits
  · intro other after isFound runs
    rcases old isFound with rfl | earlier
    · exact Or.inl live
    · exact connections.running _ _ earlier runs

theorem remove (connections : Connections sessions next jobs cancelled reviews plans)
    (old : ∀ id job, result.get? id = some job → jobs.get? id = some job) :
    Connections sessions next result cancelled reviews plans :=
  { connections with
    jobs_lt := fun id job found => connections.jobs_lt id job (old id job found)
    waiting := fun id job found => connections.waiting id job (old id job found)
    running := fun id job found => connections.running id job (old id job found) }

theorem mark (connections : Connections sessions next jobs cancelled reviews plans)
    (more : ∀ id, cancelled (.transfer id) = true → marks (.transfer id) = true) :
    Connections sessions next jobs marks reviews plans :=
  { connections with
    running := fun id job found runs => (connections.running id job found runs).imp_right (more id) }

theorem connect (connections : Connections sessions next jobs cancelled reviews plans)
    (live : LiveSession) :
    Connections (sessions.insert next live) (next + 1) jobs cancelled reviews plans := by
  have still {session : Nat} (found : sessions.contains session = true) :
      (sessions.insert next live).contains session = true := by
    obtain ⟨value, isFound⟩ := OrderedMap.contains_iff.mp found
    have isOld := (connections.sessions_lt _ _ isFound).ne
    exact OrderedMap.contains_iff.mpr ⟨value, by rw [OrderedMap.get?_insert, if_neg isOld, isFound]⟩
  refine
    { sessions_lt := fun session given found => ?_
      jobs_lt := fun id job found => (connections.jobs_lt _ _ found).trans (Nat.lt_succ_self _)
      waiting := fun id job found isQueued => still (connections.waiting _ _ found isQueued)
      running := fun id job found runs => (connections.running _ _ found runs).imp_left still
      reviews_live := fun review member => still (connections.reviews_live _ member)
      plans_live := fun batch plan found => still (connections.plans_live _ _ found) }
  rcases OrderedMap.get?_insert_cases found with ⟨rfl, _⟩ | ⟨_, earlier⟩
  · exact Nat.lt_succ_self _
  · exact (connections.sessions_lt _ _ earlier).trans (Nat.lt_succ_self _)

/-- A session goes when nothing waits for it any more. -/
theorem disconnect (connections : Connections sessions next jobs cancelled reviews plans)
    {session : Nat} (noneWaiting : ∀ id job, jobs.get? id = some job → job.status = .queued →
      job.sessionId ≠ session)
    (allMarked : ∀ id job, jobs.get? id = some job → job.status = .inProgress →
      job.sessionId = session → cancelled (.transfer id) = true)
    (noReview : ∀ review ∈ reviews, review.sessionId ≠ session)
    (noPlan : ∀ batch plan, plans.get? batch = some plan → plan.session ≠ session) :
    Connections (sessions.erase session) next jobs cancelled reviews plans := by
  have still {other : Nat} (isOther : other ≠ session) (found : sessions.contains other = true) :
      (sessions.erase session).contains other = true := by
    obtain ⟨value, isFound⟩ := OrderedMap.contains_iff.mp found
    exact OrderedMap.contains_iff.mpr ⟨value, by rw [OrderedMap.get?_erase, if_neg isOther, isFound]⟩
  refine { connections with
      sessions_lt := fun other live found => ?_
      waiting := fun id job found isQueued =>
        still (noneWaiting _ _ found isQueued) (connections.waiting _ _ found isQueued)
      running := fun id job found runs => ?_
      reviews_live := fun review member =>
        still (noReview _ member) (connections.reviews_live _ member)
      plans_live := fun batch plan found =>
        still (noPlan _ _ found) (connections.plans_live _ _ found) }
  · rw [OrderedMap.get?_erase] at found
    split_ifs at found
    exact connections.sessions_lt _ _ found
  · by_cases isGone : job.sessionId = session
    · exact Or.inr (allMarked id job found runs isGone)
    · exact (connections.running _ _ found runs).imp_left (still isGone)

theorem review (connections : Connections sessions next jobs cancelled reviews plans)
    {review : ConflictReview} (live : sessions.contains review.sessionId = true) :
    Connections sessions next jobs cancelled (reviews ++ [review]) plans := by
  refine { connections with reviews_live := fun other member => ?_ }
  rcases List.mem_append.mp member with earlier | isNew
  · exact connections.reviews_live _ earlier
  · exact List.mem_singleton.mp isNew ▸ live

theorem closeReviews (connections : Connections sessions next jobs cancelled reviews plans)
    {fewer : List ConflictReview} (sub : fewer ⊆ reviews) :
    Connections sessions next jobs cancelled fewer plans :=
  { connections with
    reviews_live := fun review member => connections.reviews_live review (sub member) }

theorem openPlan (connections : Connections sessions next jobs cancelled reviews plans)
    (batch : Nat) {plan : SyncPlan} (live : sessions.contains plan.session = true) :
    Connections sessions next jobs cancelled reviews (plans.insert batch plan) := by
  refine { connections with plans_live := fun other given found => ?_ }
  rcases OrderedMap.get?_insert_cases found with ⟨_, rfl⟩ | ⟨_, earlier⟩
  · exact live
  · exact connections.plans_live _ _ earlier

theorem closePlans (connections : Connections sessions next jobs cancelled reviews plans)
    {fewer : OrderedMap Nat SyncPlan}
    (sub : ∀ batch plan, fewer.get? batch = some plan → plans.get? batch = some plan) :
    Connections sessions next jobs cancelled reviews fewer :=
  { connections with
    plans_live := fun batch plan found => connections.plans_live batch plan (sub batch plan found) }

end Connections

/-! ### Attempts -/

/-- What was tried often enough does not wait for another attempt. -/
structure Tried (job : TransferJob) : Prop where
  le : job.attempts ≤ maxAttempts
  waiting : job.status = .queued → job.attempts < maxAttempts

def AttemptsBounded (jobs : Jobs) : Prop := ∀ id job, jobs.get? id = some job → Tried job

theorem AttemptsBounded.insert {jobs : Jobs} (bounded : AttemptsBounded jobs) (id : Nat)
    {job : TransferJob} (tried : Tried job) : AttemptsBounded (jobs.insert id job) := by
  intro other after found
  rcases OrderedMap.get?_insert_cases found with ⟨_, rfl⟩ | ⟨_, earlier⟩
  · exact tried
  · exact bounded _ _ earlier

theorem Tried.ended {job changed : TransferJob} (tried : Tried job)
    (same : changed.attempts = job.attempts) (ended : changed.status ≠ .queued) : Tried changed :=
  ⟨same ▸ tried.le, fun waits => absurd waits ended⟩

theorem Tried.failedJob {job : TransferJob} (tried : Tried job) (cancelled : Bool) (text : String) :
    Tried (failedJob cancelled text job) := by
  unfold Porthmos.failedJob
  split_ifs with isCancelled left
  · exact tried.ended rfl nofun
  · exact ⟨tried.le, fun _ => left⟩
  · exact tried.ended rfl nofun

namespace Engine

/-! ### All at once -/

structure Sound (engine : Engine) : Prop where
  indexed : engine.transfers.Indexed
  owned : engine.Owned
  batches : Batches engine.transfers.jobs engine.transfers.nextBatchId engine.planning engine.reviews
    engine.sync.plans
  connections : Connections engine.sessions engine.nextSessionId engine.transfers.jobs
    engine.tasks.cancelled engine.reviews engine.sync.plans
  attempts : AttemptsBounded engine.transfers.jobs

variable {label : Label} {before after : Engine} {queue result : TransferQueue} {id : Nat}
  {job changed : TransferJob}

theorem isInterrupted_ne {status : JobStatus} (interrupted : status.isInterrupted = true) :
    status ≠ .queued ∧ status ≠ .inProgress := by
  constructor <;> rintro rfl <;> cases interrupted

theorem indexed_move (indexed : before.transfers.Indexed) (move : Move label before after) :
    after.transfers.Indexed := by
  cases move with
  | plans scan work scanning kind isNew kept => exact kept.indexed
  | begins waiting live room change => exact change.indexed
  | abandons waiting ended change => exact change.indexed
  | retries interrupted live change => exact change.indexed
  | advances transferred change => exact change.indexed
  | enqueues inBatch waiting untried live settled sameSession entered => exact entered.indexed
  | removes finished reported removed => exact removed.indexed
  | books kept next => exact kept.indexed
  | finishes front runs ended reported change => exact change.indexed
  | fails front isOwner runs change => exact change.indexed
  | records now =>
    obtain ⟨history, same⟩ := processRowChanges_eq now before
    rw [same]
    exact indexed.of_fields rfl rfl rfl rfl rfl rfl rfl rfl rfl
  | settles | drops | connects | disconnects | marks | reviews | closesReviews | opensPlan
  | closesPlans | works | logs | tells | ends | removesPart => exact indexed

theorem batches_change {next : Nat} {planning : List PlanningScan} {reviews : List ConflictReview}
    {plans : OrderedMap Nat SyncPlan} (batches : Batches queue.jobs next planning reviews plans)
    (isNext : queue.nextBatchId = next) (change : JobChanged queue result id job changed)
    (sameSession : changed.sessionId = job.sessionId) :
    Batches result.jobs result.nextBatchId planning reviews plans := by
  rw [change.nextBatchId_eq, isNext, change.jobs_eq]
  exact batches.change change.found change.kept.batchId sameSession

theorem batches_move (sound : before.Sound) (move : Move label before after) :
    Batches after.transfers.jobs after.transfers.nextBatchId after.planning after.reviews
      after.sync.plans := by
  have batches := sound.batches
  cases move with
  | plans scan work scanning kind isNew kept next =>
    dsimp only
    rw [kept.jobs_eq, next]
    exact batches.plan isNew
  | begins waiting live room change => exact batches_change batches rfl change rfl
  | abandons waiting ended change => exact batches_change batches rfl change rfl
  | retries interrupted live change => exact batches_change batches rfl change rfl
  | advances transferred change => exact batches_change batches rfl change rfl
  | enqueues inBatch waiting untried live settled sameSession entered =>
    dsimp only
    rw [entered.nextBatchId_eq, entered.jobs_eq]
    exact batches.enqueue inBatch settled.known
      (fun scan member same => settled.notPlanned ⟨scan, member, same⟩)
      (fun review member same => settled.notReviewed ⟨review, member, same⟩) sameSession
  | removes finished reported removed =>
    dsimp only
    rw [removed.nextBatchId_eq]
    refine batches.setJobs fun id job found => ⟨job, ?_, rfl, rfl⟩
    rw [removed.jobs_eq] at found
    split_ifs at found
    exact found
  | books kept next =>
    dsimp only
    rw [kept.jobs_eq, next]
    exact batches
  | finishes front runs ended reported change => exact batches_change batches rfl change rfl
  | fails front isOwner runs change =>
    refine batches_change batches rfl change ?_
    unfold failedJob
    split_ifs <;> rfl
  | settles front isOwner => exact batches.unplan List.filter_sublist.subset
  | reviews review live settled noJobs =>
    exact batches.review settled.known
      (fun scan member same => settled.notPlanned ⟨scan, member, same⟩)
      (fun other member same => settled.notReviewed ⟨other, member, same⟩) noJobs
  | closesReviews fewer => exact batches.closeReviews fewer
  | opensPlan batchId plan named live settled =>
    exact batches.openPlan named settled.known
      fun scan member same => settled.notPlanned ⟨scan, member, same⟩
  | closesPlans fewer => exact batches.closePlans fewer
  | records now =>
    obtain ⟨history, same⟩ := processRowChanges_eq now before
    rw [same]
    exact batches
  | drops | connects | disconnects | marks | works | logs | tells | ends | removesPart =>
    exact batches

theorem connections_change {sessions : OrderedMap Nat LiveSession} {next : Nat}
    {cancelled marks : Scope → Bool} {reviews : List ConflictReview}
    {plans : OrderedMap Nat SyncPlan}
    (connections : Connections sessions next queue.jobs cancelled reviews plans)
    (change : JobChanged queue result id job changed)
    (sameSession : changed.sessionId = job.sessionId)
    (others : ∀ other ≠ id, marks (.transfer other) = cancelled (.transfer other))
    (waits : changed.status = .queued → sessions.contains job.sessionId = true)
    (runs : changed.status = .inProgress →
      sessions.contains job.sessionId = true ∨ marks (.transfer id) = true) :
    Connections sessions next result.jobs marks reviews plans := by
  rw [change.jobs_eq]
  exact connections.change change.found sameSession others waits runs

theorem forget_of_ne (tasks : Tasks) {scope other : Scope} (different : other ≠ scope) :
    (tasks.forget scope).cancelled other = tasks.cancelled other :=
  Function.update_of_ne different _ _

theorem forget_other (tasks : Tasks) {id other : Nat} (different : other ≠ id) :
    (tasks.forget (.transfer id)).cancelled (.transfer other) = tasks.cancelled (.transfer other) :=
  forget_of_ne tasks fun same => different (Scope.transfer.inj same)

theorem connections_move (sound : before.Sound) (move : Move label before after) :
    Connections after.sessions after.nextSessionId after.transfers.jobs after.tasks.cancelled
      after.reviews after.sync.plans := by
  have connections := sound.connections
  cases move with
  | plans scan work scanning kind isNew kept =>
    dsimp only
    rw [kept.jobs_eq]
    exact connections
  | begins waiting live room change =>
    exact connections_change connections change rfl (fun _ _ => rfl) (fun _ => live)
      fun _ => Or.inl live
  | abandons waiting ended change =>
    exact connections_change connections change rfl (fun _ _ => rfl)
      (fun _ => connections.waiting _ _ change.found waiting)
      fun runs => absurd runs (isInterrupted_ne ended).2
  | retries interrupted live change =>
    exact connections_change connections change rfl (fun _ _ => rfl) (fun _ => live) nofun
  | advances transferred change =>
    exact connections_change connections change rfl (fun _ _ => rfl)
      (fun waits => connections.waiting _ _ change.found waits)
      fun runs => connections.running _ _ change.found runs
  | enqueues inBatch waiting untried live settled sameSession entered =>
    dsimp only
    rw [entered.jobs_eq]
    exact connections.enqueue _ waiting live
  | removes finished reported removed =>
    refine connections.remove fun id job found => ?_
    rw [removed.jobs_eq] at found
    split_ifs at found
    exact found
  | books kept next =>
    dsimp only
    rw [kept.jobs_eq]
    exact connections
  | finishes front runs ended reported change =>
    refine connections_change connections change rfl (fun _ => forget_other _)
      (fun waits => ?_) fun runs => ?_
    · rcases ended with rfl | rfl <;> cases waits
    · rcases ended with rfl | rfl <;> cases runs
  | @fails _ _ id job text message rest front isOwner runs change =>
    have still : (failedJob (before.tasks.cancelled (.transfer id)) text job).status = .queued →
        before.tasks.cancelled (.transfer id) = false := by
      unfold failedJob
      split_ifs with isCancelled <;> simp [isCancelled]
    refine connections_change connections change ?_ (fun _ => forget_other _)
      (fun waits => ?_) fun runs => ?_
    · unfold failedJob
      split_ifs <;> rfl
    · refine (connections.running _ _ change.found runs).resolve_right ?_
      rw [still waits]
      exact nofun
    · unfold failedJob at runs
      split_ifs at runs
  | settles front isOwner =>
    refine connections.mark fun id marked => ?_
    rwa [forget_of_ne _ (by simp)]
  | connects connecting front => exact connections.connect _
  | disconnects name noneWaiting allMarked noReview noPlan =>
    exact connections.disconnect noneWaiting allMarked noReview noPlan
  | marks isOwner =>
    refine connections.mark fun id marked => (Function.update_apply _ _ _ _).trans ?_
    split_ifs
    · rfl
    · exact marked
  | reviews review live settled noJobs => exact connections.review live
  | closesReviews fewer => exact connections.closeReviews fewer.subset
  | opensPlan batchId plan named live settled => exact connections.openPlan _ live
  | closesPlans fewer => exact connections.closePlans fewer
  | records now =>
    obtain ⟨history, same⟩ := processRowChanges_eq now before
    rw [same]
    exact connections
  | drops | works | logs | tells | ends | removesPart => exact connections

theorem attempts_move (sound : before.Sound) (move : Move label before after) :
    AttemptsBounded after.transfers.jobs := by
  have bounded := sound.attempts
  cases move with
  | plans scan work scanning kind isNew kept =>
    dsimp only
    rwa [kept.jobs_eq]
  | begins waiting live room change =>
    dsimp only
    rw [change.jobs_eq]
    exact bounded.insert _ ⟨(bounded _ _ change.found).waiting waiting, nofun⟩
  | abandons waiting ended change =>
    dsimp only
    rw [change.jobs_eq]
    exact bounded.insert _ ((bounded _ _ change.found).ended rfl (isInterrupted_ne ended).1)
  | retries interrupted live change =>
    dsimp only
    rw [change.jobs_eq]
    exact bounded.insert _ ⟨Nat.zero_le _, fun _ => Nat.zero_lt_succ _⟩
  | advances transferred change =>
    dsimp only
    rw [change.jobs_eq]
    exact bounded.insert _ ⟨(bounded _ _ change.found).le, (bounded _ _ change.found).waiting⟩
  | enqueues inBatch waiting untried live settled sameSession entered =>
    dsimp only
    rw [entered.jobs_eq]
    refine bounded.insert _ ⟨?_, fun _ => ?_⟩ <;> rw [untried] <;> decide
  | removes finished reported removed =>
    intro id job found
    dsimp only at found
    rw [removed.jobs_eq] at found
    split_ifs at found
    exact bounded _ _ found
  | books kept next =>
    dsimp only
    rwa [kept.jobs_eq]
  | finishes front runs ended reported change =>
    dsimp only
    rw [change.jobs_eq]
    refine bounded.insert _ ((bounded _ _ change.found).ended rfl fun waits => ?_)
    rcases ended with rfl | rfl <;> cases waits
  | fails front isOwner runs change =>
    dsimp only
    rw [change.jobs_eq]
    exact bounded.insert _ ((bounded _ _ change.found).failedJob _ _)
  | records now =>
    obtain ⟨history, same⟩ := processRowChanges_eq now before
    rw [same]
    exact bounded
  | settles | drops | connects | disconnects | marks | reviews | closesReviews | opensPlan
  | closesPlans | works | logs | tells | ends | removesPart => exact bounded

theorem Sound.move (sound : before.Sound) (move : Move label before after) : after.Sound :=
  ⟨indexed_move sound.indexed move, sound.owned.move sound.indexed move, batches_move sound move,
    connections_move sound move, attempts_move sound move⟩

end Engine

end Porthmos
