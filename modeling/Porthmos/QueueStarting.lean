import Porthmos.QueueStartable

/-!
# Starting the chosen jobs

`fill_transfer_slots` asks the queue which jobs to start and starts them one after
the other.  No two running jobs share a destination.  That they write no path in
common takes more: the queue compares destinations only, so a job whose
destination is the part file of a running one is started beside it.
-/

namespace Porthmos

namespace TransferQueue

/-- The paths a running job writes. -/
def writes (job : TransferJob) : List Destination := [job.destination, job.partDestination]

/-- No two running jobs write the same path. -/
def WritesApart (queue : TransferQueue) : Prop :=
  ∀ firstId secondId first second, queue.jobs.get? firstId = some first →
    queue.jobs.get? secondId = some second → first.status = .inProgress →
    second.status = .inProgress → firstId ≠ secondId → (writes first).Disjoint (writes second)

/-- What `start_transfer` writes into a job it starts. -/
def begin (job : TransferJob) : TransferJob :=
  { job with status := .inProgress, attempts := job.attempts + 1 }

/-- `start_transfer`, as far as the queue is concerned: the job runs if its session
is connected, and fails otherwise. -/
def startTransfer (queue : TransferQueue) (connected : Bool) (id : Nat) : TransferQueue :=
  match queue.get id with
  | none => queue
  | some _ =>
    if connected then queue.editGuarded id begin
    else queue.editGuarded id (setStatus (.failed "session disconnected"))

/-- The queue while `fill_transfer_slots` starts what `startable_limited` returned. -/
structure Filling where
  queue : TransferQueue
  offered : List Nat

/-- One step of a run that starts jobs only through `fill_transfer_slots`. -/
inductive FillStep
  | offer (order : HashOrder) (limit : Nat) (sessionLimit : Nat → Option Nat)
  | start (connected : Bool)
  | apply (op : QueueOp)

def FillStep.next (filling : Filling) : FillStep → Filling
  | .offer order limit sessionLimit =>
    { filling with offered := filling.queue.startableLimited order limit sessionLimit }
  | .start connected =>
    match filling.offered with
    | [] => filling
    | id :: rest => ⟨filling.queue.startTransfer connected id, rest⟩
  | .apply op => { filling with queue := op.apply filling.queue }

/-- Other operations leave it to `fill_transfer_slots` to start jobs, and no
session of a job changes. -/
def QueueOp.startsNone (queue : TransferQueue) : QueueOp → Prop
  | .editGuarded id edit => ∀ job, queue.jobs.get? id = some job →
      edit.sessionId = job.sessionId ∧ (edit.status = .inProgress → job.status = .inProgress)
  | _ => True

/-- The steps come in the order of the source: what was offered is started before
anything else happens. -/
def FillStep.inOrder (filling : Filling) : FillStep → Prop
  | .offer _ _ _ => filling.offered = []
  | .start _ => True
  | .apply op => filling.offered = [] ∧ op.startsNone filling.queue

/-- The states of runs whose steps are in order and meet a condition. -/
inductive Fills (condition : Filling → FillStep → Prop) : Filling → Prop
  | new : Fills condition ⟨new, []⟩
  | step {filling : Filling} (step : FillStep) (reached : Fills condition filling)
      (inOrder : step.inOrder filling) (met : condition filling step) :
      Fills condition (step.next filling)

/-- The job that a start step would start. -/
def Filling.nextJob (filling : Filling) : Option TransferJob :=
  filling.offered.head?.bind filling.queue.get

/-- A job is not started while its destination is the part file of a running job,
nor while its part file is the destination of one. -/
def FillStep.apartFromRunning (filling : Filling) : FillStep → Prop
  | .start true => ∀ job ∈ filling.nextJob.toList, ∀ running ∈ filling.queue.activeJobs,
      running.partDestination ≠ job.destination ∧ running.destination ≠ job.partDestination
  | _ => True

instance (filling : Filling) (step : FillStep) : Decidable (step.apartFromRunning filling) :=
  match step with
  | .start true => inferInstanceAs (Decidable (∀ job ∈ filling.nextJob.toList,
      ∀ running ∈ filling.queue.activeJobs, running.partDestination ≠ job.destination ∧
        running.destination ≠ job.partDestination))
  | .start false => .isTrue trivial
  | .offer _ _ _ => .isTrue trivial
  | .apply _ => .isTrue trivial

variable {queue : TransferQueue}

/-! ### What is offered -/

/-- The scan keeps jobs with destinations of their own. -/
theorem foldl_offer_spec (sessionLimit : Nat → Option Nat) (freeSlots : Nat)
    (jobs : List TransferJob) (scan : Scan) :
    ∃ chosen : List TransferJob, chosen ⊆ jobs ∧
      (jobs.foldl (Scan.offer sessionLimit freeSlots) scan).startable =
        scan.startable ++ chosen.map TransferJob.id ∧
      (∀ job ∈ chosen, job.destination ∉ scan.busyDestinations) ∧
      chosen.Pairwise fun first second => first.destination ≠ second.destination := by
  induction jobs generalizing scan with
  | nil => exact ⟨[], by simp, by simp, by simp, List.Pairwise.nil⟩
  | cons job rest ih =>
    rw [List.foldl_cons]
    obtain ⟨chosen, sub, startable, apart, distinct⟩ :=
      ih (scan.offer sessionLimit freeSlots job)
    unfold Scan.offer at startable apart ⊢
    by_cases kept : scan.startable.length < freeSlots ∧
        ¬ capped sessionLimit job.sessionId (scan.perSession job.sessionId) ∧
        job.destination ∉ scan.busyDestinations
    · simp only [if_pos kept] at startable apart ⊢
      refine ⟨job :: chosen, List.cons_subset_cons job sub, ?_, ?_, ?_⟩
      · rw [startable]
        simp
      · intro other member
        rcases List.mem_cons.mp member with rfl | later
        · exact kept.2.2
        · exact fun busy => apart other later (List.mem_cons_of_mem _ busy)
      · refine List.pairwise_cons.mpr ⟨fun other later same => ?_, distinct⟩
        exact apart other later (by rw [same]; exact List.mem_cons_self)
    · simp only [if_neg kept] at startable apart ⊢
      exact ⟨chosen, fun other member => List.mem_cons_of_mem _ (sub member), startable, apart,
        distinct⟩

/-- What an offer promises: the jobs are queued and have destinations of their own. -/
structure Offered (queue : TransferQueue) (offered : List Nat) : Prop where
  queued : ∀ id ∈ offered, ∃ job, queue.jobs.get? id = some job ∧ job.status = .queued
  free : ∀ id ∈ offered, ∀ job other running, queue.jobs.get? id = some job →
    queue.jobs.get? other = some running → running.status = .inProgress →
    running.destination ≠ job.destination
  distinct : offered.Pairwise fun first second => first ≠ second ∧
    ∀ firstJob secondJob, queue.jobs.get? first = some firstJob →
      queue.jobs.get? second = some secondJob → firstJob.destination ≠ secondJob.destination

theorem Indexed.offered (indexed : queue.Indexed) (order : HashOrder) (limit : Nat)
    (sessionLimit : Nat → Option Nat) :
    Offered queue (queue.startableLimited order limit sessionLimit) := by
  rw [indexed.startableLimited_eq]
  unfold referenceStartable
  obtain ⟨chosen, sub, startable, apart, distinct⟩ := foldl_offer_spec sessionLimit
    (limit - (runningJobs queue.jobs).length) (waitingJobs queue.jobs)
    { busyDestinations := (runningJobs queue.jobs).map TransferJob.destination
      perSession := fun session =>
        (runningJobs queue.jobs).countP fun job => decide (job.sessionId = session)
      startable := [] }
  simp only [startable, List.nil_append]
  have found {job : TransferJob} (member : job ∈ chosen) : queue.jobs.get? job.id = some job :=
    indexed.get?_waitingJobs job (sub member)
  have sameJob {job other : TransferJob} (member : job ∈ chosen)
      (otherFound : queue.jobs.get? job.id = some other) : other = job := by
    rw [found member, Option.some.injEq] at otherFound
    exact otherFound.symm
  constructor
  · intro id member
    obtain ⟨job, jobMember, rfl⟩ := List.mem_map.mp member
    have waiting := (List.mem_filter.mp (sub jobMember)).2
    exact ⟨job, found jobMember, by simpa using waiting⟩
  · intro id member job other running jobFound runningFound status same
    obtain ⟨chosenJob, jobMember, rfl⟩ := List.mem_map.mp member
    rw [sameJob jobMember jobFound] at same
    refine apart chosenJob jobMember (List.mem_map.mpr ⟨running, ?_, same⟩)
    exact List.mem_filter.mpr ⟨OrderedMap.mem_values_iff.mpr ⟨other, runningFound⟩,
      decide_eq_true status⟩
  · rw [List.pairwise_map]
    refine distinct.imp_of_mem ?_
    intro first second firstMember secondMember different
    refine ⟨fun sameId => ?_, fun firstJob secondJob firstFound secondFound => ?_⟩
    · have same : second = first := sameJob firstMember (sameId ▸ found secondMember)
      exact different (by rw [same])
    · rwa [sameJob firstMember firstFound, sameJob secondMember secondFound]

/-! ### Running jobs across a step -/

/-- Every running job of `result` ran in `queue` already and writes the same
paths. -/
def RunningKept (queue result : TransferQueue) : Prop :=
  ∀ id job, result.jobs.get? id = some job → job.status = .inProgress →
    ∃ before, queue.jobs.get? id = some before ∧ before.status = .inProgress ∧
      writes before = writes job

theorem RunningKept.writesApart {result : TransferQueue} (kept : RunningKept queue result)
    (apart : queue.WritesApart) : result.WritesApart := by
  intro firstId secondId first second firstFound secondFound firstRuns secondRuns different
  obtain ⟨firstBefore, firstBeforeFound, firstBeforeRuns, firstWrites⟩ :=
    kept firstId first firstFound firstRuns
  obtain ⟨secondBefore, secondBeforeFound, secondBeforeRuns, secondWrites⟩ :=
    kept secondId second secondFound secondRuns
  rw [← firstWrites, ← secondWrites]
  exact apart _ _ _ _ firstBeforeFound secondBeforeFound firstBeforeRuns secondBeforeRuns different

theorem Bulk.runningKept {result : TransferQueue} {target : Bool}
    {change : Nat → TransferJob → TransferJob} (bulk : Bulk target queue result change)
    (paths : ∀ id job, writes (change id job) = writes job)
    (runs : ∀ id job, (change id job).status = .inProgress → job.status = .inProgress) :
    RunningKept queue result := by
  intro id job found status
  rw [bulk.jobs_eq, Option.map_eq_some_iff] at found
  obtain ⟨before, beforeFound, rfl⟩ := found
  exact ⟨before, beforeFound, runs id before status, (paths id before).symm⟩

theorem Indexed.apply_runningKept (indexed : queue.Indexed) {op : QueueOp}
    (startsNone : op.startsNone queue) : RunningKept queue (op.apply queue) := by
  have unchanged {result : TransferQueue} (jobs : result.jobs = queue.jobs) :
      RunningKept queue result := fun id job found runs => ⟨job, jobs ▸ found, runs, rfl⟩
  cases op with
  | startBatch label => exact unchanged rfl
  | enqueue new =>
    intro id job found runs
    rw [QueueOp.apply, (indexed.enqueue new).jobs_eq, OrderedMap.get?_insert] at found
    split_ifs at found
    · cases found
      cases runs
    · exact ⟨job, found, runs, rfl⟩
  | editGuarded id edit =>
    rcases indexed.editGuarded id edit with ⟨_, same⟩ | ⟨before, beforeFound, updated⟩
    · rw [QueueOp.apply, same]
      exact unchanged rfl
    · intro other job found runs
      rw [QueueOp.apply, updated.jobs_eq, OrderedMap.get?_insert] at found
      split_ifs at found with sameId
      · cases found
        obtain ⟨sameSession, ran⟩ := startsNone before beforeFound
        refine ⟨before, sameId ▸ beforeFound, ran runs, ?_⟩
        simp only [writes, TransferJob.destination, TransferJob.partDestination, JobEdit.apply,
          sameSession]
      · exact ⟨job, found, runs, rfl⟩
  | retryJobs ids =>
    refine (indexed.retryJobs ids).runningKept (fun _ _ => by split_ifs <;> rfl) ?_
    intro id job
    split_ifs
    · exact fun runs => by cases runs
    · exact fun runs => runs
  | retryOrGiveUp id =>
    refine (indexed.retryOrGiveUp id).runningKept (fun _ _ => by split_ifs <;> rfl) ?_
    intro id job
    split_ifs
    · exact fun runs => by cases runs
    · exact fun runs => runs
  | cancelAllQueued =>
    refine indexed.cancelAllQueued.runningKept (fun _ _ => by split_ifs <;> rfl) ?_
    intro id job
    split_ifs
    · exact fun runs => by cases runs
    · exact fun runs => runs
  | failQueuedForSession session reason =>
    refine (indexed.failQueuedForSession session reason).runningKept
      (fun _ _ => by split_ifs <;> rfl) ?_
    intro id job
    split_ifs
    · exact fun runs => by cases runs
    · exact fun runs => runs
  | forgetBatchIfEmpty batch =>
    rw [QueueOp.apply, TransferQueue.forgetBatchIfEmpty]
    split_ifs <;> exact unchanged rfl
  | removeJobs order ids =>
    intro id job found runs
    rw [QueueOp.apply, (indexed.removeJobs order ids).jobs_eq] at found
    split_ifs at found
    exact ⟨job, found, runs, rfl⟩
  | flagUnkeptTimes batch => exact unchanged rfl
  | takeChanges => exact unchanged rfl

/-! ### Starting one job -/

theorem Indexed.startTransfer (indexed : queue.Indexed) {id : Nat} {job : TransferJob}
    (found : queue.jobs.get? id = some job) (connected : Bool) :
    (queue.startTransfer connected id).Indexed ∧
      (queue.startTransfer connected id).jobs = queue.jobs.insert id
        (if connected then begin job else setStatus (.failed "session disconnected") job) := by
  unfold TransferQueue.startTransfer TransferQueue.get
  rw [found]
  cases connected with
  | true =>
    have kept : KeepsRow job (begin job) := ⟨rfl, rfl, rfl, rfl, rfl⟩
    have updated := indexed.update found kept
    simp only [if_true, editGuarded_eq_update]
    exact ⟨updated.indexed, updated.jobs_eq⟩
  | false =>
    have kept : KeepsRow job (setStatus (.failed "session disconnected") job) :=
      ⟨rfl, rfl, rfl, rfl, rfl⟩
    have updated := indexed.update found kept
    simp only [Bool.false_eq_true, if_false, editGuarded_eq_update]
    exact ⟨updated.indexed, updated.jobs_eq⟩

/-- The rest of an offer stands after its first job was started. -/
theorem Offered.tail {result : TransferQueue} {id : Nat} {rest : List Nat} {job changed : TransferJob}
    (offered : Offered queue (id :: rest)) (found : queue.jobs.get? id = some job)
    (jobs : result.jobs = queue.jobs.insert id changed)
    (paths : changed.destination = job.destination) : Offered result rest := by
  obtain ⟨queued, free, distinct⟩ := offered
  rw [List.pairwise_cons] at distinct
  have unchanged {other : Nat} (member : other ∈ rest) :
      result.jobs.get? other = queue.jobs.get? other := by
    rw [jobs, OrderedMap.get?_insert, if_neg]
    exact fun same => (distinct.1 other member).1 same.symm
  constructor
  · intro other member
    rw [unchanged member]
    exact queued other (List.mem_cons_of_mem _ member)
  · intro other member otherJob runningId running otherFound runningFound runs
    rw [unchanged member] at otherFound
    rw [jobs, OrderedMap.get?_insert] at runningFound
    split_ifs at runningFound
    · cases runningFound
      rw [paths]
      exact (distinct.1 other member).2 job otherJob found otherFound
    · exact free other (List.mem_cons_of_mem _ member) otherJob runningId running otherFound
        runningFound runs
  · refine distinct.2.imp_of_mem ?_
    intro first second firstMember secondMember apart
    rw [unchanged firstMember, unchanged secondMember]
    exact apart

/-- Starting an offered job keeps the running jobs apart exactly when its paths
and those of the running jobs do not cross. -/
theorem startTransfer_writesApart_iff {filling : Filling} {id : Nat} {rest : List Nat}
    (indexed : filling.queue.Indexed) (apart : filling.queue.WritesApart)
    (isOffered : filling.offered = id :: rest) (offered : Offered filling.queue filling.offered) :
    (filling.queue.startTransfer true id).WritesApart ↔
      FillStep.apartFromRunning filling (.start true) := by
  rw [isOffered] at offered
  obtain ⟨job, found, waiting⟩ := offered.queued id (by simp)
  have jobs := (indexed.startTransfer found true).2
  rw [if_pos rfl] at jobs
  have startedFound : (filling.queue.startTransfer true id).jobs.get? id = some (begin job) := by
    simp [jobs]
  have otherFound {other : Nat} (different : other ≠ id) :
      (filling.queue.startTransfer true id).jobs.get? other = filling.queue.jobs.get? other := by
    rw [jobs, OrderedMap.get?_insert, if_neg different]
  have nextJob : filling.nextJob = some job := by
    rw [Filling.nextJob, isOffered]
    exact found
  have isRunningJob (running : TransferJob) : running ∈ filling.queue.activeJobs ↔
      ∃ other, filling.queue.jobs.get? other = some running ∧ running.status = .inProgress := by
    rw [indexed.activeJobs_eq, runningJobs, List.mem_filter, OrderedMap.mem_values_iff]
    simp
  have notStarted {other : Nat} {running : TransferJob}
      (runningFound : filling.queue.jobs.get? other = some running)
      (runs : running.status = .inProgress) : other ≠ id := by
    rintro rfl
    rw [found, Option.some.injEq] at runningFound
    rw [← runningFound, waiting] at runs
    cases runs
  constructor
  · intro apartAfter started isStarted running isRunning
    rw [nextJob, Option.toList_some, List.mem_singleton] at isStarted
    rw [isStarted]
    obtain ⟨other, runningFound, runs⟩ := (isRunningJob running).mp isRunning
    have different : other ≠ id := notStarted runningFound runs
    have disjoint := apartAfter id other (begin job) running startedFound
      (by rwa [otherFound different]) rfl runs different.symm
    constructor
    · intro same
      exact disjoint (a := job.destination) List.mem_cons_self (by simp [writes, same])
    · intro same
      exact disjoint (a := job.partDestination) (by simp [writes, begin, TransferJob.partDestination])
        (by simp [writes, same])
  · intro condition
    have crossing (other : Nat) (running : TransferJob)
        (runningFound : filling.queue.jobs.get? other = some running)
        (runs : running.status = .inProgress) : (writes (begin job)).Disjoint (writes running) := by
      obtain ⟨partFree, destinationFree⟩ := condition job (by rw [nextJob]; simp) running
        ((isRunningJob running).mpr ⟨other, runningFound, runs⟩)
      have destinations := offered.free id (by simp) job other running found runningFound runs
      have parts : running.partDestination ≠ job.partDestination := fun same =>
        destinations (TransferJob.destination_eq_of_partDestination_eq same)
      change (writes job).Disjoint (writes running)
      simp only [writes, List.disjoint_cons_left, List.disjoint_nil_left, and_true, List.mem_cons,
        List.not_mem_nil, or_false, not_or]
      exact ⟨⟨destinations.symm, partFree.symm⟩, ⟨destinationFree.symm, parts.symm⟩⟩
    intro firstId secondId first second firstFound secondFound firstRuns secondRuns different
    by_cases firstIs : firstId = id
    · subst firstIs
      rw [startedFound, Option.some.injEq] at firstFound
      subst firstFound
      rw [otherFound different.symm] at secondFound
      exact crossing secondId second secondFound secondRuns
    · rw [otherFound firstIs] at firstFound
      by_cases secondIs : secondId = id
      · subst secondIs
        rw [startedFound, Option.some.injEq] at secondFound
        subst secondFound
        exact fun path inFirst inStarted =>
          crossing firstId first firstFound firstRuns inStarted inFirst
      · rw [otherFound secondIs] at secondFound
        exact apart _ _ _ _ firstFound secondFound firstRuns secondRuns different

/-! ### Runs -/

/-- What every state of a run keeps. -/
structure FillSound (filling : Filling) : Prop where
  indexed : filling.queue.Indexed
  offered : Offered filling.queue filling.offered
  apart : filling.queue.WritesApart

theorem offered_nil (queue : TransferQueue) : Offered queue [] :=
  ⟨by simp, by simp, List.Pairwise.nil⟩

theorem FillSound.next {filling : Filling} (sound : FillSound filling) {step : FillStep}
    (inOrder : step.inOrder filling) (met : step.apartFromRunning filling) :
    FillSound (step.next filling) := by
  cases step with
  | offer order limit sessionLimit =>
    exact ⟨sound.indexed, sound.indexed.offered order limit sessionLimit, sound.apart⟩
  | start connected =>
    cases isOffered : filling.offered with
    | nil =>
      simp only [FillStep.next, isOffered]
      exact sound
    | cons id rest =>
      have offered := sound.offered
      rw [isOffered] at offered
      obtain ⟨job, found, _⟩ := offered.queued id (by simp)
      obtain ⟨indexed, jobs⟩ := sound.indexed.startTransfer found connected
      simp only [FillStep.next, isOffered]
      refine ⟨indexed, offered.tail found jobs (by split_ifs <;> rfl), ?_⟩
      cases connected with
      | true =>
        exact (startTransfer_writesApart_iff sound.indexed sound.apart isOffered
          sound.offered).mpr met
      | false =>
        refine RunningKept.writesApart ?_ sound.apart
        intro other otherJob otherFound runs
        rw [if_neg Bool.false_ne_true] at jobs
        rw [jobs, OrderedMap.get?_insert] at otherFound
        split_ifs at otherFound
        · cases otherFound
          cases runs
        · exact ⟨otherJob, otherFound, runs, rfl⟩
  | apply op =>
    refine ⟨sound.indexed.apply op, ?_, ?_⟩
    · simp only [FillStep.next, inOrder.1]
      exact offered_nil _
    · exact (sound.indexed.apply_runningKept inOrder.2).writesApart sound.apart

/-- In a run whose starts keep clear of the part files of running jobs, no two
running jobs ever write the same path. -/
theorem writesApart_of_fills {filling : Filling} (reached : Fills FillStep.apartFromRunning filling) :
    filling.queue.WritesApart := by
  suffices sound : FillSound filling from sound.apart
  induction reached with
  | new => exact ⟨indexed_new, offered_nil _, by simp [WritesApart, TransferQueue.new]⟩
  | step step _ inOrder met ih => exact ih.next inOrder met

/-- A download outside any batch. -/
def downloadTo (path : String) : NewJob where
  sessionId := 1
  direction := .download
  localPath := ⟨path⟩
  remotePath := path
  displayName := path
  totalBytes := 5
  batchId := none

/-- A list of steps is in order and meets a condition throughout. -/
def FillStep.allMet (condition : Filling → FillStep → Prop) : Filling → List FillStep → Prop
  | _, [] => True
  | filling, step :: rest =>
    step.inOrder filling ∧ condition filling step ∧ allMet condition (step.next filling) rest

theorem Fills.foldl {condition : Filling → FillStep → Prop} {filling : Filling}
    (reached : Fills condition filling) (steps : List FillStep)
    (met : FillStep.allMet condition filling steps) :
    Fills condition (steps.foldl FillStep.next filling) := by
  induction steps generalizing filling with
  | nil => exact reached
  | cons step rest ih => exact ih (.step step reached met.1 met.2.1) met.2.2

/-- Two downloads are entered, offered together and started. -/
def startedPair (first second : String) : List FillStep :=
  [.apply (.enqueue (downloadTo first)), .apply (.enqueue (downloadTo second)),
    .offer .insertion 2 fun _ => none, .start true, .start true]

def fillRun (steps : List FillStep) : Filling := steps.foldl FillStep.next ⟨new, []⟩

/-- The downloads of `x` and `x.part` run at the same time, and the first writes
the destination of the second. -/
theorem writesApart_fails : ¬ ∀ filling, Fills (fun _ _ => True) filling →
    filling.queue.WritesApart := by
  intro claimed
  have apart := claimed (fillRun (startedPair "/dl/x" "/dl/x.part")) (Fills.new.foldl _
    ⟨⟨rfl, trivial⟩, trivial, ⟨rfl, trivial⟩, trivial, rfl, trivial, trivial, trivial, trivial,
      trivial, trivial⟩)
  have disjoint := apart 0 1 (begin ((downloadTo "/dl/x").toJob 0))
    (begin ((downloadTo "/dl/x.part").toJob 1)) (by decide) (by decide) rfl rfl
    (by decide)
  exact disjoint (a := ((downloadTo "/dl/x.part").toJob 1).destination) (by decide)
    (by decide)

theorem writesApart_startedPair :
    (fillRun (startedPair "/dl/x" "/dl/y")).queue.WritesApart ∧
      (fillRun (startedPair "/dl/x" "/dl/y")).queue.running.keys = [0, 1] := by
  refine ⟨writesApart_of_fills (Fills.new.foldl _ ?_), by decide⟩
  exact ⟨⟨rfl, trivial⟩, trivial, ⟨rfl, trivial⟩, trivial, rfl, trivial, trivial,
    by decide, trivial, by decide, trivial⟩

end TransferQueue

end Porthmos
