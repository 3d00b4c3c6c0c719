import Porthmos.QueueStarting
import Porthmos.Resuming

/-!
# Retried transfers

A job that failed is tried again, by `retry_or_give_up` or by `retry_jobs`, and
then resumes its part file.  Both set the flag to resume from the number of
attempts.  They do not ask whether an attempt got as far as opening the part file,
so a part file from before the job may be resumed that the job was told to
replace.  Bytes carry a mark that tells whether an attempt of the job read them.
-/

namespace Porthmos

open TransferQueue

variable {byte : Type*}

/-- A byte that an attempt of the job read from its source, or any other one. -/
inductive Traced (byte : Type*)
  | read (value : byte)
  | other (value : byte)
  deriving DecidableEq

def Traced.isRead : Traced byte → Bool
  | read _ => true
  | other _ => false

/-- Every byte was read from the source by an attempt of the job. -/
def OwnBytes (bytes : List (Traced byte)) : Prop := ∀ entry ∈ bytes, entry.isRead

instance (bytes : List (Traced byte)) : Decidable (OwnBytes bytes) :=
  inferInstanceAs (Decidable (∀ entry ∈ bytes, entry.isRead))

/-- The bytes an attempt reads. -/
def traced (source : List byte) : List (Traced byte) := source.map .read

theorem keptByWriting_ownBytes (source : List byte) : KeptByWriting (traced source) OwnBytes where
  nil := by simp [OwnBytes]
  of_prefix _ _ shorter own entry member := own entry (shorter.subset member)
  append kept own count entry member := by
    rcases List.mem_append.mp member with inKept | inRead
    · exact own entry inKept
    · obtain ⟨value, _, rfl⟩ := List.mem_map.mp (List.mem_of_mem_drop (List.mem_of_mem_take inRead))
      rfl

/-- How an attempt of a job goes and ends: the answers it gets, the content of its
source, whether it was marked as cancelled, and the message of its failure. -/
structure Ending (byte : Type*) (backoff : Nat) where
  conditions : Conditions (Traced byte) backoff
  sourceBackoff : Nat
  source : List byte
  cancelled : Bool
  message : String

/-- The attempt opens a part file that `resume_offset` lets it resume: both times
are known, the part file is no longer than the source, it is not older by more
than the tolerance, and more than the backoff is left of it. -/
def Conditions.resumesPart {backoff : Nat} (conditions : Conditions byte backoff)
    (sourceBackoff sourceLen : Nat) (part : Option (List byte)) : Bool :=
  conditions.opening.keepsPart &&
    match part, conditions.partStat, conditions.sourceStat with
    | some part, some (some partModified), some (some sourceModified) =>
      decide (part.length ≤ sourceLen) &&
        decide (sourceModified ≤ (partModified + clockSkewToleranceSecs) % 2 ^ 64) &&
        decide (max sourceBackoff backoff < part.length)
    | _, _, _ => false

/-- A job, the paths it writes and what is known of its attempts: the flags the
running one was started with, and whether one of them has opened the part file. -/
structure JobRun (byte : Type*) where
  queue : TransferQueue
  side : Side (Traced byte)
  running : Option (Bool × Option Nat)
  opened : Bool

/-- What `handle_transfer_event` does with the queue once an attempt has ended. -/
def TransferQueue.finishTransfer (queue : TransferQueue) (id : Nat) (cancelled : Bool)
    (message : String) : Executed → TransferQueue
  | .completed _ => queue.editGuarded id (setStatus .completed)
  | .cancelled => queue.editGuarded id (setStatus .cancelled)
  | .failed _ =>
    let queue := queue.editGuarded id
      (setStatus (if cancelled then .cancelled else .failed message))
    if cancelled then queue else (queue.retryOrGiveUp id).1

inductive JobStep (byte : Type*) (backoff : Nat)
  | start (connected : Bool)
  | finish (ending : Ending byte backoff)
  | apply (op : QueueOp)

/-- The job `id` after a step. -/
def JobStep.next {backoff : Nat} (id : Nat) (run : JobRun byte) : JobStep byte backoff → JobRun byte
  | .start connected =>
    match run.queue.get id with
    | none => run
    | some job =>
      { run with
        queue := run.queue.startTransfer connected id
        running := if connected then some (job.resume, job.modified) else run.running }
  | .finish ending =>
    match run.running with
    | none => run
    | some (resume, keepModified) =>
      let call := executePreserving ending.conditions ending.sourceBackoff
        (traced ending.source) run.side resume keepModified
      { queue := run.queue.finishTransfer id ending.cancelled ending.message call.result
        side := call.side
        running := none
        opened := run.opened || ending.conditions.opensPart }
  | .apply op => { run with queue := op.apply run.queue }

/-- Other operations leave the attempts of a job and their retries to the engine:
guarded edits of it change neither flag nor attempts and at most cancel it in the
queue. -/
def TransferQueue.QueueOp.sparesJob (queue : TransferQueue) (id : Nat) : QueueOp → Prop
  | .editGuarded other edit => other = id → ∀ job, queue.jobs.get? id = some job →
      edit.resume = job.resume ∧ edit.attempts = job.attempts ∧ edit.sessionId = job.sessionId ∧
        (edit.status = job.status ∨ job.status = .queued ∧ edit.status = .cancelled)
  | .retryOrGiveUp other => other ≠ id
  | _ => True

/-- Only a queued job is started. -/
def JobStep.inOrder {backoff : Nat} (id : Nat) (run : JobRun byte) : JobStep byte backoff → Prop
  | .start _ => (run.queue.jobs.get? id).map TransferJob.status = some .queued
  | .finish _ => True
  | .apply op => op.sparesJob run.queue id

/-- The states of a job that was enqueued not to resume, in runs whose steps meet a
condition.  Any part file may lie at its part destination. -/
inductive JobRuns {backoff : Nat} (condition : JobRun byte → JobStep byte backoff → Prop)
    (id : Nat) : JobRun byte → Prop
  | enqueue {queue : TransferQueue} (reached : Reachable anyOp queue) (new : NewJob)
      (isJob : (queue.enqueue new).2 = id) (side : Side (Traced byte)) :
      JobRuns condition id ⟨(queue.enqueue new).1, side, none, false⟩
  | step {run : JobRun byte} (step : JobStep byte backoff) (reached : JobRuns condition id run)
      (inOrder : step.inOrder id run) (met : condition run step) :
      JobRuns condition id (step.next id run)

/-- A list of steps is in order and meets a condition throughout. -/
def JobStep.allMet {backoff : Nat} (condition : JobRun byte → JobStep byte backoff → Prop) (id : Nat) :
    JobRun byte → List (JobStep byte backoff) → Prop
  | _, [] => True
  | run, step :: rest =>
    step.inOrder id run ∧ condition run step ∧ allMet condition id (step.next id run) rest

/-- An attempt that is to resume while the job has not yet opened its part file
finds none that can be resumed. -/
def JobStep.resumesOwn (backoff : Nat) (run : JobRun byte) : JobStep byte backoff → Prop
  | .finish ending => run.opened = false → (run.running.any fun flags => flags.1) →
      ending.conditions.resumesPart ending.sourceBackoff ending.source.length run.side.part = false
  | _ => True

instance (backoff : Nat) (run : JobRun byte) (step : JobStep byte backoff) :
    Decidable (step.resumesOwn backoff run) :=
  match step with
  | .finish ending => inferInstanceAs (Decidable (run.opened = false →
      (run.running.any fun flags => flags.1) → ending.conditions.resumesPart ending.sourceBackoff
        ending.source.length run.side.part = false))
  | .start _ => .isTrue trivial
  | .apply _ => .isTrue trivial

/-! ### One attempt -/

section Attempt

variable {backoff : Nat} {conditions : Conditions byte backoff} {source : List byte}
  {side : Side byte}

/-- An attempt that opens the part file where it asked for asks for its start
unless the part file can be resumed. -/
theorem requestedOffset_eq_zero_iff {sourceBackoff : Nat} {sourceModified : Option Nat}
    (statted : conditions.sourceStat = some sourceModified)
    (keeps : conditions.opening.keepsPart = true) :
    requestedOffset conditions sourceBackoff source side sourceModified true = 0 ↔
      conditions.resumesPart sourceBackoff source.length side.part = false := by
  unfold requestedOffset statPart Conditions.resumesPart
  rw [statted, keeps, if_pos rfl]
  cases side.part with
  | none => simp
  | some part =>
    cases conditions.partStat with
    | none => simp
    | some partModified =>
      unfold resumeOffset
      cases partModified with
      | none => simp
      | some partModified =>
        cases sourceModified with
        | none => simp
        | some sourceModified =>
          dsimp only
          split_ifs with refused
          · simp
            omega
          · simp
            omega

theorem requestedOffset_of_fresh {sourceBackoff : Nat} {sourceModified : Option Nat} {resume : Bool}
    (statted : conditions.sourceStat = some sourceModified)
    (keeps : conditions.opening.keepsPart = true)
    (fresh : resume = true → conditions.resumesPart sourceBackoff source.length side.part = false) :
    requestedOffset conditions sourceBackoff source side sourceModified resume = 0 := by
  cases resume with
  | false => rfl
  | true => exact (requestedOffset_eq_zero_iff statted keeps).mpr (fresh rfl)

end Attempt

section Own

variable {backoff : Nat} {conditions : Conditions (Traced byte) backoff} {source : List byte}
  {side : Side (Traced byte)}

theorem CallSpec.ownBytes {opensPart : Bool} {call : Call (Traced byte)} {timesKept : Bool}
    (spec : CallSpec OwnBytes backoff (traced source) side opensPart call)
    (completed : call.result = .completed timesKept) :
    ∃ bytes, call.side.destination = some bytes ∧ OwnBytes bytes := by
  obtain ⟨_, kept, own, written⟩ := spec.completed timesKept completed
  have all := (keptByWriting_ownBytes source).append kept own
    ((traced source).drop kept.length).length
  rw [List.take_length] at all
  exact ⟨_, written, all⟩

/-- An attempt that completes over a part file of other bytes leaves only own bytes
unless it resumes that part file. -/
theorem attempt_ownBytes_iff {sourceBackoff : Nat} {resume : Bool} {keepModified : Option Nat}
    {part : List (Traced byte)} {timesKept : Bool} (isPart : side.part = some part)
    (foreign : ∀ entry ∈ part, entry.isRead = false)
    (completed : (executePreserving conditions sourceBackoff (traced source) side resume
      keepModified).result = .completed timesKept) :
    (∃ bytes, (executePreserving conditions sourceBackoff (traced source) side resume
        keepModified).side.destination = some bytes ∧ OwnBytes bytes) ↔
      (resume = true → conditions.resumesPart sourceBackoff source.length side.part = false) := by
  have length : (traced source).length = source.length := List.length_map _
  rw [← length]
  constructor
  · rintro ⟨bytes, written, own⟩ rfl
    obtain ⟨sourceModified, granted, statted, opening, joined⟩ :=
      executePreserving_completed conditions completed
    dsimp only at joined
    rw [joined, Option.some.injEq] at written
    cases granted with
    | false => simp [Conditions.resumesPart, opening, Opening.keepsPart]
    | true =>
      have keeps : conditions.opening.keepsPart = true := by rw [opening]; rfl
      refine (requestedOffset_eq_zero_iff statted keeps).mp ?_
      by_contra positive
      have within := requestedOffset_le conditions sourceBackoff (traced source) side
        sourceModified true
      -- The first byte of the part file is kept, and it is not an own one.
      cases part with
      | nil =>
        rw [isPart] at within
        exact positive (by simpa using within)
      | cons first rest =>
        obtain ⟨less, isSucc⟩ := Nat.exists_eq_succ_of_ne_zero positive
        have isOwn := own first (by simp [← written, openedPart, isPart, isSucc])
        rw [foreign first List.mem_cons_self] at isOwn
        cases isOwn
  · intro fresh
    have kept := keptByWriting_ownBytes source
    refine CallSpec.ownBytes (executePreserving_spec conditions kept sourceBackoff resume
      keepModified ?_) completed
    intro sourceModified statted keeps
    rw [requestedOffset_of_fresh statted keeps fresh]
    exact kept.nil

end Own

/-! ### Other operations -/

namespace TransferQueue

variable {queue result : TransferQueue} {id : Nat}

/-- What other operations do with a job: they neither complete it nor stop it. -/
structure JobSpared (id : Nat) (queue result : TransferQueue) : Prop where
  nextId_le : queue.nextId ≤ result.nextId
  job : ∀ job, result.jobs.get? id = some job → ∃ before, queue.jobs.get? id = some before ∧
    (job.status = .completed → before.status = .completed) ∧
      (before.status = .inProgress → job.status = .inProgress)

theorem JobSpared.of_jobs_eq (jobs : result.jobs = queue.jobs) (nextId : result.nextId = queue.nextId) :
    JobSpared id queue result :=
  ⟨nextId.ge, fun job found => ⟨job, jobs ▸ found, fun same => same, fun same => same⟩⟩

theorem Bulk.jobSpared {target : Bool} {change : Nat → TransferJob → TransferJob}
    (bulk : Bulk target queue result change)
    (completes : ∀ job, (change id job).status = .completed → job.status = .completed)
    (stops : ∀ job, job.status = .inProgress → (change id job).status = .inProgress) :
    JobSpared id queue result := by
  refine ⟨bulk.nextId_eq.ge, fun job found => ?_⟩
  rw [bulk.jobs_eq, Option.map_eq_some_iff] at found
  obtain ⟨before, beforeFound, rfl⟩ := found
  exact ⟨before, beforeFound, completes before, stops before⟩

/-- Operations that spare a job neither complete it nor stop it. -/
theorem Indexed.apply_jobSpared (indexed : queue.Indexed) (known : id < queue.nextId)
    {op : QueueOp} (spares : op.sparesJob queue id) : JobSpared id queue (op.apply queue) := by
  cases op with
  | startBatch label => exact .of_jobs_eq rfl rfl
  | enqueue new =>
    have entered := indexed.enqueue new
    refine ⟨by rw [QueueOp.apply, entered.nextId_eq]; omega, fun job found => ?_⟩
    rw [QueueOp.apply, entered.jobs_eq, OrderedMap.get?_insert, if_neg known.ne] at found
    exact ⟨job, found, fun same => same, fun same => same⟩
  | editGuarded other edit =>
    rcases indexed.editGuarded other edit with ⟨_, same⟩ | ⟨before, beforeFound, updated⟩
    · rw [QueueOp.apply, same]
      exact .of_jobs_eq rfl rfl
    · refine ⟨updated.nextId_eq.ge, fun job found => ?_⟩
      rw [QueueOp.apply, updated.jobs_eq, OrderedMap.get?_insert] at found
      split_ifs at found with isJob
      · cases found
        refine ⟨before, isJob ▸ beforeFound, ?_⟩
        rcases (spares isJob.symm before (isJob ▸ beforeFound)).2.2.2 with same | ⟨queued, cancelled⟩
        · simp [JobEdit.apply, same]
        · simp [JobEdit.apply, queued, cancelled]
      · exact ⟨job, found, fun same => same, fun same => same⟩
  | retryJobs ids =>
    refine (indexed.retryJobs ids).jobSpared (fun job completed => ?_) fun job running => ?_
    · split_ifs at completed
      · cases completed
      · exact completed
    · rw [if_neg]
      · exact running
      · simp [running, JobStatus.isInterrupted]
  | retryOrGiveUp other =>
    have different : ¬ (id = other) := fun same => spares same.symm
    refine (indexed.retryOrGiveUp other).jobSpared (fun job completed => ?_) fun job running => ?_
    · simpa [different] using completed
    · simpa [different] using running
  | cancelAllQueued =>
    refine indexed.cancelAllQueued.jobSpared (fun job completed => ?_) fun job running => ?_
    · split_ifs at completed
      · cases completed
      · exact completed
    · simp [running]
  | failQueuedForSession session reason =>
    refine (indexed.failQueuedForSession session reason).jobSpared (fun job completed => ?_)
      fun job running => ?_
    · split_ifs at completed
      · cases completed
      · exact completed
    · simp [running]
  | forgetBatchIfEmpty batch =>
    rw [QueueOp.apply, TransferQueue.forgetBatchIfEmpty]
    split_ifs <;> exact .of_jobs_eq rfl rfl
  | removeJobs order ids =>
    have removed := indexed.removeJobs order ids
    refine ⟨removed.nextId_eq.ge, fun job found => ?_⟩
    rw [QueueOp.apply, removed.jobs_eq] at found
    split_ifs at found
    exact ⟨job, found, fun same => same, fun same => same⟩
  | flagUnkeptTimes batch => exact .of_jobs_eq rfl rfl
  | takeChanges => exact .of_jobs_eq rfl rfl

theorem Indexed.editStatus (indexed : queue.Indexed) (id : Nat) (status : JobStatus) :
    Bulk (!status.isPending) queue (queue.editGuarded id (setStatus status))
      fun other job => if other = id then setStatus status job else job := by
  rw [editGuarded_eq_update]
  exact indexed.update_bulk (fun _ _ => ⟨rfl, rfl, rfl, rfl, rfl⟩) (fun _ _ => by simp [setStatus])
    (fun _ _ _ => rfl)

/-- The end of an attempt completes its job only if the attempt did. -/
theorem Indexed.finishTransfer (indexed : queue.Indexed) (id : Nat) (cancelled : Bool)
    (message : String) (result : Executed) :
    (queue.finishTransfer id cancelled message result).Indexed ∧
      (queue.finishTransfer id cancelled message result).nextId = queue.nextId ∧
      ∀ job, (queue.finishTransfer id cancelled message result).jobs.get? id = some job →
        job.status = .completed → ∃ timesKept, result = .completed timesKept := by
  have written (status : JobStatus) (notCompleted : status ≠ .completed) (job : TransferJob)
      (found : (queue.editGuarded id (setStatus status)).jobs.get? id = some job) :
      job.status ≠ .completed := by
    rw [(indexed.editStatus id status).jobs_eq, Option.map_eq_some_iff] at found
    obtain ⟨before, _, rfl⟩ := found
    simpa [setStatus] using notCompleted
  cases result with
  | completed timesKept =>
    have bulk := indexed.editStatus id .completed
    exact ⟨bulk.indexed, bulk.nextId_eq, fun _ _ _ => ⟨timesKept, rfl⟩⟩
  | cancelled =>
    have bulk := indexed.editStatus id .cancelled
    exact ⟨bulk.indexed, bulk.nextId_eq, fun job found completed =>
      absurd completed (written .cancelled (by simp) job found)⟩
  | failed stage =>
    cases cancelled with
    | true =>
      have bulk := indexed.editStatus id .cancelled
      exact ⟨bulk.indexed, bulk.nextId_eq, fun job found completed =>
        absurd completed (written .cancelled (by simp) job found)⟩
    | false =>
      have bulk := indexed.editStatus id (.failed message)
      have retried := bulk.indexed.retryOrGiveUp id
      refine ⟨retried.indexed, retried.nextId_eq.trans bulk.nextId_eq, ?_⟩
      intro job found completed
      change ((queue.editGuarded id (setStatus (.failed message))).retryOrGiveUp id).1.jobs.get? id
        = some job at found
      rw [retried.jobs_eq, Option.map_eq_some_iff] at found
      obtain ⟨before, beforeFound, rfl⟩ := found
      split_ifs at completed
      exact absurd completed (written (.failed message) (by simp) before beforeFound)

end TransferQueue

/-! ### Runs -/

/-- What every state of a run keeps. -/
structure JobSound (backoff id : Nat) (run : JobRun byte) : Prop where
  indexed : run.queue.Indexed
  known : id < run.queue.nextId
  resumable : run.opened = true → Resumable OwnBytes backoff run.side
  inProgress : run.running.isSome → ∀ job, run.queue.jobs.get? id = some job →
    job.status = .inProgress
  completed : ∀ job, run.queue.jobs.get? id = some job → job.status = .completed →
    ∃ bytes, run.side.destination = some bytes ∧ OwnBytes bytes

section Runs

variable {backoff id : Nat} {run : JobRun byte}

theorem JobSound.call_spec (sound : JobSound backoff id run) {ending : Ending byte backoff}
    (met : JobStep.resumesOwn backoff run (.finish ending)) {resume : Bool} {keepModified : Option Nat}
    (isRunning : run.running = some (resume, keepModified)) :
    CallSpec OwnBytes backoff (traced ending.source) run.side ending.conditions.opensPart
      (executePreserving ending.conditions ending.sourceBackoff (traced ending.source) run.side
        resume keepModified) := by
  have kept := keptByWriting_ownBytes ending.source
  refine executePreserving_spec ending.conditions kept _ resume keepModified ?_
  intro sourceModified statted keeps
  cases opened : run.opened with
  | true =>
    exact (sound.resumable opened).openedPart kept
      (requestedOffset_le ending.conditions _ _ _ sourceModified resume)
  | false =>
    rw [requestedOffset_of_fresh statted keeps fun resumes => ?_]
    · exact kept.nil
    · rw [traced, List.length_map]
      exact met opened (by simp [isRunning, resumes])

/-- What an attempt leaves is sound, whatever it was started with. -/
theorem JobSound.finish (sound : JobSound backoff id run) {ending : Ending byte backoff}
    (met : JobStep.resumesOwn backoff run (.finish ending)) :
    JobSound backoff id ((JobStep.finish ending).next id run) := by
  unfold JobStep.next
  cases isRunning : run.running with
  | none => exact sound
  | some flags =>
    obtain ⟨resume, keepModified⟩ := flags
    have spec := sound.call_spec met isRunning
    dsimp only
    set call := executePreserving ending.conditions ending.sourceBackoff (traced ending.source)
      run.side resume keepModified
    obtain ⟨indexed, nextId, completes⟩ :=
      sound.indexed.finishTransfer id ending.cancelled ending.message call.result
    constructor
    case indexed => exact indexed
    case known => exact nextId ▸ sound.known
    case inProgress => exact nofun
    case completed =>
      intro job found completed
      obtain ⟨timesKept, done⟩ := completes job found completed
      exact spec.ownBytes done
    case resumable =>
      intro opened
      rcases Bool.or_eq_true_iff.mp opened with earlier | now
      · exact spec.resumable_side (sound.resumable earlier)
      · exact spec.resumable now

/-- One step keeps a run sound. -/
theorem JobSound.next (sound : JobSound backoff id run) {step : JobStep byte backoff}
    (inOrder : step.inOrder id run) (met : step.resumesOwn backoff run) :
    JobSound backoff id (step.next id run) := by
  cases step with
  | start connected =>
    obtain ⟨job, found, queued⟩ := Option.map_eq_some_iff.mp inOrder
    obtain ⟨indexed, jobs⟩ := sound.indexed.startTransfer found connected
    have started : (run.queue.startTransfer connected id).jobs.get? id = some
        (if connected then begin job else setStatus (.failed "session disconnected") job) := by
      rw [jobs, OrderedMap.get?_insert, if_pos rfl]
    simp only [JobStep.next, TransferQueue.get, found]
    constructor
    case indexed => exact indexed
    case known => exact (indexed.jobs_id id _ started).2
    case inProgress =>
      intro isRunning changed afterFound
      rw [started, Option.some.injEq] at afterFound
      subst afterFound
      cases connected with
      | true => rfl
      | false =>
        -- A queued job has no attempt that runs.
        have running := sound.inProgress isRunning job found
        rw [queued] at running
        cases running
    case completed =>
      intro changed afterFound completed
      rw [started, Option.some.injEq] at afterFound
      subst afterFound
      cases connected <;> cases completed
    case resumable => exact sound.resumable
  | finish ending => exact sound.finish met
  | apply op =>
    have spared := sound.indexed.apply_jobSpared sound.known inOrder
    constructor
    case indexed => exact sound.indexed.apply op
    case known => exact sound.known.trans_le spared.nextId_le
    case inProgress =>
      intro isRunning job found
      obtain ⟨before, beforeFound, _, keepsRunning⟩ := spared.job job found
      exact keepsRunning (sound.inProgress isRunning before beforeFound)
    case completed =>
      intro job found completed
      obtain ⟨before, beforeFound, wasCompleted, _⟩ := spared.job job found
      exact sound.completed before beforeFound (wasCompleted completed)
    case resumable => exact sound.resumable

theorem JobSound.enqueue {queue : TransferQueue} (indexed : queue.Indexed) (new : NewJob)
    (side : Side (Traced byte)) :
    JobSound backoff queue.nextId ⟨(queue.enqueue new).1, side, none, false⟩ := by
  have entered := indexed.enqueue new
  constructor
  case indexed => exact entered.indexed
  case known => rw [entered.nextId_eq]; omega
  case resumable => exact nofun
  case inProgress => exact nofun
  case completed =>
    intro job found completed
    rw [entered.jobs_eq, OrderedMap.get?_insert, if_pos rfl, Option.some.injEq] at found
    rw [← found] at completed
    cases completed

theorem JobRuns.sound (reached : JobRuns (JobStep.resumesOwn backoff) id run) :
    JobSound backoff id run := by
  induction reached with
  | enqueue reached new isJob side =>
    rw [enqueue_id] at isJob
    exact isJob ▸ JobSound.enqueue reached.indexed new side
  | step step _ inOrder met ih => exact ih.next inOrder met

/-- A job that was told not to resume holds only own bytes at its destination once
it is completed, in every run whose attempts resume no part file from before. -/
theorem ownBytes_of_jobRuns
    (reached : JobRuns (JobStep.resumesOwn backoff) id run) {job : TransferJob}
    (found : run.queue.jobs.get? id = some job) (completed : job.status = .completed) :
    ∃ bytes, run.side.destination = some bytes ∧ OwnBytes bytes :=
  reached.sound.completed job found completed

end Runs

/-! ### Two runs -/

theorem JobRuns.foldl {backoff id : Nat} {condition : JobRun byte → JobStep byte backoff → Prop}
    {run : JobRun byte} (reached : JobRuns condition id run) (steps : List (JobStep byte backoff))
    (met : JobStep.allMet condition id run steps) :
    JobRuns condition id (steps.foldl (fun run step => step.next id run) run) := by
  induction steps generalizing run with
  | nil => exact reached
  | cons step rest ih => exact ih (.step step reached met.1 met.2.1) met.2.2

/-- An attempt at a source of two bytes. -/
def twoByteAttempt (sourceStat : Option (Option Nat)) (rounds : Nat → Round) : Ending Nat 0 where
  conditions :=
    { sourceStat := sourceStat, partStat := some (some 9), opening := .opens true
      openRead := true, rounds := rounds, flush := true, shutdown := true, rename := .succeeds
      setModified := true, stop := id, stop_keeps := fun _ => by simp }
  sourceBackoff := 0
  source := [1, 2]
  cancelled := false
  message := "Transfer failed: /dl/x"

theorem attempt_ownBytes_iff_resumed :
    let conditions := (twoByteAttempt (some (some 8)) fun _ => .copy 2).conditions
    let done := executePreserving conditions 0 (traced [1, 2]) ⟨none, some [.other 7]⟩ true none
    (∃ bytes, done.side.destination = some bytes ∧ OwnBytes bytes) ↔
      (true = true → conditions.resumesPart 0 2 (some [.other 7]) = false) :=
  @attempt_ownBytes_iff _ _ _ [1, 2] _ 0 true none [.other 7] true rfl (by simp [Traced.isRead])
    (by decide)

/-- A download is entered over a part file of one foreign byte, and tried twice. -/
def triedTwice (first second : Ending Nat 0) : JobRun Nat :=
  [.start true, .finish first, .start true, .finish second].foldl
    (fun run step => JobStep.next 0 run step)
    ⟨(new.enqueue (downloadTo "/dl/x")).1, ⟨none, some [.other 7]⟩, none, false⟩

/-- A first attempt that cannot stat its source lets the second one keep the part
file from before. -/
theorem ownBytes_fails : ¬ ∀ (id : Nat) (run : JobRun Nat) (job : TransferJob),
    JobRuns (fun (_ : JobRun Nat) (_ : JobStep Nat 0) => True) id run →
    run.queue.jobs.get? id = some job → job.status = .completed →
    ∃ bytes, run.side.destination = some bytes ∧ OwnBytes bytes := by
  intro claimed
  obtain ⟨bytes, written, own⟩ := claimed 0 (triedTwice (twoByteAttempt none fun _ => .copy 2)
    (twoByteAttempt (some (some 8)) fun _ => .copy 2)) _
    ((JobRuns.enqueue .new (downloadTo "/dl/x") rfl _).foldl _
      ⟨rfl, trivial, trivial, trivial, rfl, trivial, trivial, trivial, trivial⟩) rfl
    (by decide)
  have isFirst : (triedTwice (twoByteAttempt none fun _ => .copy 2)
      (twoByteAttempt (some (some 8)) fun _ => .copy 2)).side.destination =
        some [.other 7, .read 2] := by decide
  rw [isFirst, Option.some.injEq] at written
  have foreign := own (.other 7) (by simp [← written])
  cases foreign

/-- A first attempt that opened the part file may be resumed by the second one. -/
theorem ownBytes_triedTwice : ∃ bytes,
    (triedTwice (twoByteAttempt (some (some 8)) fun round => if round = 0 then .copy 1 else .readError)
      (twoByteAttempt (some (some 8)) fun _ => .copy 2)).side.destination = some bytes ∧
      OwnBytes bytes :=
  ownBytes_of_jobRuns ((JobRuns.enqueue .new (downloadTo "/dl/x") rfl _).foldl _
    ⟨rfl, trivial, trivial, by decide, rfl, trivial, trivial, by decide, trivial⟩)
    rfl (by decide)

end Porthmos
