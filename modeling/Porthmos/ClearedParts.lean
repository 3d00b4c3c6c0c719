import Porthmos.EngineEndings

/-!
# Part files of cleared rows

Clearing the finished rows removes the part files of what was interrupted: those at this
computer at once, those at a server in a task of its own.  A run is watched for the jobs
that open their part files, so that it can be told whose leftovers are removed, and
whether a job still writes them.
-/

namespace Porthmos

open TransferQueue

/-! ### What is deleted -/

namespace Engine

/-- The jobs that a step clears. -/
def clears (engine : Engine) : EngineStep → List TransferJob
  | .command _ .clearFinished => engine.finishedIds.filterMap engine.transfers.get
  | _ => []

/-- The paths that a step deletes for `clear_finished_rows`. -/
def deletes (engine : Engine) : EngineStep → List Destination
  | .command _ .clearFinished =>
    (localParts engine.unusedJobs).map fun path => .local path.components
  | .removePart task =>
    match engine.tasks.live.get? task with
    | some ⟨.removePartials session (part :: _), _⟩ => [.remote session part]
    | _ => []
  | _ => []

end Engine

/-- An engine that is watched: which jobs have opened their part files, and which of those were
cleared. -/
structure Watched where
  engine : Engine
  opened : Nat → Bool
  leftovers : List TransferJob

/-- The engine takes a step, or a task opens the part file of the job that it transfers. -/
inductive WatchedStep
  | engine (step : EngineStep)
  | opens (task : Nat)

namespace Watched

def start (engine : Engine) : Watched := ⟨engine, fun _ => false, []⟩

def next (watched : Watched) : WatchedStep → Watched
  | .engine step =>
    { watched with
      engine := step.next watched.engine
      leftovers := watched.leftovers ++
        (watched.engine.clears step).filter fun job => watched.opened job.id }
  | .opens task =>
    match watched.engine.tasks.live.get? task with
    | some ⟨.transfer id, _⟩ => { watched with opened := Function.update watched.opened id true }
    | _ => watched

def after (watched : Watched) (steps : List WatchedStep) : Watched := steps.foldl next watched

end Watched

/-- Neither the job's destination nor its part file is the path. -/
def TransferJob.Avoids (job : TransferJob) (path : Destination) : Prop :=
  job.destination ≠ path ∧ job.partDestination ≠ path

namespace Engine

/-- No job that waits or runs writes the path. -/
def Free (engine : Engine) (path : Destination) : Prop :=
  ∀ id job, engine.transfers.jobs.get? id = some job → job.status.isPending = true → job.Avoids path

/-- A task is still to remove the part file. -/
def ToRemove (engine : Engine) (session : Nat) (part : String) : Prop :=
  ∃ task parts cancel,
    engine.tasks.live.get? task = some ⟨.removePartials session parts, cancel⟩ ∧ part ∈ parts

/-- The job would write what a task is still to remove. -/
def Endangers (engine : Engine) (job : TransferJob) : Prop :=
  ∃ session part, engine.ToRemove session part ∧ ¬ job.Avoids (.remote session part)

end Engine

namespace Watched

/-- What the step deletes was opened by a job that was cleared, and no job writes it. -/
def DeletesLeftovers (watched : Watched) (step : WatchedStep) : Prop :=
  ∀ given, step = .engine given → ∀ path ∈ watched.engine.deletes given,
    (∃ job ∈ (watched.next step).leftovers, job.partDestination = path) ∧ watched.engine.Free path

/-- The interrupted jobs whose parts the step asks to be removed have opened them, and what it
puts into the queue does not write what is still to be removed. -/
structure Heeds (watched : Watched) (step : EngineStep) : Prop where
  opened : ∀ moment, step = .command moment .clearFinished →
    ∀ job ∈ watched.engine.unusedJobs,
      job.direction = .download ∨ watched.engine.connected job.sessionId = true →
      watched.opened job.id = true
  arrives : ∀ {batchId session direction files file job},
    Engine.Arrives watched.engine step batchId session direction files → file ∈ files →
    Engine.Carries session direction file job → ¬ watched.engine.Endangers job
  requeues : ∀ {id job}, watched.engine.Requeues id step →
    watched.engine.transfers.jobs.get? id = some job → ¬ watched.engine.Endangers job

/-- Every step of the engine meets the condition. -/
def HeedsAll : Watched → List WatchedStep → Prop
  | _, [] => True
  | watched, step :: rest =>
    (∀ given, step = .engine given → watched.Heeds given) ∧ HeedsAll (watched.next step) rest

end Watched

/-! ### Jobs -/

/-- The jobs write the same paths. -/
structure SameWrites (job changed : TransferJob) : Prop where
  sessionId : changed.sessionId = job.sessionId
  direction : changed.direction = job.direction
  localPath : changed.localPath = job.localPath
  remotePath : changed.remotePath = job.remotePath

namespace SameWrites

variable {job changed last : TransferJob}

theorem refl (job : TransferJob) : SameWrites job job := ⟨rfl, rfl, rfl, rfl⟩

theorem trans (first : SameWrites job changed) (second : SameWrites changed last) :
    SameWrites job last :=
  ⟨second.sessionId.trans first.sessionId, second.direction.trans first.direction,
    second.localPath.trans first.localPath, second.remotePath.trans first.remotePath⟩

theorem avoids (same : SameWrites job changed) (path : Destination) :
    changed.Avoids path ↔ job.Avoids path := by
  unfold TransferJob.Avoids TransferJob.destination TransferJob.partDestination
  rw [same.sessionId, same.direction, same.localPath, same.remotePath]

theorem carries (same : SameWrites job changed) {session : Nat} {direction : Direction}
    {file : PlannedFile} (carried : Engine.Carries session direction file job) :
    Engine.Carries session direction file changed := by
  constructor
  · exact same.sessionId.trans carried.session_eq
  · exact same.direction.trans carried.direction_eq
  · rw [same.localPath, same.remotePath]
    exact carried.paths_eq

theorem failedJob (cancelled : Bool) (text : String) (job : TransferJob) :
    SameWrites job (failedJob cancelled text job) := by
  unfold Porthmos.failedJob
  split_ifs <;> exact ⟨rfl, rfl, rfl, rfl⟩

end SameWrites

namespace Engine

variable {engine : Engine} {label : Label} {before after : Engine} {step : EngineStep}

/-- The job was there before the step and waits or runs only if it did so then or is requeued by
the step, or it arrived with the step. -/
def JobFrom (engine : Engine) (step : EngineStep) (id : Nat) (job : TransferJob) : Prop :=
  (∃ old, engine.transfers.jobs.get? id = some old ∧ SameWrites old job ∧
    (job.status.isPending = true → old.status.isPending = true ∨ engine.Requeues id step)) ∨
  ∃ batchId session direction files file, Arrives engine step batchId session direction files ∧
    file ∈ files ∧ Carries session direction file job

theorem JobFrom.change {id : Nat} {job changed : TransferJob} (isFrom : JobFrom engine step id job)
    (same : SameWrites job changed)
    (waits : changed.status.isPending = true → job.status.isPending = true ∨ engine.Requeues id step) :
    JobFrom engine step id changed := by
  rcases isFrom with ⟨old, found, sameOld, waited⟩ | ⟨_, _, _, _, _, arrives, member, carries⟩
  · left
    refine ⟨old, found, sameOld.trans same, fun pending => ?_⟩
    rcases waits pending with still | requeued
    · exact waited still
    · exact Or.inr requeued
  · right
    exact ⟨_, _, _, _, _, arrives, member, same.carries carries⟩

theorem requeues_of_allows {id : Nat} (allows : Allows engine step (.retries id)) :
    engine.Requeues id step := by
  rcases allows with plain | permits
  · exact plain.elim
  · cases permits with
    | retries member isFirst live => exact ⟨_, _, _, rfl, member, isFirst, live⟩

/-- Every job comes from before the step. -/
def JobsFrom (engine : Engine) (step : EngineStep) (later : Engine) : Prop :=
  ∀ id job, later.transfers.jobs.get? id = some job → JobFrom engine step id job

theorem JobsFrom.refl (engine : Engine) (step : EngineStep) : JobsFrom engine step engine :=
  fun _ job found => Or.inl ⟨job, found, .refl job, Or.inl⟩

theorem JobsFrom.move (jobs : JobsFrom engine step before) (allows : Allows engine step label)
    (move : Move label before after) : JobsFrom engine step after := by
  have changed {queue : TransferQueue} {id : Nat} {job last : TransferJob}
      (change : JobChanged before.transfers queue id job last) (same : SameWrites job last)
      (waits : last.status.isPending = true →
        job.status.isPending = true ∨ engine.Requeues id step) :
      JobsFrom engine step { before with transfers := queue } := by
    intro other found isFound
    change queue.jobs.get? other = some found at isFound
    rw [change.jobs_eq] at isFound
    rcases OrderedMap.get?_insert_cases isFound with ⟨rfl, rfl⟩ | ⟨_, earlier⟩
    · exact (jobs other job change.found).change same waits
    · exact jobs other found earlier
  cases move with
  | plans scan work scanning kind isNew kept =>
    intro id job found
    exact jobs id job (kept.jobs_eq ▸ found)
  | begins waiting live room change =>
    exact changed change ⟨rfl, rfl, rfl, rfl⟩ fun _ => Or.inl (by rw [waiting]; rfl)
  | abandons waiting ended change =>
    exact changed change ⟨rfl, rfl, rfl, rfl⟩ fun _ => Or.inl (by rw [waiting]; rfl)
  | retries interrupted live change =>
    exact changed change ⟨rfl, rfl, rfl, rfl⟩ fun _ => Or.inr (requeues_of_allows allows)
  | advances transferred change => exact changed change ⟨rfl, rfl, rfl, rfl⟩ Or.inl
  | @enqueues _ transfers batchId new inBatch waiting untried live settled sameSession entered =>
    intro id job found
    change transfers.jobs.get? id = some job at found
    rw [entered.jobs_eq] at found
    rcases OrderedMap.get?_insert_cases found with ⟨_, rfl⟩ | ⟨_, earlier⟩
    · rcases allows with plain | permits
      · exact plain.elim
      · cases permits with
        | enqueues arrives member carries => exact Or.inr ⟨_, _, _, _, _, arrives, member, carries⟩
    · exact jobs id job earlier
  | @removes _ transfers ids finished reported removed =>
    intro id job found
    change transfers.jobs.get? id = some job at found
    rw [removed.jobs_eq] at found
    split_ifs at found
    exact jobs id job found
  | books kept next =>
    intro id job found
    exact jobs id job (kept.jobs_eq ▸ found)
  | finishes front runs ended reported change =>
    exact changed change ⟨rfl, rfl, rfl, rfl⟩ fun _ => Or.inl (by rw [runs]; rfl)
  | fails front isOwner runs change =>
    exact changed change (.failedJob _ _ _) fun _ => Or.inl (by rw [runs]; rfl)
  | records now =>
    obtain ⟨history, same⟩ := processRowChanges_eq now before
    rw [same]
    exact jobs
  | settles | drops | connects | disconnects | marks | reviews | closesReviews | opensPlan
  | closesPlans | works | logs | tells | ends | removesPart => exact jobs

/-! ### Parts -/

theorem mem_unusedJobs {job : TransferJob} (member : job ∈ engine.unusedJobs) :
    (∃ id ∈ engine.finishedIds, engine.transfers.get id = some job) ∧
      job.partDestination ∉ engine.destinationsStillInUse := by
  unfold unusedJobs at member
  obtain ⟨interrupted, notInUse⟩ := List.mem_filter.mp member
  exact ⟨List.mem_filterMap.mp (List.mem_filter.mp interrupted).1, of_decide_eq_true notInUse⟩

theorem free_of_notInUse {path : Destination} (notInUse : path ∉ engine.destinationsStillInUse) :
    engine.Free path := by
  intro id job found pending
  have member : job ∈ engine.transfers.jobs.values := OrderedMap.mem_values_iff.mpr ⟨id, found⟩
  unfold destinationsStillInUse at notInUse
  rw [List.mem_append, not_or] at notInUse
  constructor
  · rintro rfl
    exact notInUse.1 (List.mem_map_of_mem member)
  · rintro rfl
    exact notInUse.2 (List.mem_map_of_mem (List.mem_filter.mpr ⟨member, pending⟩))

/-- A part to remove at a server is that of an upload. -/
theorem mem_remoteParts {jobs : List TransferJob} {entry : Nat × List String} {part : String}
    (member : entry ∈ (remoteParts jobs).entries) (isPart : part ∈ entry.2) :
    ∃ job ∈ jobs, job.sessionId = entry.1 ∧ job.partDestination = .remote entry.1 part := by
  obtain ⟨session, parts⟩ := entry
  rw [OrderedMap.mem_entries_iff] at member
  have collected (uploads : List TransferJob) (start : OrderedMap Nat (List String))
      (found : (uploads.foldl (fun parts job => parts.insert job.sessionId
        ((parts.get? job.sessionId).getD [] ++ [job.remotePath ++ partSuffix])) start).get?
          session = some parts) :
      part ∈ (start.get? session).getD [] ∨ ∃ job ∈ uploads, job.sessionId = session ∧
        job.remotePath ++ partSuffix = part := by
    induction uploads generalizing start with
    | nil =>
      left
      rw [show start.get? session = some parts from found]
      exact isPart
    | cons job rest ih =>
      rcases ih _ found with earlier | ⟨other, isOther, isThis⟩
      · rw [OrderedMap.get?_insert] at earlier
        split_ifs at earlier with same
        · rw [Option.getD_some, List.mem_append, List.mem_singleton] at earlier
          rcases earlier with old | new
          · exact Or.inl (same ▸ old)
          · exact Or.inr ⟨job, List.mem_cons_self, same.symm, new.symm⟩
        · exact Or.inl earlier
      · exact Or.inr ⟨other, List.mem_cons_of_mem _ isOther, isThis⟩
  rcases collected _ .empty member with none | ⟨job, isUpload, sameSession, isThis⟩
  · rw [OrderedMap.get?_empty] at none
    exact absurd none List.not_mem_nil
  · obtain ⟨isJob, upload⟩ := List.mem_filter.mp isUpload
    refine ⟨job, isJob, sameSession, ?_⟩
    unfold TransferJob.partDestination
    rw [of_decide_eq_true upload, sameSession, ← isThis]

/-- Every part to remove was to remove before the step, or the step clears a job whose part it
is. -/
def PartsFrom (engine : Engine) (step : EngineStep) (later : Engine) : Prop :=
  ∀ session part, later.ToRemove session part → engine.ToRemove session part ∨
    ∃ moment, step = .command moment .clearFinished ∧ ∃ job ∈ engine.unusedJobs,
      engine.connected job.sessionId = true ∧ job.partDestination = .remote session part

theorem PartsFrom.move (parts : PartsFrom engine step before) (allows : Allows engine step label)
    (move : Move label before after) : PartsFrom engine step after := by
  have fewer {later : Engine} (kept : ∀ task session found cancel,
      later.tasks.live.get? task = some ⟨.removePartials session found, cancel⟩ →
      ∀ part ∈ found, before.ToRemove session part) : PartsFrom engine step later := by
    rintro session part ⟨task, found, cancel, isLive, isPart⟩
    exact parts session part (kept task session found cancel isLive part isPart)
  -- A task that is spawned for anything else removes no part.
  have spawned {work : Work} (other : ∀ session found, work ≠ .removePartials session found) :
      PartsFrom engine step (before.spawn work) := by
    apply fewer
    intro task session found cancel isLive part isPart
    rcases eq_or_found_of_spawn isLive with ⟨_, same⟩ | earlier
    · cases same
      exact absurd rfl (other session found)
    · exact ⟨task, found, cancel, earlier, isPart⟩
  cases move with
  | plans scan work scanning kind isNew kept next isOwner =>
    refine spawned fun session found same => ?_
    rw [same] at isOwner
    cases isOwner
  | begins => exact spawned nofun
  | @works connecting work isOwner isScan =>
    rcases allows with plain | permits
    · exact plain.elim
    · cases permits with
      | connecting => exact spawned nofun
      | @removals moment entry member live =>
        rintro session part ⟨task, found, cancel, isLive, isPart⟩
        rcases eq_or_found_of_spawn isLive with ⟨_, same⟩ | earlier
        · cases same
          obtain ⟨job, isJob, sameSession, isThis⟩ := mem_remoteParts member isPart
          exact Or.inr ⟨moment, rfl, job, isJob, sameSession ▸ live, isThis⟩
        · exact parts session part ⟨task, found, cancel, earlier, isPart⟩
  | marks =>
    apply fewer
    intro task session found cancel isLive part isPart
    obtain ⟨⟨work, wasCancelled⟩, isBefore, sameWork⟩ := found_of_cancel isLive
    cases sameWork
    exact ⟨task, found, wasCancelled, isBefore, isPart⟩
  | ends =>
    apply fewer
    intro task session found cancel isLive part isPart
    exact ⟨task, found, cancel, found_of_finish isLive, isPart⟩
  | @removesPart _ task removing cancelled first rest isRemoving =>
    apply fewer
    intro other session found cancel isLive part isPart
    rcases OrderedMap.get?_insert_cases isLive with ⟨_, same⟩ | ⟨_, earlier⟩
    · cases same
      exact ⟨task, _, _, isRemoving, List.mem_cons_of_mem _ isPart⟩
    · exact ⟨other, found, cancel, earlier, isPart⟩
  | records now =>
    obtain ⟨history, same⟩ := processRowChanges_eq now before
    rw [same]
    exact parts
  | abandons | retries | advances | enqueues | removes | books | finishes | fails | settles | drops
  | connects | disconnects | reviews | closesReviews | opensPlan | closesPlans | logs | tells =>
    exact parts

theorem Steady.from_next (steady : engine.Steady) (step : EngineStep) :
    JobsFrom engine step (step.next engine) ∧ PartsFrom engine step (step.next engine) :=
  ((steady.moves step).invariant
    (fun later => JobsFrom engine step later ∧ PartsFrom engine step later) steady.sound
    ⟨.refl engine step, fun _ _ => Or.inl⟩
    fun allows _ move ⟨jobs, parts⟩ => ⟨jobs.move allows move, parts.move allows move⟩).2

end Engine

/-! ### Runs -/

namespace Watched

open Engine

variable {watched : Watched} {step : EngineStep}

/-- What is still to be removed is left over from a job that was cleared, and no job writes it. -/
def Guarded (watched : Watched) : Prop :=
  ∀ session part, watched.engine.ToRemove session part →
    (∃ job ∈ watched.leftovers, job.partDestination = .remote session part) ∧
      watched.engine.Free (.remote session part)

theorem Heeds.leftover (heeds : watched.Heeds step) {moment : Moment} {job : TransferJob}
    (clears : step = .command moment .clearFinished) (unused : job ∈ watched.engine.unusedJobs)
    (reached : job.direction = .download ∨ watched.engine.connected job.sessionId = true) :
    job ∈ (watched.next (.engine step)).leftovers := by
  have opened := heeds.opened moment clears job unused reached
  obtain ⟨⟨id, isFinished, found⟩, _⟩ := mem_unusedJobs unused
  subst clears
  apply List.mem_append_right
  apply List.mem_filter.mpr
  exact ⟨List.mem_filterMap.mpr ⟨id, isFinished, found⟩, opened⟩

theorem Guarded.next (guarded : watched.Guarded) (steady : watched.engine.Steady)
    (heeds : watched.Heeds step) : (watched.next (.engine step)).Guarded := by
  obtain ⟨jobs, parts⟩ := steady.from_next step
  intro session part toRemove
  rcases parts session part toRemove with earlier | ⟨moment, rfl, job, unused, live, isThis⟩
  · obtain ⟨⟨job, left, isThis⟩, free⟩ := guarded session part earlier
    refine ⟨⟨job, List.mem_append_left _ left, isThis⟩, fun id last found pending => ?_⟩
    rcases jobs id last found with ⟨old, isOld, same, waited⟩ | ⟨_, _, _, _, _, arrives, member, carries⟩
    · rw [same.avoids]
      rcases waited pending with still | requeued
      · exact free id old isOld still
      · by_contra writes
        exact heeds.requeues requeued isOld ⟨session, part, earlier, writes⟩
    · by_contra writes
      exact heeds.arrives arrives member carries ⟨session, part, earlier, writes⟩
  · refine ⟨⟨job, heeds.leftover rfl unused (Or.inr live), isThis⟩, fun id last found pending => ?_⟩
    have free := free_of_notInUse (mem_unusedJobs unused).2
    rcases jobs id last found with ⟨old, isOld, same, waited⟩ | ⟨_, _, _, _, _, arrives, _⟩
    · rw [same.avoids, ← isThis]
      rcases waited pending with still | ⟨_, _, _, isRetry, _⟩
      · exact free id old isOld still
      · cases isRetry
    · cases arrives

theorem Guarded.opens (guarded : watched.Guarded) (task : Nat) :
    (watched.next (.opens task)).Guarded ∧ (watched.next (.opens task)).engine = watched.engine := by
  unfold Watched.next
  dsimp only
  split
  · exact ⟨guarded, rfl⟩
  · exact ⟨guarded, rfl⟩

theorem Guarded.after (guarded : watched.Guarded) (steady : watched.engine.Steady)
    {steps : List WatchedStep} (heeds : watched.HeedsAll steps) :
    (watched.after steps).Guarded ∧ (watched.after steps).engine.Steady := by
  induction steps generalizing watched with
  | nil => exact ⟨guarded, steady⟩
  | cons step rest ih =>
    obtain ⟨first, others⟩ := heeds
    cases step with
    | engine step => exact ih (guarded.next steady (first step rfl)) (steady.next step) others
    | opens task =>
      obtain ⟨still, same⟩ := guarded.opens task
      exact ih still (same ▸ steady) others

theorem HeedsAll.append {first second : List WatchedStep}
    (heeds : watched.HeedsAll (first ++ second)) :
    watched.HeedsAll first ∧ (watched.after first).HeedsAll second := by
  induction first generalizing watched with
  | nil => exact ⟨trivial, heeds⟩
  | cons step rest ih =>
    obtain ⟨one, others⟩ := heeds
    obtain ⟨earlier, later⟩ := ih others
    exact ⟨⟨one, earlier⟩, later⟩

/-- A step that meets the condition deletes only what is left over and free. -/
theorem Guarded.deletesLeftovers (guarded : watched.Guarded) {step : WatchedStep}
    (heeds : ∀ given, step = .engine given → watched.Heeds given) : watched.DeletesLeftovers step := by
  rintro given rfl path deleted
  have heeded := heeds given rfl
  cases given with
  | command moment command =>
    cases command with
    | clearFinished =>
      obtain ⟨localPart, isPart, rfl⟩ := List.mem_map.mp deleted
      obtain ⟨job, isDownload, rfl⟩ := List.mem_map.mp isPart
      obtain ⟨unused, download⟩ := List.mem_filter.mp isDownload
      have isDownload : job.direction = .download := of_decide_eq_true download
      have isThis : job.partDestination =
          .local (job.localPath.pushText partSuffix).components := by
        unfold TransferJob.partDestination
        rw [isDownload]
      refine ⟨⟨job, heeded.leftover rfl unused (Or.inl isDownload), isThis⟩, ?_⟩
      exact isThis ▸ free_of_notInUse (mem_unusedJobs unused).2
    | _ => exact absurd deleted List.not_mem_nil
  | removePart task =>
    unfold Engine.deletes at deleted
    dsimp only at deleted
    split at deleted
    next session part parts cancel found =>
      rw [List.mem_singleton] at deleted
      subst deleted
      obtain ⟨⟨job, left, isThis⟩, free⟩ :=
        guarded session part ⟨task, _, cancel, found, List.mem_cons_self⟩
      exact ⟨⟨job, List.mem_append_left _ left, isThis⟩, free⟩
    next => exact absurd deleted List.not_mem_nil
  | _ => exact absurd deleted List.not_mem_nil

theorem guarded_start (localFs : FsTraits) (maxParallel : Nat) (onConflict : ConflictPolicy)
    (store : List HistoryEntry) :
    (start (Engine.new localFs maxParallel onConflict store)).Guarded := by
  rintro session part ⟨task, parts, cancel, found, _⟩
  cases found

/-- In every run whose steps meet the condition, whatever is deleted for cleared rows is the part
file of a cleared job that had opened it, and no job that waits or runs writes it. -/
theorem deletesLeftovers_of_run (localFs : FsTraits) (maxParallel : Nat)
    (onConflict : ConflictPolicy) (store : List HistoryEntry) (earlier : List WatchedStep)
    (step : WatchedStep)
    (heeds : (start (Engine.new localFs maxParallel onConflict store)).HeedsAll
      (earlier ++ [step])) :
    ((start (Engine.new localFs maxParallel onConflict store)).after earlier).DeletesLeftovers
      step := by
  obtain ⟨before, last⟩ := heeds.append
  have guarded := guarded_start localFs maxParallel onConflict store
  have still := guarded.after (steady_new localFs maxParallel onConflict store) before
  exact still.1.deletesLeftovers last.1

theorem heeds_of_none (none : (watched.engine.tasks.live.values.all fun live =>
      match live.work with
      | .removePartials _ _ => false
      | _ => true) = true)
    (opened : ∀ moment, step = .command moment .clearFinished →
      watched.engine.unusedJobs.all (fun job => watched.opened job.id) = true) :
    watched.Heeds step := by
  have noneEndangers (job : TransferJob) : ¬ watched.engine.Endangers job := by
    rintro ⟨session, part, ⟨task, parts, cancel, found, _⟩, _⟩
    have allowed := List.all_eq_true.mp none _ (OrderedMap.mem_values_iff.mpr ⟨task, found⟩)
    cases allowed
  constructor
  · intro moment clears job member _
    exact List.all_eq_true.mp (opened moment clears) job member
  · exact fun _ _ _ => noneEndangers _
  · exact fun _ _ => noneEndangers _

/-- The copy is cancelled after its task has opened the part file, and its row is cleared. -/
def clearSteps : List WatchedStep :=
  (connectSteps ++ copySteps ++ [EngineStep.handle .usual]).map .engine ++ .opens 2 ::
    [EngineStep.command .usual .cancelAllTransfers, .finish 2 (.executed .cancelled), .handle .usual,
      .command .usual .clearFinished].map .engine

theorem deletesLeftovers_of_run_first :
    ((start (Engine.new .oneAtATime 2 .ask [])).after clearSteps).DeletesLeftovers
      (.engine (.removePart 3)) := by
  apply deletesLeftovers_of_run
  have quiet {watched : Watched} {given : EngineStep}
      (none : (watched.engine.tasks.live.values.all fun live =>
        match live.work with
        | .removePartials _ _ => false
        | _ => true) = true)
      (opened : watched.engine.unusedJobs.all (fun job => watched.opened job.id) = true) :
      ∀ other, WatchedStep.engine given = .engine other → watched.Heeds other := by
    rintro _ ⟨⟩
    exact heeds_of_none none fun _ _ => opened
  refine ⟨quiet (by decide) (by decide), quiet (by decide) (by decide),
    quiet (by decide) (by decide), quiet (by decide) (by decide), quiet (by decide) (by decide),
    quiet (by decide) (by decide), nofun, quiet (by decide) (by decide),
    quiet (by decide) (by decide), quiet (by decide) (by decide), quiet (by decide) (by decide),
    ?_, trivial⟩
  rintro _ ⟨⟩
  constructor
  · exact nofun
  · rintro _ _ _ _ _ _ ⟨⟩
  · rintro _ _ ⟨_, _, _, same, _⟩
    cases same

/-- Two files of which one is still queued when the copy is cancelled. -/
def unopenedSteps : List WatchedStep :=
  (connectSteps ++ [.command .usual (.copy (.session 0) [⟨"d", ⟨"/srv/d"⟩, true, 0⟩] .local),
      .finish 1 (.planned ⟨[⟨⟨"/srv/d/a"⟩, ⟨"/home/d/a"⟩, "a", 3, none, none, none, false⟩,
        ⟨⟨"/srv/d/b"⟩, ⟨"/home/d/b"⟩, "b", 3, none, none, none, false⟩], 0, fun _ => []⟩),
      EngineStep.handle .usual]).map .engine ++ .opens 2 ::
    [EngineStep.command .usual .cancelAllTransfers, .finish 2 (.executed .cancelled),
      .handle .usual].map .engine

/-- A part file is deleted that no job has ever opened. -/
theorem deletesLeftovers_of_run_fails :
    ¬ ∀ (localFs : FsTraits) (maxParallel : Nat) (onConflict : ConflictPolicy)
      (store : List HistoryEntry) (earlier : List WatchedStep) (step : WatchedStep),
      ((start (Engine.new localFs maxParallel onConflict store)).after earlier).DeletesLeftovers
        step := by
  intro all
  have leftovers := (all .oneAtATime 2 .ask [] unopenedSteps
    (.engine (.command .usual .clearFinished)) _ rfl
    (.local (Path.mk "/home/d/b.part").components) (by decide)).1
  revert leftovers
  decide

end Watched

end Porthmos
