import Porthmos.EngineRuns

/-!
# Nothing is stuck

In every state of a run, what runs or is planned is still going to be settled, and every
slot that could be used is used.
-/

namespace Porthmos

open TransferQueue

namespace Engine

variable {engine : Engine} {label : Label} {before after : Engine} {id : Nat}

/-! ### What is going to be settled -/

/-- What is owned is owned by a live task or by an unhandled message. -/
theorem exists_of_ownerCount_pos {tasks : Tasks} {internal : List Internal} {owner : Owner}
    (owned : 0 < ownerCount tasks internal owner) :
    (∃ task live, tasks.live.get? task = some live ∧ live.work.owner = some owner) ∨
      ∃ message ∈ internal, message.owner = some owner := by
  have one {found : Option Owner} (positive : owns owner found ≠ 0) : found = some owner := by
    unfold owns at positive
    split_ifs at positive with same
    · exact same
    · exact absurd rfl positive
  by_cases byTask : tasks.live.total (fun _ live => owns owner live.work.owner) = 0
  · right
    rw [ownerCount, byTask, Nat.zero_add] at owned
    by_contra none
    refine owned.ne' (List.sum_eq_zero fun summand member => ?_)
    obtain ⟨message, isMessage, rfl⟩ := List.mem_map.mp member
    by_contra positive
    exact none ⟨message, isMessage, one positive⟩
  · left
    by_contra none
    refine byTask (OrderedMap.total_eq_zero fun task live found => ?_)
    by_contra positive
    exact none ⟨task, live, found, one positive⟩

theorem transfer_of_owner {work : Work} (isOwner : work.owner = some (.job id)) :
    work = .transfer id := by
  cases work <;> cases isOwner
  rfl

theorem running_iff_slot : engine.Running id ↔
    ∃ slot, (slotsOf .inProgress engine.transfers.jobs).get? id = some slot := by
  simp only [get?_slotsOf_eq_some]
  constructor
  · rintro ⟨job, found, runs⟩
    exact ⟨_, job, found, runs, rfl⟩
  · rintro ⟨_, job, found, runs, _⟩
    exact ⟨job, found, runs⟩

theorem running_stays (running : before.Running id) (sound : before.Sound)
    (move : Move label before after) (notFinishes : ∀ other, label ≠ .finishes other)
    (notFails : ∀ other, label ≠ .fails other) : after.Running id := by
  rw [running_iff_slot] at running ⊢
  obtain ⟨slot, found⟩ := running
  by_cases begins : ∃ other, label = .begins other
  · obtain ⟨other, rfl⟩ := begins
    cases move with
    | begins waiting live room change =>
      obtain ⟨fresh, taken⟩ := slotsOf_begins waiting change
      refine ⟨slot, ?_⟩
      dsimp only
      rw [taken, OrderedMap.get?_insert, if_neg, found]
      rintro rfl
      rw [fresh] at found
      cases found
  · have same := running_move sound move (fun other isBegin => begins ⟨other, isBegin⟩) notFinishes
      notFails
    exact ⟨slot, same ▸ found⟩

theorem failedJob_sessionId (cancelled : Bool) (text : String) (job : TransferJob) :
    (failedJob cancelled text job).sessionId = job.sessionId := by
  unfold failedJob
  split_ifs <;> rfl

/-- A job of the queue stays, with its session and its batch, unless its row is cleared. -/
theorem present_stays {job : TransferJob} (found : before.transfers.jobs.get? id = some job)
    (sound : before.Sound) (move : Move label before after)
    (notRemoves : ∀ ids, label ≠ .removes ids) :
    ∃ last, after.transfers.jobs.get? id = some last ∧ last.sessionId = job.sessionId ∧
      last.batchId = job.batchId := by
  have changed {result : TransferQueue} {other : Nat} {old new : TransferJob}
      (change : JobChanged before.transfers result other old new)
      (sameSession : new.sessionId = old.sessionId) :
      ∃ last, result.jobs.get? id = some last ∧ last.sessionId = job.sessionId ∧
        last.batchId = job.batchId := by
    rw [change.jobs_eq, OrderedMap.get?_insert]
    split_ifs with isThis
    · subst isThis
      cases change.found.symm.trans found
      exact ⟨_, rfl, sameSession, change.kept.batchId⟩
    · exact ⟨job, found, rfl, rfl⟩
  cases move with
  | plans scan work scanning kind isNew kept => exact ⟨job, kept.jobs_eq ▸ found, rfl, rfl⟩
  | begins waiting live room change => exact changed change rfl
  | abandons waiting ended change => exact changed change rfl
  | retries interrupted live change => exact changed change rfl
  | advances transferred change => exact changed change rfl
  | enqueues inBatch waiting untried live settled sameSession entered =>
    have isOther : id ≠ before.transfers.nextId := (sound.indexed.jobs_id id job found).2.ne
    refine ⟨job, ?_, rfl, rfl⟩
    dsimp only
    rw [entered.jobs_eq, OrderedMap.get?_insert, if_neg isOther, found]
  | removes => exact absurd rfl (notRemoves _)
  | books kept next => exact ⟨job, kept.jobs_eq ▸ found, rfl, rfl⟩
  | finishes front runs ended reported change => exact changed change rfl
  | fails front isOwner runs change => exact changed change (failedJob_sessionId _ _ _)
  | records now =>
    obtain ⟨history, same⟩ := processRowChanges_eq now before
    rw [same]
    exact ⟨job, found, rfl, rfl⟩
  | settles | drops | connects | disconnects | marks | reviews | closesReviews | opensPlan
  | closesPlans | works | logs | tells | ends | removesPart => exact ⟨job, found, rfl, rfl⟩

theorem not_allows_clearFinished {moment : Moment} :
    ¬ Allows engine (.command moment .clearFinished) (.finishes id) ∧
      ¬ Allows engine (.command moment .clearFinished) (.fails id) := by
  constructor <;> rintro (plain | permits)
  · exact plain
  · cases permits
  · exact plain
  · cases permits

/-- Nothing that runs or is planned is left without something that settles it. -/
structure NothingStuck (engine : Engine) : Prop where
  running : ∀ id, engine.Running id →
    (∃ task live, engine.tasks.live.get? task = some live ∧ live.work = .transfer id) ∨
      ∃ message ∈ engine.internal, message.owner = some (.job id)
  planned : ∀ scan ∈ engine.planning,
    (∃ task live, engine.tasks.live.get? task = some live ∧
      live.work.owner = some (.scan scan.batchId)) ∨
      ∃ message ∈ engine.internal, message.owner = some (.scan scan.batchId)
  scanning : ∀ batchId, engine.sync.scanning batchId = true → engine.Planned batchId
  keeps_running : ∀ (step : EngineStep) (id : Nat), engine.Running id →
    ∃ job, (step.next engine).transfers.jobs.get? id = some job

theorem Steady.keeps_running (steady : engine.Steady) (step : EngineStep)
    (running : engine.Running id) :
    ∃ job, (step.next engine).transfers.jobs.get? id = some job := by
  by_cases clears : ∃ moment, step = .command moment .clearFinished
  · obtain ⟨moment, rfl⟩ := clears
    have still := ((steady.moves (.command moment .clearFinished)).invariant
      (fun engine => engine.Running id) steady.sound running
      fun allows sound move stillRunning => running_stays stillRunning sound move
        (fun other same => not_allows_clearFinished.1 (same ▸ allows))
        fun other same => not_allows_clearFinished.2 (same ▸ allows)).2
    obtain ⟨job, found, _⟩ := still
    exact ⟨job, found⟩
  · obtain ⟨job, found, _⟩ := running
    refine ((steady.moves step).invariant
      (fun engine => ∃ job, engine.transfers.jobs.get? id = some job) steady.sound ⟨job, found⟩
      fun {label} _ _ allows isSound move ⟨_, stillFound⟩ => ?_).2
    have notRemoves (ids : List Nat) (same : label = .removes ids) : False := by
      subst same
      rcases allows with plain | permits
      · exact plain
      · cases permits
        exact clears ⟨_, rfl⟩
    obtain ⟨last, isLast, _⟩ := present_stays stillFound isSound move notRemoves
    exact ⟨last, isLast⟩

/-- After any run, whatever was commanded and however the tasks ended, nothing is stuck. -/
theorem nothingStuck_of_run (localFs : FsTraits) (maxParallel : Nat) (onConflict : ConflictPolicy)
    (store : List HistoryEntry) (steps : List EngineStep) :
    ((Engine.new localFs maxParallel onConflict store).after steps).NothingStuck := by
  have steady := (steady_new localFs maxParallel onConflict store).after steps
  have owned := steady.sound.owned
  constructor
  · intro id running
    rw [running_iff, ← owned.jobs] at running
    rcases exists_of_ownerCount_pos running with ⟨task, live, found, isOwner⟩ | byMessage
    · exact Or.inl ⟨task, live, found, transfer_of_owner isOwner⟩
    · exact Or.inr byMessage
  · intro scan member
    have planned := (planned_iff _).mp ⟨scan, member, rfl⟩
    rw [← owned.scans] at planned
    exact exists_of_ownerCount_pos planned
  · intro batchId isOn
    rw [planned_iff, owned.scanning batchId isOn]
    exact Nat.zero_lt_one
  · exact fun step id running => steady.keeps_running step running

/-- After any run each running job has one task or message that settles it, a job that does not
run has none, and so it is with the batches that are being planned. -/
theorem owned_of_run (localFs : FsTraits) (maxParallel : Nat) (onConflict : ConflictPolicy)
    (store : List HistoryEntry) (steps : List EngineStep) :
    let engine := (Engine.new localFs maxParallel onConflict store).after steps
    (∀ id, ownerCount engine.tasks engine.internal (.job id) = runsOf engine.transfers.jobs id) ∧
    ∀ batchId, ownerCount engine.tasks engine.internal (.scan batchId) =
      scansOf engine.planning batchId ∧ scansOf engine.planning batchId ≤ 1 := by
  have owned := ((steady_new localFs maxParallel onConflict store).after steps).sound.owned
  exact ⟨owned.jobs, fun batchId => ⟨owned.scans batchId, owned.scans_le batchId⟩⟩

/-- After any run a batch that is being planned has no review, no plan and no jobs yet, one under
review has no jobs, and the jobs of a batch are all of one session. -/
theorem batches_of_run (localFs : FsTraits) (maxParallel : Nat) (onConflict : ConflictPolicy)
    (store : List HistoryEntry) (steps : List EngineStep) :
    let engine := (Engine.new localFs maxParallel onConflict store).after steps
    Batches engine.transfers.jobs engine.transfers.nextBatchId engine.planning engine.reviews
      engine.sync.plans :=
  ((steady_new localFs maxParallel onConflict store).after steps).sound.batches

/-! ### Slots -/

/-- The slots are respected and used. -/
structure SlotsUsed (engine : Engine) (maxParallel : Nat) : Prop where
  parallel : engine.transfers.activeJobs.length ≤ maxParallel
  apart : (engine.transfers.activeJobs.map TransferJob.destination).Nodup
  noneStartable : ∀ order, engine.transfers.startableLimited order engine.maxParallel
    engine.transferLimit = []

theorem length_activeJobs (sound : engine.Sound) : engine.transfers.activeJobs.length =
      slotTotal (slotsOf .inProgress engine.transfers.jobs) := by
  rw [slotTotal_eq, runningCount_eq, sound.indexed.activeJobs_eq]
  exact (congrFun List.countP_true _).symm

theorem length_activeIdsForSession (sound : engine.Sound) (session : Nat) :
    (engine.transfers.activeIdsForSession session).length =
      slotCount (slotsOf .inProgress engine.transfers.jobs) session := by
  rw [slotCount_eq, runningCount_eq, List.countP_eq_length_filter, activeIdsForSession,
    sound.indexed.activeJobs_eq, List.length_map]

theorem activeJobs_apart (sound : engine.Sound)
    (within : WithinSlots (slotsOf .inProgress engine.transfers.jobs) engine.maxParallel) :
    (engine.transfers.activeJobs.map TransferJob.destination).Nodup := by
  have distinct := List.Nodup.of_map _ sound.indexed.ids_nodup
  rw [sound.indexed.activeJobs_eq]
  refine (distinct.filter _).map_on fun first isFirst second isSecond same => ?_
  have running {job : TransferJob} (member : job ∈ runningJobs engine.transfers.jobs) :=
    running_of_mem_activeJobs sound.indexed (sound.indexed.activeJobs_eq ▸ member)
  obtain ⟨firstFound, firstRuns⟩ := running isFirst
  obtain ⟨secondFound, secondRuns⟩ := running isSecond
  have sameId := within.apart _ _ _ _ (get?_slotsOf_eq_some.mpr ⟨first, firstFound, firstRuns, rfl⟩)
    (get?_slotsOf_eq_some.mpr ⟨second, secondFound, secondRuns, rfl⟩) same
  rw [sameId, secondFound] at firstFound
  exact (Option.some.inj firstFound).symm

theorem maxParallel_after (steady : engine.Steady) (steps : List EngineStep) :
    (engine.after steps).maxParallel = engine.maxParallel :=
  steady.invariant (fun later => later.maxParallel = engine.maxParallel) rfl steps
    fun _ _ _ _ _ move same => (maxParallel_move move).trans same

/-- A live session respects its limit, and keeps to it for good. -/
def LimitsKept (engine : Engine) : Prop :=
  ∀ session live limit, engine.sessions.get? session = some live →
    live.fs.transferLimit = some limit → SessionWithin session limit engine

theorem LimitsKept.move (kept : before.LimitsKept) (sound : before.Sound)
    (move : Move label before after) : after.LimitsKept := by
  intro session live limit found isLimit
  by_cases known : session < before.nextSessionId
  · exact (kept session live limit (session_move move known found) isLimit).move sound move
  · -- The session is new, so that no job belongs to it.
    have none : slotCount (slotsOf .inProgress before.transfers.jobs) session = 0 := by
      refine OrderedMap.total_eq_zero fun id slot isSlot => if_neg ?_
      rintro rfl
      obtain ⟨job, isJob, _, rfl⟩ := get?_slotsOf_eq_some.mp isSlot
      exact known (sound.connections.jobs_lt id job isJob)
    have jobs : slotsOf .inProgress after.transfers.jobs =
        slotsOf .inProgress before.transfers.jobs := by
      cases move with
      | connects connecting front => rfl
      | disconnects => rfl
      | records now =>
        obtain ⟨history, same⟩ := processRowChanges_eq now before
        rw [same]
        rfl
      | _ => exact absurd (sound.connections.sessions_lt _ _ found) known
    refine ⟨((sound.move move).connections.sessions_lt _ _ found), fun other isOther => ?_, ?_⟩
    · rw [found] at isOther
      cases isOther
      exact isLimit
    · rw [jobs, none]
      exact Nat.zero_le _

theorem Steady.limitsKept (steady : engine.Steady) (kept : engine.LimitsKept)
    (steps : List EngineStep) : (engine.after steps).LimitsKept :=
  steady.invariant LimitsKept kept steps fun _ _ _ _ sound move still => still.move sound move

/-- After any run the slots are used as far as they may: never more jobs run than `maxParallel`,
never more of a session than the limit it was connected with, never two with one destination,
and no job more could be started.  The loop that sees to it ends whatever happened to the
queue and to the sessions. -/
theorem slotsUsed_of_run (localFs : FsTraits) (maxParallel : Nat) (onConflict : ConflictPolicy)
    (store : List HistoryEntry) (earlier later : List EngineStep) :
    SlotsUsed ((Engine.new localFs maxParallel onConflict store).after (earlier ++ later))
        maxParallel ∧
      (∀ session live limit,
        ((Engine.new localFs maxParallel onConflict store).after earlier).sessions.get? session =
          some live → live.fs.transferLimit = some limit →
        (((Engine.new localFs maxParallel onConflict store).after
          (earlier ++ later)).transfers.activeIdsForSession session).length ≤ limit) ∧
      ∀ (engine : Engine) (order : HashOrder), Reachable anyOp engine.transfers →
        ∃ rounds full, fillRounds order rounds engine = some full ∧
          full.transfers.startableLimited order full.maxParallel full.transferLimit = [] := by
  have start := steady_new localFs maxParallel onConflict store
  have steady := start.after (earlier ++ later)
  have within := start.invariant
    (fun engine => WithinSlots (slotsOf .inProgress engine.transfers.jobs) engine.maxParallel)
    ⟨Nat.zero_le _, by intro first second _ _ found; cases found⟩ (earlier ++ later)
    fun _ _ _ _ sound move still => still.move sound move
  refine ⟨⟨?_, activeJobs_apart steady.sound within, fun order =>
    (filled_iff steady.sound.indexed order).mp steady.filled⟩, ?_, ?_⟩
  · rw [length_activeJobs steady.sound]
    exact within.total_le.trans (maxParallel_after start _).le
  · intro session live limit found isLimit
    have middle := start.after earlier
    have kept := start.limitsKept (by intro session live limit found; cases found) earlier session
      live limit found isLimit
    rw [length_activeIdsForSession steady.sound, after_append]
    exact (middle.invariant (SessionWithin session limit) kept later
      fun _ _ _ _ sound move still => still.move sound move).count_le
  · intro engine order reached
    obtain ⟨full, ends⟩ := fillRounds_ends reached.indexed order (Nat.lt_succ_self _)
    exact ⟨_, full, ends, fillRounds_last ends⟩

theorem slotsUsed_of_run_first :
    SlotsUsed ((Engine.new .oneAtATime 2 .ask []).after
        (connectSteps ++ (copySteps ++ [.handle .usual]))) 2 ∧
      (((Engine.new .oneAtATime 2 .ask []).after (connectSteps ++
        (copySteps ++ [.handle .usual]))).transfers.activeIdsForSession 0).length ≤ 1 ∧
      ∃ rounds full, fillRounds .insertion rounds (Engine.new .oneAtATime 2 .ask []) = some full ∧
        full.transfers.startableLimited .insertion full.maxParallel full.transferLimit = [] := by
  obtain ⟨used, limited, ends⟩ := slotsUsed_of_run .oneAtATime 2 .ask [] connectSteps
    (copySteps ++ [.handle .usual])
  exact ⟨used, limited 0 ⟨"server", .oneAtATime⟩ 1 (by decide) rfl, ends _ .insertion .new⟩

end Engine

end Porthmos
