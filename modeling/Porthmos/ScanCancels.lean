import Porthmos.EngineProgress

/-!
# Scans that were cancelled

Once a scan was cancelled its batch should never get jobs, a review or an open plan.  The
results of syncs look for the mark of the cancel; the result of a copy does not.  What
was cancelled stays away as long as no copy brings something after its cancel.
-/

namespace Porthmos

open TransferQueue

namespace Engine

variable {engine : Engine} {label : Label} {before after : Engine} {step : EngineStep}
  {batchId : Nat}

/-- The batch is not new and has no jobs, no review and no open plan. -/
structure Nothing (batchId : Nat) (engine : Engine) : Prop where
  known : batchId < engine.transfers.nextBatchId
  noJobs : engine.NoJobs batchId
  notReviewed : ¬ engine.Reviewed batchId
  noPlan : engine.sync.plans.get? batchId = none

/-- The batch has nothing, and if its scan is still planned it is marked. -/
structure Doomed (batchId : Nat) (engine : Engine) : Prop where
  nothing : Nothing batchId engine
  marked : engine.Planned batchId → engine.tasks.cancelled (.planning batchId) = true

/-- What a plan brings: files to queue, or conflicts to ask about. -/
def Brings (engine : Engine) (session : Nat) (plan : DirectoryPlan) : Prop :=
  engine.connected session = true ∧
    if conflictIndices plan = [] then (resolve plan []).files ≠ []
    else ∀ answers, automaticAnswers engine.onConflict plan = some answers →
      (resolve plan answers).files ≠ []

/-- If the step takes up the plan of a copy of the batch whose scan was cancelled, the plan
brings nothing. -/
def Discards (batchId : Nat) (engine : Engine) (step : EngineStep) : Prop :=
  ∀ moment session direction plan rest, step = .handle moment →
    engine.internal = .transfer (.planReady batchId session direction plan) :: rest →
    engine.tasks.cancelled (.planning batchId) = true → ¬ engine.Brings session plan

/-- Every step of the run discards what was cancelled of the batch. -/
def DiscardsAll (batchId : Nat) : Engine → List EngineStep → Prop
  | _, [] => True
  | engine, step :: rest =>
    Discards batchId engine step ∧ DiscardsAll batchId (step.next engine) rest

/-! ### Steps -/

theorem Doomed.front_marked (doomed : Doomed batchId engine) (sound : engine.Sound)
    {message : Internal} {rest : List Internal} (front : engine.internal = message :: rest)
    (isOwner : message.owner = some (.scan batchId)) :
    engine.tasks.cancelled (.planning batchId) = true :=
  doomed.marked (planned_of_front sound front isOwner)

/-- A step that discards what was cancelled queues nothing for the batch. -/
theorem Doomed.not_enqueues (doomed : Doomed batchId engine) (sound : engine.Sound)
    (discards : Discards batchId engine step) (job : TransferJob) :
    ¬ Allows engine step (.enqueues batchId job) := by
  rintro (plain | permits)
  · exact plain
  · cases permits with
    | enqueues arrives member carries =>
      cases arrives with
      | planned front live answered =>
        apply discards _ _ _ _ _ rfl front (doomed.front_marked sound front rfl)
        constructor
        · exact live
        · split_ifs with none
          · rcases answered with ⟨_, rfl⟩ | automatic
            · exact List.ne_nil_of_mem member
            · rw [automaticAnswers, none] at automatic
              cases automatic
              exact List.ne_nil_of_mem member
          · intro answers automatic
            rcases answered with ⟨noConflicts, _⟩ | isAnswer
            · exact absurd noConflicts none
            · rw [isAnswer] at automatic
              cases automatic
              exact List.ne_nil_of_mem member
      | folders front kept live =>
        rw [doomed.front_marked sound front rfl] at kept
        cases kept
      | answered found =>
        obtain ⟨isBatch, member, _⟩ := review_found sound found
        exact doomed.nothing.notReviewed ⟨_, member, isBatch⟩

theorem Doomed.not_reviews (doomed : Doomed batchId engine) (sound : engine.Sound)
    (discards : Discards batchId engine step) : ¬ Allows engine step (.reviews batchId) := by
  rintro (plain | permits)
  · exact plain
  · cases permits with
    | reviews front live conflicts unanswered =>
      apply discards _ _ _ _ _ rfl front (doomed.front_marked sound front rfl)
      refine ⟨live, ?_⟩
      rw [if_neg conflicts, unanswered]
      exact nofun

theorem Doomed.not_opensPlan (doomed : Doomed batchId engine) (sound : engine.Sound) :
    ¬ Allows engine step (.opensPlan batchId) := by
  rintro (plain | permits)
  · exact plain
  · cases permits with
    | opensPlan front kept =>
      rw [doomed.front_marked sound front rfl] at kept
      cases kept

/-- What is not queued, reviewed or opened for the batch leaves it with nothing. -/
theorem Nothing.move (nothing : Nothing batchId before) (move : Move label before after)
    (notEnqueues : ∀ job, label ≠ .enqueues batchId job) (notReviews : label ≠ .reviews batchId)
    (notOpens : label ≠ .opensPlan batchId) : Nothing batchId after := by
  obtain ⟨known, noJobs, notReviewed, noPlan⟩ := nothing
  -- A job that changes keeps its batch.
  have changed {queue : TransferQueue} {id : Nat} {job last : TransferJob}
      (change : JobChanged before.transfers queue id job last) :
      Nothing batchId { before with transfers := queue } := by
    refine ⟨change.nextBatchId_eq.symm ▸ known, ?_, notReviewed, noPlan⟩
    intro other found isFound
    change queue.jobs.get? other = some found at isFound
    rw [change.jobs_eq] at isFound
    rcases OrderedMap.get?_insert_cases isFound with ⟨_, rfl⟩ | ⟨_, earlier⟩
    · rw [change.kept.batchId]
      exact noJobs id job change.found
    · exact noJobs other found earlier
  have keep {other : Engine} (isNothing : Nothing batchId other)
      (transfers : other.transfers = after.transfers)
      (reviews : other.reviews = after.reviews) (plans : other.sync.plans = after.sync.plans) :
      Nothing batchId after := by
    obtain ⟨isKnown, none, noReview, noneOpen⟩ := isNothing
    unfold NoJobs at none
    unfold Reviewed at noReview
    rw [transfers] at isKnown none
    rw [reviews] at noReview
    rw [plans] at noneOpen
    exact ⟨isKnown, none, noReview, noneOpen⟩
  cases move with
  | plans scan work scanning kind isNew kept next =>
    exact ⟨next.symm ▸ Nat.lt_succ_of_lt known,
      fun id job found => noJobs id job (kept.jobs_eq ▸ found), notReviewed, noPlan⟩
  | begins waiting live room change => exact keep (changed change) rfl rfl rfl
  | abandons waiting ended change => exact changed change
  | retries interrupted live change => exact changed change
  | advances transferred change => exact changed change
  | @enqueues _ transfers other job inBatch waiting untried live settled sameSession entered =>
    refine ⟨entered.nextBatchId_eq.symm ▸ known, ?_, notReviewed, noPlan⟩
    intro id last found
    change transfers.jobs.get? id = some last at found
    rw [entered.jobs_eq] at found
    rcases OrderedMap.get?_insert_cases found with ⟨_, rfl⟩ | ⟨_, earlier⟩
    · rw [inBatch]
      rintro ⟨⟩
      exact notEnqueues _ rfl
    · exact noJobs id last earlier
  | @removes _ transfers ids finished reported removed =>
    refine ⟨removed.nextBatchId_eq.symm ▸ known, ?_, notReviewed, noPlan⟩
    intro id last found
    change transfers.jobs.get? id = some last at found
    rw [removed.jobs_eq] at found
    split_ifs at found
    exact noJobs id last found
  | books kept next =>
    exact ⟨next.symm ▸ known, fun id job found => noJobs id job (kept.jobs_eq ▸ found),
      notReviewed, noPlan⟩
  | finishes front runs ended reported change => exact keep (changed change) rfl rfl rfl
  | fails front isOwner runs change => exact keep (changed change) rfl rfl rfl
  | reviews review live settled none =>
    refine ⟨known, noJobs, ?_, noPlan⟩
    rintro ⟨other, reviewed, rfl⟩
    rcases List.mem_append.mp reviewed with old | new
    · exact notReviewed ⟨other, old, rfl⟩
    · rw [List.mem_singleton.mp new] at notReviews
      exact notReviews rfl
  | closesReviews fewer =>
    refine ⟨known, noJobs, ?_, noPlan⟩
    rintro ⟨review, reviewed, isBatch⟩
    exact notReviewed ⟨review, fewer.subset reviewed, isBatch⟩
  | opensPlan other plan named live settled =>
    refine ⟨known, noJobs, notReviewed, ?_⟩
    change (before.sync.plans.insert other plan).get? batchId = none
    rw [OrderedMap.get?_insert, if_neg, noPlan]
    rintro rfl
    exact notOpens rfl
  | @closesPlans _ plans fewer =>
    refine ⟨known, noJobs, notReviewed, ?_⟩
    change plans.get? batchId = none
    rw [Option.eq_none_iff_forall_ne_some]
    intro plan found
    rw [fewer batchId plan found] at noPlan
    cases noPlan
  | records now =>
    obtain ⟨history, same⟩ := processRowChanges_eq now before
    rw [same]
    exact ⟨known, noJobs, notReviewed, noPlan⟩
  | settles | drops | connects | disconnects | marks | works | logs | tells | ends | removesPart =>
    exact ⟨known, noJobs, notReviewed, noPlan⟩

/-- The mark of a planned scan stays. -/
theorem marked_move (known : batchId < before.transfers.nextBatchId)
    (marked : before.Planned batchId → before.tasks.cancelled (.planning batchId) = true)
    (move : Move label before after) :
    after.Planned batchId → after.tasks.cancelled (.planning batchId) = true := by
  cases move with
  | plans scan work scanning kind isNew =>
    rintro ⟨other, planned, rfl⟩
    rcases List.mem_append.mp planned with old | new
    · exact marked ⟨other, old, rfl⟩
    · rw [List.mem_singleton.mp new] at known
      omega
  | @finishes _ _ id =>
    have isOther : Scope.planning batchId ≠ .transfer id := nofun
    exact fun planned => (forget_of_ne _ isOther).trans (marked planned)
  | @fails _ _ id =>
    have isOther : Scope.planning batchId ≠ .transfer id := nofun
    exact fun planned => (forget_of_ne _ isOther).trans (marked planned)
  | @settles _ settled =>
    rintro ⟨scan, planned, rfl⟩
    obtain ⟨wasPlanned, notSettled⟩ := List.mem_filter.mp planned
    have isOther : Scope.planning scan.batchId ≠ .planning settled :=
      fun same => of_decide_eq_true notSettled (Scope.planning.inj same)
    exact (forget_of_ne _ isOther).trans (marked ⟨scan, wasPlanned, rfl⟩)
  | marks =>
    intro planned
    change Function.update before.tasks.cancelled _ true _ = true
    rw [Function.update_apply]
    split_ifs
    · rfl
    · exact marked planned
  | records now =>
    obtain ⟨history, same⟩ := processRowChanges_eq now before
    rw [same]
    exact marked
  | begins | abandons | retries | advances | enqueues | removes | books | drops | connects
  | disconnects | reviews | closesReviews | opensPlan | closesPlans | works | logs | tells | ends
  | removesPart => exact marked

theorem Doomed.move (doomed : Doomed batchId before) (move : Move label before after)
    (notEnqueues : ∀ job, label ≠ .enqueues batchId job) (notReviews : label ≠ .reviews batchId)
    (notOpens : label ≠ .opensPlan batchId) : Doomed batchId after :=
  ⟨doomed.nothing.move move notEnqueues notReviews notOpens,
    marked_move doomed.nothing.known doomed.marked move⟩

theorem Nothing.plain (nothing : Nothing batchId before) (sound : before.Sound)
    (moves : Moves Label.Plain before after) : Nothing batchId after := by
  apply (moves.invariant (Nothing batchId) sound nothing _).2
  intro label before after isPlain _ move still
  apply still.move move
  · rintro job rfl
    exact isPlain
  · rintro rfl
    exact isPlain
  · rintro rfl
    exact isPlain

theorem Steady.doomed_next (steady : engine.Steady) (doomed : Doomed batchId engine)
    (discards : Discards batchId engine step) : Doomed batchId (step.next engine) := by
  apply ((steady.moves step).invariant (Doomed batchId) steady.sound doomed _).2
  intro label before after allows _ move still
  apply still.move move
  · rintro job rfl
    exact doomed.not_enqueues steady.sound discards job allows
  · rintro rfl
    exact doomed.not_reviews steady.sound discards allows
  · rintro rfl
    exact doomed.not_opensPlan steady.sound allows

/-! ### What is brought all the same -/

theorem jobs_stay {allowed : Label → Prop} (moves : Moves allowed before after) (sound : before.Sound)
    (notRemoves : ∀ ids, ¬ allowed (.removes ids)) (some : ¬ before.NoJobs batchId) :
    ¬ after.NoJobs batchId := by
  apply (moves.invariant (fun later => ¬ later.NoJobs batchId) sound some _).2
  intro label before after isAllowed isSound move still none
  apply still
  intro id job found inBatch
  have notThis (ids : List Nat) : label ≠ .removes ids := by
    rintro rfl
    exact notRemoves ids isAllowed
  obtain ⟨last, isLast, _, sameBatch⟩ := present_stays found isSound move notThis
  exact none id last isLast (sameBatch.trans inBatch)

/-- A plan with files to queue leaves jobs. -/
theorem applyPlanReady_jobs (sound : engine.Sound) (order : HashOrder) {session : Nat}
    {direction : Direction} {plan : DirectoryPlan} {answers : List Resolution}
    (files : (resolve plan answers).files ≠ []) (live : engine.connected session = true)
    (settled : engine.Settled batchId) (noJobs : engine.NoJobs batchId) :
    ¬ (engine.applyPlanReady order batchId session direction plan answers false).NoJobs batchId := by
  obtain ⟨file, rest, isFiles⟩ := List.exists_cons_of_ne_nil files
  obtain ⟨job, entered, isQueued⟩ :=
    enqueueFile_entered sound.indexed batchId session direction false file
  have isSession := isQueued.carries.session_eq
  have move : Move (.enqueues batchId job) engine (engine.setTransfers
      (enqueueFile batchId session direction false engine.transfers file)) :=
    .enqueues isQueued.inBatch isQueued.waiting isQueued.untried (isSession.symm ▸ live) settled
      (fun id other found inBatch => absurd inBatch (noJobs id other found)) entered
  have some : ¬ (engine.setTransfers
      (enqueueFile batchId session direction false engine.transfers file)).NoJobs batchId :=
    fun none => none _ job entered.get?_self isQueued.inBatch
  have isSound := sound.move move
  have sessions (id : Nat) (other : TransferJob)
      (found : (enqueueFile batchId session direction false engine.transfers file).jobs.get? id =
        .some other) (inBatch : other.batchId = .some batchId) : other.sessionId = session := by
    rw [entered.jobs_eq] at found
    rcases OrderedMap.get?_insert_cases found with ⟨_, rfl⟩ | ⟨_, earlier⟩
    · exact isSession
    · exact absurd inBatch (noJobs id other earlier)
  have queued : Moves (fun label => ∃ job, label = .enqueues batchId job)
      (engine.setTransfers (enqueueFile batchId session direction false engine.transfers file))
      ((engine.setTransfers (enqueueFile batchId session direction false engine.transfers
        file)).setTransfers (rest.foldl (enqueueFile batchId session direction false)
          (enqueueFile batchId session direction false engine.transfers file))) := by
    apply foldl_enqueueFile_moves isSound false
    · exact fun _ _ job _ => ⟨job, rfl⟩
    · exact live
    · exact ⟨entered.nextBatchId_eq.symm ▸ settled.known, settled.notPlanned, settled.notReviewed⟩
    · exact sessions
  have allQueued := jobs_stay queued isSound (by rintro ids ⟨_, ⟨⟩⟩) some
  have queuedSound := queued.sound isSound
  -- Nothing that follows takes a job away.
  have kept := forgetBatchIfEmpty_moves queuedSound batchId
  have keptSound := kept.sound queuedSound
  have filling := (fillTransferSlots_moves keptSound order).1
  have last := jobs_stay filling keptSound (by rintro ids ⟨_, ⟨⟩⟩)
    (jobs_stay kept queuedSound (fun _ isPlain => isPlain) allQueued)
  unfold applyPlanReady
  rw [isFiles]
  exact last

theorem Nothing.of_publish {moment : Moment}
    (nothing : Nothing batchId ((engine.processRowChanges moment.now).requestPublish moment)) :
    engine.NoJobs batchId ∧ ¬ engine.Reviewed batchId := by
  obtain ⟨history, same⟩ := publish_eq moment engine
  rw [same] at nothing
  exact ⟨nothing.noJobs, nothing.notReviewed⟩

/-- A plan that brings something brings it to a batch that was cancelled, too. -/
theorem Steady.not_nothing_of_brings (steady : engine.Steady) (moment : Moment) {session : Nat}
    {direction : Direction} {plan : DirectoryPlan} {rest : List Internal}
    (front : engine.internal = .transfer (.planReady batchId session direction plan) :: rest)
    (brings : engine.Brings session plan) :
    ¬ Nothing batchId (EngineStep.next engine (.handle moment)) := by
  have sound := steady.sound
  have off := sound.owned.message_scanned _ (front ▸ List.mem_cons_self) batchId false rfl
  obtain ⟨isSettled, noJobs⟩ := settle_settled sound front rfl
  have settledSound := ((settle_moves moment front rfl).mono fun _ => And.left).sound sound
  obtain ⟨live, files⟩ := brings
  have isNext : EngineStep.next engine (.handle moment) =
      (((engine.settle rest batchId).reviewOrApplyPlan moment.order batchId session direction
        plan).processRowChanges moment.now).requestPublish moment := by
    rw [EngineStep.next, front]
    change ((((engine.take rest).planReady moment.order batchId session direction
      plan).processRowChanges moment.now).requestPublish moment) = _
    unfold planReady
    rw [clearPlanning_take off]
    dsimp only
    rw [if_pos (show (engine.settle rest batchId).connected session = true from live)]
  rw [isNext]
  intro nothing
  obtain ⟨none, notReviewed⟩ := nothing.of_publish
  unfold reviewOrApplyPlan at none notReviewed
  split_ifs at files none notReviewed with noConflicts
  · exact applyPlanReady_jobs settledSound moment.order files live isSettled noJobs none
  · cases automatic : automaticAnswers engine.onConflict plan with
    | some answers =>
      rw [show (engine.settle rest batchId).onConflict = engine.onConflict from rfl, automatic] at none
      exact applyPlanReady_jobs settledSound moment.order (files answers automatic) live isSettled
        noJobs none
    | none =>
      rw [show (engine.settle rest batchId).onConflict = engine.onConflict from rfl,
        automatic] at notReviewed
      apply notReviewed
      exact ⟨_, List.mem_append_right _ List.mem_cons_self, rfl⟩

/-- From a batch that is doomed, a run leaves it with nothing in each of its states if and only if
every step discards what was cancelled. -/
theorem Steady.discardsAll_iff (steady : engine.Steady) (doomed : Doomed batchId engine)
    (steps : List EngineStep) :
    (∀ handled, handled <+: steps → Nothing batchId (engine.after handled)) ↔
      DiscardsAll batchId engine steps := by
  induction steps generalizing engine with
  | nil =>
    constructor
    · exact fun _ => trivial
    · rintro _ handled isPrefix
      rw [List.prefix_nil.mp isPrefix]
      exact doomed.nothing
  | cons step rest ih =>
    constructor
    · intro nothing
      have discards : Discards batchId engine step := by
        rintro moment session direction plan others rfl front _ brings
        exact steady.not_nothing_of_brings moment front brings (nothing [.handle moment] ⟨rest, rfl⟩)
      have next := steady.doomed_next doomed discards
      exact ⟨discards, (ih (steady.next step) next).mp fun handled isPrefix =>
        nothing (step :: handled) (List.prefix_cons_inj step |>.mpr isPrefix)⟩
    · rintro ⟨discards, later⟩ handled isPrefix
      have next := steady.doomed_next doomed discards
      cases handled with
      | nil => exact doomed.nothing
      | cons first others =>
        obtain ⟨rfl, isRest⟩ := List.cons_prefix_cons.mp isPrefix
        exact (ih (steady.next first) next).mpr later others isRest

/-! ### Cancels -/

/-- What cancels a scan: a cancel of everything or of its row. -/
inductive CancelsScan (batchId : Nat) : EngineStep → Prop
  | all {moment : Moment} : CancelsScan batchId (.command moment .cancelAllTransfers)
  | row {moment : Moment} : CancelsScan batchId (.command moment (.cancelRow (.scan batchId)))

theorem nothing_of_planned (sound : engine.Sound) (planned : engine.Planned batchId) :
    Nothing batchId engine := by
  obtain ⟨scan, isPlanned, rfl⟩ := planned
  have batches := sound.batches
  constructor
  · exact batches.scans_lt scan isPlanned
  · exact batches.planned_jobs scan isPlanned
  · rintro ⟨review, reviewed, same⟩
    exact batches.planned_reviews scan isPlanned review reviewed same
  · exact batches.planned_plans scan isPlanned

theorem cancelRow_marks (planned : engine.Planned batchId) :
    (engine.cancelRow (.scan batchId)).tasks.cancelled (.planning batchId) = true := by
  obtain ⟨scan, isPlanned, isBatch⟩ := planned
  have isAny : (engine.planning.any fun scan => decide (scan.batchId = batchId)) = true :=
    List.any_eq_true.mpr ⟨scan, isPlanned, decide_eq_true isBatch⟩
  unfold cancelRow
  dsimp only
  rw [if_pos isAny, (dropConflictReviews_keeps _ _).2.1]
  exact Function.update_self _ _ _

theorem cancelAllCopies_marks (planned : engine.Planned batchId) :
    engine.cancelAllCopies.tasks.cancelled (.planning batchId) = true := by
  obtain ⟨scan, isPlanned, rfl⟩ := planned
  unfold cancelAllCopies
  dsimp only
  rw [cancelAllWork_eq]
  apply mem_foldl_cancelScope
  left
  apply List.mem_append_left
  refine List.mem_map.mpr ⟨scan, ?_, rfl⟩
  change scan ∈ (engine.dropConflictReviews fun _ => true).planning
  rw [(dropConflictReviews_keeps _ _).2.2.2.2]
  exact isPlanned

theorem CancelsScan.doomed (cancels : CancelsScan batchId step) (sound : engine.Sound)
    (planned : engine.Planned batchId) : Doomed batchId (step.next engine) := by
  have nothing := nothing_of_planned sound planned
  have then_records {moment : Moment} {middle : Engine} (moves : Moves Label.Plain engine middle)
      (marked : middle.tasks.cancelled (.planning batchId) = true) :
      Doomed batchId ((middle.processRowChanges moment.now).requestPublish moment) := by
    constructor
    · exact nothing.plain sound (moves.trans (publish_moves moment middle))
    · intro _
      obtain ⟨history, same⟩ := publish_eq moment middle
      rw [same]
      exact marked
  cases cancels with
  | all => exact then_records (cancelAllCopies_moves sound) (cancelAllCopies_marks planned)
  | row => exact then_records (cancelRow_moves sound (.scan batchId)) (cancelRow_marks planned)

/-- If a scan of a run is cancelled while it is planned, its batch has nothing in any state that
follows, if and only if no step takes up a plan of its copy that brings something. -/
theorem nothing_of_run_iff (localFs : FsTraits) (maxParallel : Nat) (onConflict : ConflictPolicy)
    (store : List HistoryEntry) (earlier later : List EngineStep) (step : EngineStep) (batchId : Nat)
    (planned : ((Engine.new localFs maxParallel onConflict store).after earlier).Planned batchId)
    (cancels : CancelsScan batchId step) :
    (∀ handled, handled <+: later → Nothing batchId
      ((Engine.new localFs maxParallel onConflict store).after (earlier ++ step :: handled))) ↔
      DiscardsAll batchId
        ((Engine.new localFs maxParallel onConflict store).after (earlier ++ [step])) later := by
  have steady := (steady_new localFs maxParallel onConflict store).after earlier
  have doomed := cancels.doomed steady.sound planned
  have isExact := (steady.next step).discardsAll_iff doomed later
  simp only [after_append]
  exact isExact

theorem nothing_of_run_cancelled :
    Nothing 0 ((Engine.new .oneAtATime 2 .ask []).after ((connectSteps ++
      [.command .usual (.copy .local [⟨"a", ⟨"/home/a"⟩, false, 3⟩] (.session 0))]) ++
        .command .usual .cancelAllTransfers :: [.finish 1 .cancelled])) := by
  have isPlanned : ((Engine.new .oneAtATime 2 .ask []).after (connectSteps ++
      [.command .usual (.copy .local [⟨"a", ⟨"/home/a"⟩, false, 3⟩] (.session 0))])).planning.any
        (fun scan => decide (scan.batchId = 0)) = true := by decide
  obtain ⟨scan, member, isBatch⟩ := List.any_eq_true.mp isPlanned
  apply (nothing_of_run_iff .oneAtATime 2 .ask [] _ [.finish 1 .cancelled]
    (.command .usual .cancelAllTransfers) 0 ⟨scan, member, of_decide_eq_true isBatch⟩ .all).mpr
  · constructor
    · intro moment session direction plan rest same
      cases same
    · trivial
  · exact List.prefix_rfl

/-- A cancel is lost when the plan of the copy waits in the channel already. -/
theorem nothing_of_run_fails :
    ¬ ∀ (localFs : FsTraits) (maxParallel : Nat) (onConflict : ConflictPolicy)
      (store : List HistoryEntry) (earlier later : List EngineStep) (step : EngineStep)
      (batchId : Nat),
      ((Engine.new localFs maxParallel onConflict store).after earlier).Planned batchId →
      CancelsScan batchId step →
      Nothing batchId
        ((Engine.new localFs maxParallel onConflict store).after (earlier ++ step :: later)) := by
  intro kept
  have isPlanned : ((Engine.new .oneAtATime 2 .ask []).after
      (connectSteps ++ copySteps)).planning.any (fun scan => decide (scan.batchId = 0)) = true := by
    decide
  have isQueued : (((Engine.new .oneAtATime 2 .ask []).after (connectSteps ++ copySteps ++
      .command .usual .cancelAllTransfers :: [.handle .usual])).transfers.jobs.get? 0).any
        (fun job => decide (job.batchId = some 0)) = true := by decide
  obtain ⟨scan, member, isBatch⟩ := List.any_eq_true.mp isPlanned
  have nothing := kept .oneAtATime 2 .ask [] (connectSteps ++ copySteps) [.handle .usual]
    (.command .usual .cancelAllTransfers) 0 ⟨scan, member, of_decide_eq_true isBatch⟩ .all
  generalize (Engine.new .oneAtATime 2 .ask []).after (connectSteps ++ copySteps ++
    .command .usual .cancelAllTransfers :: [.handle .usual]) = engine at *
  obtain ⟨job, found, inBatch⟩ := any_eq_true isQueued
  exact nothing.noJobs 0 job found (of_decide_eq_true inBatch)

end Engine

end Porthmos
