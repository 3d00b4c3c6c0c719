import Porthmos.EngineFilling

/-!
# The handlers in moves

Every handler is a chain of moves.  Where it frees a slot or queues a job it fills the
slots afterwards, so that it never leaves one unused.
-/

namespace Porthmos

open TransferQueue

/-! ### Labels -/

/-- What any step may do at any time. -/
def Label.Plain : Label → Prop
  | .plans _ | .begins _ | .abandons _ | .advances _ | .books | .drops | .connects | .marks _
  | .closesReviews | .closesPlans | .records | .logs | .tells | .ends _ | .removesPart _ => True
  | _ => False

theorem Label.Plain.calm {label : Label} (plain : label.Plain) : label.Calm := by
  cases label <;> trivial

/-- A chain of moves after which no slot is wasted that was not wasted before. -/
def Refills (allowed : Label → Prop) (before after : Engine) : Prop :=
  Moves (fun label => allowed label ∧ label.Calm) before after ∨
    ∃ middle : Engine, Moves allowed before middle ∧ middle.Filled ∧
      Moves (fun label => allowed label ∧ label.Calm) middle after

namespace Refills

variable {allowed wider : Label → Prop} {before middle after : Engine}

theorem moves (refills : Refills allowed before after) : Moves allowed before after := by
  rcases refills with calm | ⟨middle, first, _, calm⟩
  · exact calm.mono fun _ => And.left
  · exact first.trans (calm.mono fun _ => And.left)

theorem refl (engine : Engine) : Refills allowed engine engine := Or.inl (.refl engine)

theorem of_plain (moves : Moves Label.Plain before after)
    (plain : ∀ label, label.Plain → allowed label) : Refills allowed before after :=
  Or.inl (moves.mono fun label isPlain => ⟨plain label isPlain, isPlain.calm⟩)

theorem after_calm (calm : Moves (fun label => allowed label ∧ label.Calm) before middle)
    (refills : Refills allowed middle after) : Refills allowed before after := by
  rcases refills with later | ⟨last, first, filled, later⟩
  · exact Or.inl (calm.trans later)
  · exact Or.inr ⟨last, (calm.mono fun _ => And.left).trans first, filled, later⟩

theorem then_calm (refills : Refills allowed before middle)
    (calm : Moves (fun label => allowed label ∧ label.Calm) middle after) :
    Refills allowed before after := by
  rcases refills with earlier | ⟨first, moves, filled, earlier⟩
  · exact Or.inl (earlier.trans calm)
  · exact Or.inr ⟨first, moves, filled, earlier.trans calm⟩

theorem fill (moves : Moves allowed before middle) (sound : before.Sound) (order : HashOrder)
    (begins : ∀ id, allowed (.begins id)) :
    Refills allowed before (middle.fillTransferSlots order) := by
  obtain ⟨filling, filled⟩ := Engine.fillTransferSlots_moves (moves.sound sound) order
  refine Or.inr ⟨_, moves.trans (filling.mono ?_), filled, .refl _⟩
  rintro _ ⟨id, rfl⟩
  exact begins id

theorem filled (refills : Refills allowed before after) (sound : before.Sound)
    (start : before.Filled) : after.Filled := by
  have kept {first last : Engine} (firstSound : first.Sound) (firstFilled : first.Filled)
      (calm : Moves (fun label => allowed label ∧ label.Calm) first last) : last.Filled :=
    (calm.invariant Engine.Filled firstSound firstFilled fun isCalm isSound move isFilled =>
      isFilled.move isSound isCalm.2 move).2
  rcases refills with calm | ⟨middle, first, middleFilled, calm⟩
  · exact kept sound start calm
  · exact kept (first.sound sound) middleFilled calm

end Refills

/-! ### Jobs and rows -/

namespace TransferQueue.Indexed

variable {queue : TransferQueue}

theorem jobsOf_eq (indexed : queue.Indexed) (kind : RowKind) :
    queue.jobsOf kind = queue.jobs.values.filter fun job => decide (kindOf job = kind) := by
  rw [jobsOf, indexed.rowKey_eq]
  cases leads : leader queue.jobs kind with
  | none =>
    symm
    rw [Option.bind_none, List.filter_eq_nil_iff]
    intro job member inRow
    obtain ⟨id, found⟩ := OrderedMap.mem_values_iff.mp member
    exact leader_eq_none_iff.mp leads id (mem_members_iff.mpr ⟨job, found, of_decide_eq_true inRow⟩)
  | some key =>
    obtain ⟨counters, row, sameKind, matched⟩ := indexed.row_of_leader leads
    rw [Option.bind_some, row]
    dsimp only
    rw [matched.order, sameKind, members]
    exact indexed.filterMap_get? fun job => kindOf job = kind

theorem mem_jobsOf (indexed : queue.Indexed) {kind : RowKind} {job : TransferJob} :
    job ∈ queue.jobsOf kind ↔ queue.jobs.get? job.id = some job ∧ kindOf job = kind := by
  rw [indexed.jobsOf_eq, List.mem_filter, OrderedMap.mem_values_iff, decide_eq_true_eq]
  constructor
  · rintro ⟨⟨key, found⟩, inRow⟩
    exact ⟨indexed.keyed key job found ▸ found, inRow⟩
  · exact fun ⟨found, inRow⟩ => ⟨⟨job.id, found⟩, inRow⟩

theorem jobsOf_nodup (indexed : queue.Indexed) (kind : RowKind) :
    ((queue.jobsOf kind).map TransferJob.id).Nodup := by
  rw [indexed.jobsOf_eq]
  exact indexed.ids_nodup.sublist (List.filter_sublist.map _)

theorem row_eq_some_iff (indexed : queue.Indexed) {kind : RowKind} {row : QueueRow} :
    queue.row kind = some row ↔ row ∈ queue.rowList ∧ row.kind = kind := by
  rw [TransferQueue.row, indexed.rowKey_eq, rowList, List.mem_map]
  constructor
  · intro isRow
    obtain ⟨counters, found, rfl⟩ := Option.map_eq_some_iff.mp isRow
    obtain ⟨key, leads, isCounters⟩ := Option.bind_eq_some_iff.mp found
    exact ⟨⟨counters, OrderedMap.mem_values_iff.mpr ⟨key, isCounters⟩, rfl⟩,
      (indexed.rows.recounted key counters isCounters).kind_eq leads⟩
  · rintro ⟨⟨counters, isCounters, rfl⟩, sameKind⟩
    obtain ⟨key, found⟩ := OrderedMap.mem_values_iff.mp isCounters
    have leads := (indexed.rows.recounted key counters found).leads
    rw [show counters.kind = kind from sameKind] at leads
    rw [leads, Option.bind_some, found]
    rfl

theorem row_cases (indexed : queue.Indexed) (kind : RowKind) :
    (queue.row kind = none ∧ ∀ id job, queue.jobs.get? id = some job → kindOf job ≠ kind) ∨
      ∃ row, queue.row kind = some row ∧ (row.isFinished = true ↔ RowFinished queue.jobs kind) := by
  have finished := indexed.row_isFinished_eq kind
  cases isRow : queue.row kind with
  | none =>
    rw [isRow, Option.map_none, rowPhase, eq_comm, Option.map_eq_none_iff] at finished
    exact Or.inl ⟨rfl, fun id job found inRow =>
      leader_eq_none_iff.mp finished id (mem_members_iff.mpr ⟨job, found, inRow⟩)⟩
  | some row =>
    rw [isRow, Option.map_some] at finished
    refine Or.inr ⟨row, rfl, ?_⟩
    rw [← rowPhase_eq_true_iff, ← finished]
    exact Option.some_inj.symm

theorem isFinished_iff (indexed : queue.Indexed) {row : QueueRow} (listed : row ∈ queue.rowList) :
    row.isFinished = true ↔ RowFinished queue.jobs row.kind := by
  have isRow := indexed.row_eq_some_iff.mpr ⟨listed, rfl⟩
  rcases indexed.row_cases row.kind with ⟨noRow, _⟩ | ⟨again, isAgain, finished⟩
  · rw [isRow] at noRow
    cases noRow
  · rw [isRow] at isAgain
    cases isAgain
    exact finished

end TransferQueue.Indexed

namespace Engine

variable {engine : Engine}

/-! ### Giving up -/

/-- Queued jobs are given up one after the other. -/
theorem updateAll_moves (sound : engine.Sound) {status : JobStatus}
    (ended : status.isInterrupted = true) {ids : List Nat} (nodup : ids.Nodup)
    (waiting : ∀ id ∈ ids, ∃ job, engine.transfers.jobs.get? id = some job ∧ job.status = .queued) :
    Moves Label.Plain engine
      (engine.setTransfers (engine.transfers.updateAll ids (setStatus status))) := by
  induction ids generalizing engine with
  | nil => exact .refl _
  | cons id rest ih =>
    obtain ⟨job, found, isQueued⟩ := waiting id List.mem_cons_self
    rw [List.nodup_cons] at nodup
    have change : JobChanged engine.transfers
        (engine.transfers.update id (setStatus status)) id job (setStatus status job) :=
      sound.indexed.jobChanged found ⟨rfl, rfl, rfl, rfl, rfl⟩
    have move : Move (.abandons id) engine
        (engine.setTransfers (engine.transfers.update id (setStatus status))) :=
      .abandons isQueued ended change
    refine (Moves.single move trivial).trans (ih (sound.move move) nodup.2 fun other member => ?_)
    obtain ⟨otherJob, otherFound, otherQueued⟩ := waiting other (List.mem_cons_of_mem _ member)
    refine ⟨otherJob, ?_, otherQueued⟩
    change (engine.transfers.update id (setStatus status)).jobs.get? other = some otherJob
    rw [change.jobs_eq, OrderedMap.get?_insert, if_neg, otherFound]
    rintro rfl
    exact nodup.1 member

theorem cancelAllQueued_moves (sound : engine.Sound) :
    Moves Label.Plain engine (engine.setTransfers engine.transfers.cancelAllQueued.1) := by
  refine updateAll_moves sound rfl engine.transfers.queued.nodup_keys fun id member => ?_
  rw [sound.indexed.keys_queued] at member
  obtain ⟨job, isWaiting, rfl⟩ := List.mem_map.mp member
  exact ⟨job, sound.indexed.get?_waitingJobs job isWaiting,
    of_decide_eq_true (List.mem_filter.mp isWaiting).2⟩

theorem queuedBySession_keys (indexed : engine.transfers.Indexed) (session : Nat) :
    ((engine.transfers.queuedBySession.get? session).map OrderedMap.keys).getD [] =
      (recountQueuedIn engine.transfers.jobs session).keys := by
  rw [← recountQueuedBySession_getD, indexed.sets.queuedBySession_eq]
  cases recountQueuedBySession engine.transfers.jobs session <;> rfl

theorem failQueuedForSession_moves (sound : engine.Sound) (session : Nat) (reason : String) :
    Moves Label.Plain engine (engine.failQueuedForSession session reason) := by
  refine updateAll_moves sound rfl ?_ fun id member => ?_
  · rw [queuedBySession_keys sound.indexed]
    exact OrderedMap.nodup_keys _
  · rw [queuedBySession_keys sound.indexed, sound.indexed.keys_queuedIn] at member
    obtain ⟨job, isWaiting, _, rfl⟩ := mem_idsOf.mp member
    exact ⟨job, sound.indexed.get?_waitingJobs job isWaiting,
      of_decide_eq_true (List.mem_filter.mp isWaiting).2⟩

theorem foldl_moves {α : Type*} {allowed : Label → Prop} {round : Engine → α → Engine}
    {rounds : List α} (holds : Engine → Prop) (sound : engine.Sound) (start : holds engine)
    (step : ∀ engine : Engine, ∀ given ∈ rounds, engine.Sound → holds engine →
      Moves allowed engine (round engine given) ∧ holds (round engine given)) :
    Moves allowed engine (rounds.foldl round engine) := by
  induction rounds generalizing engine with
  | nil => exact .refl _
  | cons given rest ih =>
    obtain ⟨moves, still⟩ := step engine given List.mem_cons_self sound start
    exact moves.trans (ih (moves.sound sound) still fun engine other member =>
      step engine other (List.mem_cons_of_mem _ member))

theorem foldl_plain {α : Type*} {round : Engine → α → Engine} (rounds : List α)
    (sound : engine.Sound)
    (step : ∀ (engine : Engine) (given : α), engine.Sound →
      Moves Label.Plain engine (round engine given)) :
    Moves Label.Plain engine (rounds.foldl round engine) :=
  foldl_moves (fun _ => True) sound trivial fun engine given _ isSound _ =>
    ⟨step engine given isSound, trivial⟩

theorem forgetBatchIfEmpty_moves (sound : engine.Sound) (batchId : Nat) :
    Moves Label.Plain engine (engine.forgetBatchIfEmpty batchId) :=
  .single (.books (sound.indexed.forgetBatchIfEmpty_jobsKept batchId)
    (forgetBatchIfEmpty_nextBatchId _ _)) trivial

theorem dropConflictReviews_moves (sound : engine.Sound) (shouldDrop : ConflictReview → Bool) :
    Moves Label.Plain engine (engine.dropConflictReviews shouldDrop) := by
  have closed : Move .closesReviews engine
      { engine with reviews := engine.reviews.filter fun review => !shouldDrop review } :=
    .closesReviews List.filter_sublist
  exact (Moves.single closed trivial).trans
    (foldl_plain _ (sound.move closed) fun _ batchId isSound =>
      forgetBatchIfEmpty_moves isSound batchId)

theorem setPlans_moves {plans : OrderedMap Nat SyncPlan}
    (fewer : ∀ batchId plan, plans.get? batchId = some plan →
      engine.sync.plans.get? batchId = some plan) :
    Moves Label.Plain engine (engine.setPlans plans) :=
  .single (.closesPlans fewer) trivial

theorem get?_foldl_erase {ids : List Nat} {plans : OrderedMap Nat SyncPlan} {batchId : Nat}
    {plan : SyncPlan} (found : (ids.foldl OrderedMap.erase plans).get? batchId = some plan) :
    plans.get? batchId = some plan ∧ batchId ∉ ids := by
  induction ids generalizing plans with
  | nil => exact ⟨found, List.not_mem_nil⟩
  | cons id rest ih =>
    obtain ⟨later, notLater⟩ := ih found
    rw [OrderedMap.get?_erase] at later
    split_ifs at later with same
    exact ⟨later, List.not_mem_cons_of_ne_of_not_mem same notLater⟩

theorem dropSyncPlans_moves (shouldDrop : SyncPlan → Bool) :
    Moves Label.Plain engine (engine.dropSyncPlans shouldDrop) :=
  setPlans_moves fun _ _ found => (get?_foldl_erase found).1

/-! ### Marking -/

theorem foldl_cancelScope_moves {scopes : List Scope}
    (isOwner : ∀ scope ∈ scopes, (∃ id, scope = .transfer id ∧ engine.Running id) ∨
      ∃ batchId, scope = .planning batchId) (sound : engine.Sound) :
    Moves Label.Plain engine (scopes.foldl cancelScope engine) := by
  refine foldl_moves (fun later => later.transfers = engine.transfers) sound rfl ?_
  intro later scope member _ same
  refine ⟨.single (.marks ?_) trivial, same⟩
  have owner := isOwner scope member
  unfold Running at owner ⊢
  rwa [same]

theorem running_of_mem_activeJobs (indexed : engine.transfers.Indexed) {job : TransferJob}
    (member : job ∈ engine.transfers.activeJobs) :
    engine.transfers.jobs.get? job.id = some job ∧ job.status = .inProgress := by
  rw [indexed.activeJobs_eq] at member
  obtain ⟨isJob, runs⟩ := List.mem_filter.mp member
  obtain ⟨key, found⟩ := OrderedMap.mem_values_iff.mp isJob
  exact ⟨indexed.keyed key job found ▸ found, of_decide_eq_true runs⟩

theorem cancelSessionTransfers_eq (engine : Engine) (session : Nat) :
    engine.cancelSessionTransfers session =
      (((engine.planning.filter fun scan => decide (scan.sessionId = session)).map
        fun scan => Scope.planning scan.batchId) ++
          (engine.transfers.activeIdsForSession session).map Scope.transfer).foldl cancelScope
        engine :=
  (List.foldl_append).symm

theorem cancelSessionTransfers_moves (sound : engine.Sound) (session : Nat) :
    Moves Label.Plain engine (engine.cancelSessionTransfers session) := by
  rw [cancelSessionTransfers_eq]
  refine foldl_cancelScope_moves (fun scope member => ?_) sound
  rcases List.mem_append.mp member with isScan | isJob
  · obtain ⟨scan, _, rfl⟩ := List.mem_map.mp isScan
    exact Or.inr ⟨_, rfl⟩
  · obtain ⟨id, isActive, rfl⟩ := List.mem_map.mp isJob
    obtain ⟨job, active, rfl⟩ := List.mem_map.mp isActive
    exact Or.inl ⟨_, rfl, job,
      running_of_mem_activeJobs sound.indexed (List.mem_filter.mp active).1⟩

theorem cancelAllWork_eq (engine : Engine) : engine.cancelAllWork =
      ((engine.planning.map fun scan => Scope.planning scan.batchId) ++
        engine.transfers.activeJobs.map fun job => Scope.transfer job.id).foldl cancelScope
        engine :=
  (List.foldl_append).symm

theorem cancelAllWork_moves (sound : engine.Sound) :
    Moves Label.Plain engine engine.cancelAllWork := by
  rw [cancelAllWork_eq]
  refine foldl_cancelScope_moves (fun scope member => ?_) sound
  rcases List.mem_append.mp member with isScan | isJob
  · obtain ⟨scan, _, rfl⟩ := List.mem_map.mp isScan
    exact Or.inr ⟨_, rfl⟩
  · obtain ⟨job, active, rfl⟩ := List.mem_map.mp isJob
    exact Or.inl ⟨_, rfl, job, running_of_mem_activeJobs sound.indexed active⟩

theorem cancelAllCopies_moves (sound : engine.Sound) :
    Moves Label.Plain engine engine.cancelAllCopies := by
  have reviews := dropConflictReviews_moves sound fun _ => true
  have plans := reviews.trans (dropSyncPlans_moves fun _ => true)
  have marked := plans.trans (cancelAllWork_moves (plans.sound sound))
  exact marked.trans (cancelAllQueued_moves (marked.sound sound))

theorem cancelJob_moves (sound : engine.Sound) (id : Nat) :
    Moves Label.Plain engine (engine.cancelJob id) := by
  unfold cancelJob TransferQueue.get
  cases found : engine.transfers.jobs.get? id with
  | none => exact .refl _
  | some job =>
    dsimp only
    cases status : job.status with
    | queued =>
      exact .single (.abandons status rfl
        (sound.indexed.editGuarded_jobChanged found ⟨rfl, rfl, rfl, rfl, rfl⟩)) trivial
    | inProgress => exact .single (.marks (Or.inl ⟨id, rfl, job, found, status⟩)) trivial
    | completed | cancelled => exact .refl _
    | failed message => exact .refl _

theorem cancelRow_moves (sound : engine.Sound) (kind : RowKind) :
    Moves Label.Plain engine (engine.cancelRow kind) := by
  have jobs (ids : List Nat) : Moves Label.Plain engine (ids.foldl cancelJob engine) :=
    foldl_plain ids sound fun _ id isSound => cancelJob_moves isSound id
  cases kind with
  | scan batchId =>
    unfold cancelRow
    dsimp only
    split_ifs
    · have marked : Move (.marks (.planning batchId)) engine (engine.cancelScope (.planning batchId)) :=
        .marks (Or.inr ⟨batchId, rfl⟩)
      exact (Moves.single marked trivial).trans (dropConflictReviews_moves (sound.move marked) _)
    · exact dropConflictReviews_moves sound _
  | single id => exact jobs _
  | batch batchId => exact jobs _

theorem cancelSync_moves (syncId : Nat) : Moves Label.Plain engine (engine.cancelSync syncId) := by
  unfold cancelSync
  split_ifs
  · exact .single (.marks (Or.inr ⟨syncId, rfl⟩)) trivial
  · refine setPlans_moves fun _ _ found => ?_
    rw [OrderedMap.get?_erase] at found
    split_ifs at found
    exact found

/-! ### Planning -/

theorem scanning_next (sound : engine.Sound) :
    engine.sync.scanning engine.transfers.nextBatchId = false := by
  rw [Bool.eq_false_iff]
  intro isOn
  have planned := sound.owned.scanning _ isOn
  exact absurd (sound.owned.scans_lt _ (by omega)) (lt_irrefl _)

theorem startPlanning_moves (sound : engine.Sound) (session : Nat) (direction : Direction)
    (displayName : String) (work : Nat → Work) {kind : Bool}
    (isScan : ∀ batchId, (work batchId).scanned = some (batchId, kind)) {scanning : Nat → Bool}
    (isScanning : scanning engine.transfers.nextBatchId = kind)
    (others : ∀ other ≠ engine.transfers.nextBatchId, scanning other = engine.sync.scanning other) :
    Moves Label.Plain engine { (engine.startPlanning session direction displayName work).1 with
        sync := ⟨engine.sync.plans, scanning⟩ } :=
  .single (.plans ⟨engine.transfers.nextBatchId, session, direction, displayName⟩ _ scanning kind rfl
    (sound.indexed.startBatch_jobsKept displayName) rfl (owner_of_scanned (isScan _)) (isScan _)
    isScanning others) trivial

theorem startCopyPlan_moves (sound : engine.Sound) (session : Nat) (direction : Direction)
    (entries : List Entry) :
    Moves Label.Plain engine (engine.startCopyPlan session direction entries) := by
  unfold startCopyPlan
  split_ifs
  · exact startPlanning_moves sound session direction (copyLabel entries)
      (fun batchId => .planCopy batchId session direction) (fun _ => rfl)
      (scanning_next sound) fun _ _ => rfl
  · exact .refl _

theorem startPlanning_scanning_moves (sound : engine.Sound) (session : Nat) (direction : Direction)
    (displayName : String) (work : Nat → Work)
    (isScan : ∀ batchId, (work batchId).scanned = some (batchId, true)) :
    Moves Label.Plain engine ((engine.startPlanning session direction displayName work).1.setScanning
      (engine.startPlanning session direction displayName work).2 true) :=
  startPlanning_moves sound session direction displayName work isScan (Function.update_self _ _ _)
    fun _ isOther => Function.update_of_ne isOther _ _

theorem startSync_moves (sound : engine.Sound) (session : Nat) (localDir remoteDir : Path)
    (options : SyncOptions) :
    Moves Label.Plain engine (engine.startSync session localDir remoteDir options) := by
  unfold startSync
  split_ifs
  · exact .refl _
  · cases engine.sessions.get? session with
    | none => exact .refl _
    | some live =>
      dsimp only
      split_ifs
      · exact .refl _
      · exact startPlanning_scanning_moves sound session .upload _ _ fun _ => rfl

theorem startSyncFiles_moves (sound : engine.Sound) (plan : SyncPlan) (direction : Direction)
    (files : List PlannedFile) :
    Moves Label.Plain engine (engine.startSyncFiles plan direction files) := by
  unfold startSyncFiles startSyncBatch
  split_ifs
  · exact .refl _
  · exact startPlanning_scanning_moves sound plan.session direction (syncLabel plan direction)
      (fun batchId => .syncFolders batchId plan.session direction files) fun _ => rfl
  · exact .refl _

theorem runSync_moves (sound : engine.Sound) (syncId : Nat) (choices : List (Nat × SyncAction)) :
    Moves Label.Plain engine (engine.runSync syncId choices) := by
  unfold runSync
  cases engine.sync.plans.get? syncId with
  | none => exact .refl _
  | some plan =>
    dsimp only
    have closed : Moves Label.Plain engine (engine.setPlans (engine.sync.plans.erase syncId)) := by
      refine setPlans_moves fun _ _ found => ?_
      rw [OrderedMap.get?_erase] at found
      split_ifs at found
      exact found
    split_ifs
    · have uploads := closed.trans (startSyncFiles_moves (closed.sound sound) plan .upload
        (Sync.chooseFiles plan choices).uploads)
      exact uploads.trans (startSyncFiles_moves (uploads.sound sound) plan .download _)
    · exact closed

/-! ### What a step brings -/

/-- The files that a step queues for a batch. -/
inductive Arrives (engine : Engine) :
    EngineStep → Nat → Nat → Direction → List PlannedFile → Prop
  | planned {moment : Moment} {batchId session : Nat} {direction : Direction} {plan : DirectoryPlan}
      {answers : List Resolution} {rest : List Internal}
      (front : engine.internal = .transfer (.planReady batchId session direction plan) :: rest)
      (live : engine.connected session = true)
      (answered : conflictIndices plan = [] ∧ answers = [] ∨
        automaticAnswers engine.onConflict plan = some answers) :
      Arrives engine (.handle moment) batchId session direction (resolve plan answers).files
  | folders {moment : Moment} {batchId session : Nat} {direction : Direction} {plan : DirectoryPlan}
      {rest : List Internal}
      (front : engine.internal =
        .transfer (.syncFoldersReady batchId session direction plan) :: rest)
      (kept : engine.tasks.cancelled (.planning batchId) = false)
      (live : engine.connected session = true) :
      Arrives engine (.handle moment) batchId session direction (resolve plan
        (List.replicate (conflictIndices plan).length .overwrite)).files
  | answered {moment : Moment} {batchId : Nat} {answers : List Resolution} {review : ConflictReview}
      (found : engine.reviews.find? (fun review => decide (review.batchId = batchId)) = some review) :
      Arrives engine (.command moment (.resolveConflicts batchId (some answers))) batchId
        review.sessionId review.direction (resolve review.plan answers).files

/-- Where a file is here and at the server. -/
def filePaths (direction : Direction) (file : PlannedFile) : Path × String :=
  match direction with
  | .upload => (file.source, file.destination.text)
  | .download => (file.destination, file.source.text)

/-- The job carries a planned file to its destination. -/
structure Carries (session : Nat) (direction : Direction) (file : PlannedFile) (job : TransferJob) :
    Prop where
  session_eq : job.sessionId = session
  direction_eq : job.direction = direction
  paths_eq : (job.localPath, job.remotePath) = filePaths direction file

/-- What else a step may do. -/
inductive Permits (engine : Engine) : EngineStep → Label → Prop
  | retries {moment : Moment} {kind : RowKind} {id : Nat} {first : TransferJob}
      (member : id ∈ engine.retryableIds kind)
      (isFirst : (engine.retryableIds kind).head?.bind engine.transfers.get = some first)
      (live : engine.connected first.sessionId = true) :
      Permits engine (.command moment (.retryRow kind)) (.retries id)
  | enqueues {step : EngineStep} {batchId session : Nat} {direction : Direction}
      {files : List PlannedFile} {file : PlannedFile} {job : TransferJob}
      (arrives : Arrives engine step batchId session direction files) (member : file ∈ files)
      (carries : Carries session direction file job) :
      Permits engine step (.enqueues batchId job)
  | removes {moment : Moment} :
      Permits engine (.command moment .clearFinished) (.removes engine.finishedIds)
  | removals {moment : Moment} {entry : Nat × List String}
      (member : entry ∈ (remoteParts engine.unusedJobs).entries)
      (live : engine.connected entry.1 = true) :
      Permits engine (.command moment .clearFinished) (.works (.removePartials entry.1 entry.2))
  | connecting {moment : Moment} {profile : String} {found : Bool} :
      Permits engine (.command moment (.connect profile found)) (.works (.connect profile))
  | finishes {moment : Moment} {id : Nat} {outcome : TransferOutcome} {rest : List Internal}
      (front : engine.internal = .transfer (.finished id outcome) :: rest) :
      Permits engine (.handle moment) (.finishes id)
  | fails {moment : Moment} {id : Nat} {message : Internal} {rest : List Internal}
      (front : engine.internal = message :: rest) (isOwner : message.owner = some (.job id)) :
      Permits engine (.handle moment) (.fails id)
  | settles {moment : Moment} {batchId : Nat} {message : Internal} {rest : List Internal}
      (front : engine.internal = message :: rest) (isOwner : message.owner = some (.scan batchId)) :
      Permits engine (.handle moment) (.settles batchId)
  | disconnects {moment : Moment} {session : Nat} :
      Permits engine (.command moment (.disconnect session)) (.disconnects session)
  | reviews {moment : Moment} {batchId session : Nat} {direction : Direction} {plan : DirectoryPlan}
      {rest : List Internal}
      (front : engine.internal = .transfer (.planReady batchId session direction plan) :: rest)
      (live : engine.connected session = true) (conflicts : conflictIndices plan ≠ [])
      (unanswered : automaticAnswers engine.onConflict plan = none) :
      Permits engine (.handle moment) (.reviews batchId)
  | opensPlan {moment : Moment} {batchId : Nat} {plan : SyncPlan} {rest : List Internal}
      (front : engine.internal = .transfer (.syncPlanReady batchId plan) :: rest)
      (kept : engine.tasks.cancelled (.planning batchId) = false) :
      Permits engine (.handle moment) (.opensPlan batchId)

/-- The labels of a step. -/
def Allows (engine : Engine) (step : EngineStep) (label : Label) : Prop :=
  label.Plain ∨ Permits engine step label

variable {step : EngineStep}

/-! ### Queueing -/

/-- A job that was just queued for a planned file. -/
structure Queued (batchId session : Nat) (direction : Direction) (file : PlannedFile)
    (job : TransferJob) : Prop where
  carries : Carries session direction file job
  inBatch : job.batchId = some batchId
  waiting : job.status = .queued
  untried : job.attempts = 0

theorem editIf_entered {queue middle : TransferQueue} {job : TransferJob} {holds : TransferJob → Prop}
    (entered : JobEntered queue middle job) (start : holds job) (test : Prop) [Decidable test]
    (change : TransferJob → TransferJob) (kept : KeepsRow job (change job)) (still : holds (change job)) :
    ∃ last, JobEntered queue (if test then middle.editGuarded queue.nextId change else middle) last ∧
      holds last := by
  split_ifs
  · exact ⟨_, entered.trans (entered.indexed.editGuarded_jobChanged entered.get?_self kept), still⟩
  · exact ⟨job, entered, start⟩

/-- A planned file becomes a queued job. -/
theorem enqueueFile_entered {queue : TransferQueue} (indexed : queue.Indexed) (batchId session : Nat)
    (direction : Direction) (preserveTimes : Bool) (file : PlannedFile) :
    ∃ job, JobEntered queue (enqueueFile batchId session direction preserveTimes queue file) job ∧
      Queued batchId session direction file job := by
  have edited (new : NewJob)
      (queued : Queued batchId session direction file (new.toJob queue.nextId)) :
      ∃ job, JobEntered queue
        (let transfers := if file.resume then (queue.enqueue new).1.editGuarded (queue.enqueue new).2
            fun job => { job with resume := true } else (queue.enqueue new).1
          let keepModified := if preserveTimes then file.sourceModified else none
          if keepModified.isSome then transfers.editGuarded (queue.enqueue new).2
            fun job => { job with modified := keepModified } else transfers) job ∧
        Queued batchId session direction file job := by
    have keeps {job : TransferJob} (isQueued : Queued batchId session direction file job)
        (resume : Bool) (modified : Option Nat) :
        Queued batchId session direction file { job with resume, modified } :=
      ⟨⟨isQueued.carries.session_eq, isQueued.carries.direction_eq, isQueued.carries.paths_eq⟩,
        isQueued.inBatch, isQueued.waiting, isQueued.untried⟩
    obtain ⟨resumed, entered, isQueued⟩ := editIf_entered (indexed.enqueue_jobEntered new) queued
      (file.resume = true) (fun job => { job with resume := true })
      ⟨rfl, rfl, rfl, rfl, rfl⟩ (keeps queued _ _)
    rw [enqueue_id]
    exact editIf_entered entered isQueued _ _ ⟨rfl, rfl, rfl, rfl, rfl⟩ (keeps isQueued _ _)
  cases direction with
  | upload =>
    exact edited ⟨session, .upload, file.source, file.destination.text, file.displayName,
      file.size, some batchId⟩ ⟨⟨rfl, rfl, rfl⟩, rfl, rfl, rfl⟩
  | download =>
    exact edited ⟨session, .download, file.destination, file.source.text, file.displayName,
      file.size, some batchId⟩ ⟨⟨rfl, rfl, rfl⟩, rfl, rfl, rfl⟩

/-- The files of a batch that has left planning and review are queued. -/
theorem foldl_enqueueFile_moves (sound : engine.Sound) {batchId session : Nat}
    {direction : Direction} (preserveTimes : Bool) {files : List PlannedFile}
    {allowed : Label → Prop}
    (enqueues : ∀ file ∈ files, ∀ job, Carries session direction file job →
      allowed (.enqueues batchId job))
    (live : engine.connected session = true) (settled : engine.Settled batchId)
    (sameSession : ∀ id job, engine.transfers.jobs.get? id = some job →
      job.batchId = some batchId → job.sessionId = session) :
    Moves allowed engine (engine.setTransfers
      (files.foldl (enqueueFile batchId session direction preserveTimes) engine.transfers)) := by
  induction files generalizing engine with
  | nil => exact .refl _
  | cons file rest ih =>
    obtain ⟨job, entered, isQueued⟩ := enqueueFile_entered sound.indexed batchId session direction
      preserveTimes file
    have isSession := isQueued.carries.session_eq
    have move : Move (.enqueues batchId job) engine (engine.setTransfers
        (enqueueFile batchId session direction preserveTimes engine.transfers file)) :=
      .enqueues isQueued.inBatch isQueued.waiting isQueued.untried (isSession.symm ▸ live) settled
        (fun id other found inBatch => (sameSession id other found inBatch).trans isSession.symm)
        entered
    refine (Moves.single move (enqueues file List.mem_cons_self job isQueued.carries)).trans
      (ih (sound.move move) (fun other member => enqueues other (List.mem_cons_of_mem _ member))
        live ⟨entered.nextBatchId_eq.symm ▸ settled.known, settled.notPlanned,
          settled.notReviewed⟩ fun id other found inBatch => ?_)
    change (enqueueFile batchId session direction preserveTimes engine.transfers file).jobs.get? id =
      some other at found
    rw [entered.jobs_eq] at found
    rcases OrderedMap.get?_insert_cases found with ⟨_, rfl⟩ | ⟨_, earlier⟩
    · exact isSession
    · exact sameSession id other earlier inBatch

theorem applyPlanReady_refills (sound : engine.Sound) (order : HashOrder) {batchId session : Nat}
    {direction : Direction} {plan : DirectoryPlan} {answers : List Resolution}
    {preserveTimes : Bool} {allowed : Label → Prop}
    (plain : ∀ label, label.Plain → allowed label)
    (enqueues : ∀ file ∈ (resolve plan answers).files, ∀ job, Carries session direction file job →
      allowed (.enqueues batchId job))
    (live : engine.connected session = true) (settled : engine.Settled batchId)
    (noJobs : engine.NoJobs batchId) :
    Refills allowed engine
      (engine.applyPlanReady order batchId session direction plan answers preserveTimes) := by
  have queued := foldl_enqueueFile_moves sound preserveTimes enqueues live settled
    fun id job found inBatch => absurd inBatch (noJobs id job found)
  have kept := forgetBatchIfEmpty_moves (queued.sound sound) batchId
  exact .fill (queued.trans (kept.mono plain)) sound order fun _ => plain _ trivial

theorem reviewOrApplyPlan_refills (sound : engine.Sound) (order : HashOrder) {batchId session : Nat}
    {direction : Direction} {plan : DirectoryPlan} {allowed : Label → Prop}
    (plain : ∀ label, label.Plain → allowed label)
    (enqueues : ∀ answers, conflictIndices plan = [] ∧ answers = [] ∨
        automaticAnswers engine.onConflict plan = some answers →
      ∀ file ∈ (resolve plan answers).files, ∀ job, Carries session direction file job →
        allowed (.enqueues batchId job))
    (reviews : conflictIndices plan ≠ [] → automaticAnswers engine.onConflict plan = none →
      allowed (.reviews batchId))
    (live : engine.connected session = true) (settled : engine.Settled batchId)
    (noJobs : engine.NoJobs batchId) :
    Refills allowed engine (engine.reviewOrApplyPlan order batchId session direction plan) := by
  unfold reviewOrApplyPlan
  split_ifs with noConflicts
  · exact applyPlanReady_refills sound order plain (enqueues [] (Or.inl ⟨noConflicts, rfl⟩)) live
      settled noJobs
  · cases automatic : automaticAnswers engine.onConflict plan with
    | some answers =>
      exact applyPlanReady_refills sound order plain (enqueues answers (Or.inr automatic)) live
        settled noJobs
    | none =>
      exact Or.inl (.single (.reviews ⟨batchId, session, direction, plan⟩ live settled noJobs)
        ⟨reviews noConflicts automatic, trivial⟩)

theorem review_found (sound : engine.Sound) {batchId : Nat} {review : ConflictReview}
    (found : engine.reviews.find? (fun review => decide (review.batchId = batchId)) = some review) :
    review.batchId = batchId ∧ review ∈ engine.reviews ∧
      ∀ other ∈ (engine.removeReview batchId).reviews, other.batchId ≠ batchId := by
  have isBatch : review.batchId = batchId := by simpa using List.find?_some found
  refine ⟨isBatch, List.mem_of_find?_eq_some found, fun other member same => ?_⟩
  -- The first review of the batch is its only one.
  have distinct := sound.batches.reviews_nodup
  obtain ⟨_, before, after, split, earlier⟩ := List.find?_eq_some_iff_append.mp found
  have removed : (engine.removeReview batchId).reviews = before ++ after := by
    change engine.reviews.eraseP _ = _
    rw [split, List.eraseP_append_right, List.eraseP_cons_of_pos (by simpa using isBatch)]
    simpa using earlier
  rw [removed] at member
  rw [split, List.map_append, List.map_cons, List.nodup_append, List.nodup_cons] at distinct
  obtain ⟨_, ⟨notLater, _⟩, notEarlier⟩ := distinct
  rcases List.mem_append.mp member with isEarlier | isLater
  · exact notEarlier _ (List.mem_map_of_mem isEarlier) _ List.mem_cons_self (same.trans isBatch.symm)
  · exact notLater (List.mem_map.mpr ⟨other, isLater, same.trans isBatch.symm⟩)

theorem resolveConflicts_refills (sound : engine.Sound) (moment : Moment) (batchId : Nat)
    (answers : Option (List Resolution)) :
    Refills (Allows engine (.command moment (.resolveConflicts batchId answers))) engine
      (engine.resolveConflicts moment.order batchId answers) := by
  unfold resolveConflicts
  cases found : engine.reviews.find? (fun review => decide (review.batchId = batchId)) with
  | none => exact .refl _
  | some review =>
    obtain ⟨isBatch, member, others⟩ := review_found sound found
    have closed : Move .closesReviews engine (engine.removeReview batchId) :=
      .closesReviews List.eraseP_sublist
    have plain : Moves Label.Plain engine (engine.removeReview batchId) := .single closed trivial
    cases answers with
    | none =>
      exact .of_plain (plain.trans (forgetBatchIfEmpty_moves (sound.move closed) _)) fun _ => Or.inl
    | some answers =>
      have settled : (engine.removeReview batchId).Settled review.batchId := by
        refine ⟨sound.batches.reviews_lt _ member, ?_, ?_⟩
        · rintro ⟨scan, planned, same⟩
          exact sound.batches.planned_reviews scan planned review member same.symm
        · rintro ⟨other, reviewed, same⟩
          exact others other reviewed (same.trans isBatch)
      refine Refills.after_calm (plain.mono fun label isPlain => ⟨Or.inl isPlain, isPlain.calm⟩)
        (applyPlanReady_refills (sound.move closed) moment.order (fun _ => Or.inl) ?_
          (sound.connections.reviews_live _ member) settled
          (sound.batches.reviewed_jobs _ member))
      rw [isBatch]
      exact fun file inPlan job carries => Or.inr (.enqueues (.answered found) inPlan carries)

/-! ### Retrying -/

theorem mem_retryableIds (indexed : engine.transfers.Indexed) {kind : RowKind} {id : Nat} :
    id ∈ engine.retryableIds kind ↔ ∃ job, engine.transfers.jobs.get? id = some job ∧
      kindOf job = kind ∧ job.status.isInterrupted = true := by
  unfold retryableIds
  simp only [List.mem_map, List.mem_filter, indexed.mem_jobsOf]
  constructor
  · rintro ⟨job, ⟨⟨found, inRow⟩, interrupted⟩, rfl⟩
    exact ⟨job, found, inRow, interrupted⟩
  · rintro ⟨job, found, inRow, interrupted⟩
    have isId := (indexed.jobs_id id job found).1
    exact ⟨job, ⟨⟨isId.symm ▸ found, inRow⟩, interrupted⟩, isId⟩

/-- The jobs of a row share a session. -/
theorem session_of_row (sound : engine.Sound) {first second : Nat} {firstJob secondJob : TransferJob}
    (firstFound : engine.transfers.jobs.get? first = some firstJob)
    (secondFound : engine.transfers.jobs.get? second = some secondJob)
    (sameRow : kindOf firstJob = kindOf secondJob) : firstJob.sessionId = secondJob.sessionId := by
  unfold kindOf at sameRow
  cases firstBatch : firstJob.batchId with
  | some batch =>
    cases secondBatch : secondJob.batchId with
    | some other =>
      rw [firstBatch, secondBatch] at sameRow
      cases sameRow
      exact sound.batches.same_session _ _ _ _ batch firstFound secondFound firstBatch secondBatch
    | none =>
      rw [firstBatch, secondBatch] at sameRow
      cases sameRow
  | none =>
    cases secondBatch : secondJob.batchId with
    | some other =>
      rw [firstBatch, secondBatch] at sameRow
      cases sameRow
    | none =>
      rw [firstBatch, secondBatch] at sameRow
      have isFirst := (sound.indexed.jobs_id _ _ firstFound).1
      have isSecond := (sound.indexed.jobs_id _ _ secondFound).1
      rw [RowKind.single.injEq, isFirst, isSecond] at sameRow
      subst sameRow
      rw [firstFound] at secondFound
      cases secondFound
      rfl

theorem any_eq_true {α : Type*} {found : Option α} {test : α → Bool}
    (meets : found.any test = true) : ∃ value, found = some value ∧ test value = true := by
  cases found with
  | none => cases meets
  | some value => exact ⟨value, rfl, meets⟩

theorem retryJobs_moves (sound : engine.Sound) {ids : List Nat} {allowed : Label → Prop}
    (retries : ∀ id ∈ ids, allowed (.retries id))
    (live : ∀ id ∈ ids, ∀ job, engine.transfers.jobs.get? id = some job →
      engine.connected job.sessionId = true) :
    Moves allowed engine (engine.setTransfers (engine.transfers.retryJobs ids).1) := by
  induction ids generalizing engine with
  | nil => exact .refl _
  | cons id rest ih =>
    have later (engine : Engine) : engine.setTransfers (engine.transfers.retryJobs (id :: rest)).1 =
        (engine.setTransfers (engine.transfers.retryOne id)).setTransfers
          ((engine.transfers.retryOne id).retryJobs rest).1 := rfl
    have restRetries : ∀ other ∈ rest, allowed (.retries other) :=
      fun other member => retries other (List.mem_cons_of_mem _ member)
    rw [later]
    unfold retryOne
    split_ifs with interrupted
    · obtain ⟨job, found, isInterrupted⟩ := any_eq_true interrupted
      have change : JobChanged engine.transfers (engine.transfers.update id retryJob) id job
          (retryJob job) :=
        sound.indexed.jobChanged found ⟨rfl, rfl, rfl, rfl, rfl⟩
      have move : Move (.retries id) engine
          (engine.setTransfers (engine.transfers.update id retryJob)) :=
        .retries isInterrupted (live id List.mem_cons_self job found) change
      refine (Moves.single move (retries id List.mem_cons_self)).trans
        (ih (sound.move move) restRetries fun other member otherJob otherFound => ?_)
      change (engine.transfers.update id retryJob).jobs.get? other = some otherJob at otherFound
      rw [change.jobs_eq] at otherFound
      rcases OrderedMap.get?_insert_cases otherFound with ⟨_, rfl⟩ | ⟨_, earlier⟩
      · exact live id List.mem_cons_self job found
      · exact live other (List.mem_cons_of_mem _ member) otherJob earlier
    · exact ih sound restRetries fun other member => live other (List.mem_cons_of_mem _ member)

theorem retryJobs_of_zero {queue : TransferQueue} {ids : List Nat}
    (none : (queue.retryJobs ids).2 = 0) : (queue.retryJobs ids).1 = queue := by
  induction ids generalizing queue with
  | nil => rfl
  | cons id rest ih =>
    change (if _ then 1 else 0) + ((queue.retryOne id).retryJobs rest).2 = 0 at none
    rw [Nat.add_eq_zero_iff] at none
    obtain ⟨notThis, noLater⟩ := none
    have same : queue.retryOne id = queue := by
      unfold retryOne
      split_ifs at notThis ⊢
      rfl
    change ((queue.retryOne id).retryJobs rest).1 = queue
    rw [same] at noLater ⊢
    exact ih noLater

theorem retryRow_refills (sound : engine.Sound) (moment : Moment) (kind : RowKind) :
    Refills (Allows engine (.command moment (.retryRow kind))) engine
      (engine.retryRow moment.order kind) := by
  unfold retryRow
  dsimp only
  cases isFirst : (engine.retryableIds kind).head?.bind engine.transfers.get with
  | none => exact .refl _
  | some first =>
    obtain ⟨id, isHead, found⟩ := Option.bind_eq_some_iff.mp isFirst
    obtain ⟨job, isJob, inRow, _⟩ :=
      (mem_retryableIds sound.indexed).mp (List.mem_of_mem_head? isHead)
    cases found.symm.trans isJob
    dsimp only
    split_ifs with live retried
    · have moves : Moves (Allows engine (.command moment (.retryRow kind))) engine
          (engine.setTransfers (engine.transfers.retryJobs (engine.retryableIds kind)).1) := by
        refine retryJobs_moves sound (fun other member => Or.inr (.retries member isFirst live)) ?_
        intro other member otherJob otherFound
        obtain ⟨_, again, sameRow, _⟩ := (mem_retryableIds sound.indexed).mp member
        cases again.symm.trans otherFound
        exact session_of_row sound otherFound isJob (sameRow.trans inRow.symm) ▸ live
      exact .fill moves sound moment.order fun _ => Or.inl trivial
    · rw [retryJobs_of_zero (Nat.eq_zero_of_not_pos retried)]
      exact .refl _
    · exact .refl _

/-! ### Clearing -/

theorem mem_finishedIds (indexed : engine.transfers.Indexed) {id : Nat} {job : TransferJob}
    (member : id ∈ engine.finishedIds) (found : engine.transfers.jobs.get? id = some job) :
    RowFinished engine.transfers.jobs (kindOf job) := by
  unfold finishedIds at member
  obtain ⟨row, isRow, inRow⟩ := List.mem_flatMap.mp member
  obtain ⟨isListed, finished⟩ := List.mem_filter.mp isRow
  obtain ⟨again, isOf, isId⟩ := List.mem_map.mp inRow
  obtain ⟨againFound, sameRow⟩ := indexed.mem_jobsOf.mp isOf
  rw [isId, found] at againFound
  cases againFound
  rw [sameRow]
  exact (indexed.isFinished_iff isListed).mp finished

theorem clearFinishedRows_moves (sound : engine.Sound) (moment : Moment)
    (reported : engine.transfers.changes = []) :
    Moves (fun label => Permits engine (.command moment .clearFinished) label) engine
      (engine.clearFinishedRows moment) := by
  have removed := sound.indexed.removeJobs moment.order engine.finishedIds
  have move : Move (.removes engine.finishedIds) engine
      (engine.setTransfers (engine.transfers.removeJobs moment.order engine.finishedIds)) :=
    .removes (fun id member job found => mem_finishedIds sound.indexed member found) reported removed
  refine (Moves.single move .removes).trans (foldl_moves
    (fun later => later.sessions = engine.sessions) (sound.move move) rfl
    fun later entry member _ sessions => ?_)
  have isEntry : entry ∈ (remoteParts engine.unusedJobs).entries :=
    (moment.partials_perm _).mem_iff.mp member
  unfold spawnRemoval
  split_ifs with live
  · have isLive : engine.connected entry.1 = true := by
      unfold connected at live ⊢
      rwa [sessions] at live
    exact ⟨.single (.works later.connecting (.removePartials entry.1 entry.2) rfl rfl)
      (.removals isEntry isLive), sessions⟩
  · exact ⟨.refl _, sessions⟩

/-! ### Results of scans -/

/-- The engine when the last message of a scan was taken from the channel and the scan is no
longer planned. -/
def settle (engine : Engine) (rest : List Internal) (batchId : Nat) : Engine :=
  { engine with
    internal := rest
    planning := engine.planning.filter fun scan => decide (scan.batchId ≠ batchId)
    tasks := engine.tasks.forget (.planning batchId)
    sync := ⟨engine.sync.plans, Function.update engine.sync.scanning batchId false⟩ }

def take (engine : Engine) (rest : List Internal) : Engine := { engine with internal := rest }

variable {message : Internal} {rest : List Internal} {batchId : Nat}

theorem clearPlanning_take (off : engine.sync.scanning batchId = false) :
    (engine.take rest).clearPlanning batchId = engine.settle rest batchId := by
  have same : Function.update engine.sync.scanning batchId false = engine.sync.scanning :=
    Function.update_eq_self_iff.mpr off.symm
  unfold settle
  rw [same]
  rfl

theorem forget_forget (tasks : Tasks) (scope : Scope) :
    (tasks.forget scope).forget scope = tasks.forget scope := by
  unfold Tasks.forget
  rw [Function.update_idem]

theorem planned_of_front (sound : engine.Sound) (front : engine.internal = message :: rest)
    (isOwner : message.owner = some (.scan batchId)) : engine.Planned batchId := by
  rw [planned_iff, ← sound.owned.scans]
  exact ownerCount_pos_of_message (front ▸ List.mem_cons_self) isOwner

theorem settle_settled (sound : engine.Sound) (front : engine.internal = message :: rest)
    (isOwner : message.owner = some (.scan batchId)) :
    (engine.settle rest batchId).Settled batchId ∧ (engine.settle rest batchId).NoJobs batchId := by
  obtain ⟨scan, planned, rfl⟩ := planned_of_front sound front isOwner
  refine ⟨⟨sound.batches.scans_lt scan planned, ?_, ?_⟩, sound.batches.planned_jobs scan planned⟩
  · rintro ⟨other, still, same⟩
    exact of_decide_eq_true (List.mem_filter.mp still).2 same
  · rintro ⟨review, reviewed, same⟩
    exact sound.batches.planned_reviews scan planned review reviewed same

theorem settle_moves (moment : Moment) (front : engine.internal = message :: rest)
    (isOwner : message.owner = some (.scan batchId)) :
    Moves (fun label => Allows engine (.handle moment) label ∧ label.Calm) engine
      (engine.settle rest batchId) :=
  .single (.settles front isOwner) ⟨Or.inr (.settles front isOwner), trivial⟩

theorem settle_forget_refills (moment : Moment) (sound : engine.Sound)
    (front : engine.internal = message :: rest) (isOwner : message.owner = some (.scan batchId)) :
    Refills (Allows engine (.handle moment)) engine
      ((engine.settle rest batchId).forgetBatchIfEmpty batchId) :=
  have settled := settle_moves moment front isOwner
  .after_calm settled (.of_plain
    (forgetBatchIfEmpty_moves ((settled.mono fun _ => And.left).sound sound) batchId)
    fun _ => Or.inl)

theorem planReady_refills (sound : engine.Sound) (moment : Moment) {session : Nat}
    {direction : Direction} {plan : DirectoryPlan}
    (front : engine.internal = .transfer (.planReady batchId session direction plan) :: rest) :
    Refills (Allows engine (.handle moment)) engine
      ((engine.take rest).planReady moment.order batchId session direction plan) := by
  have off := sound.owned.message_scanned _ (front ▸ List.mem_cons_self) batchId false rfl
  have settled := settle_moves moment front rfl
  obtain ⟨isSettled, noJobs⟩ := settle_settled sound front rfl
  unfold planReady
  rw [clearPlanning_take off]
  dsimp only
  split_ifs with live
  · exact .after_calm settled (reviewOrApplyPlan_refills ((settled.mono fun _ => And.left).sound sound)
      moment.order (fun _ => Or.inl)
      (fun answers answered file member job carries =>
        Or.inr (.enqueues (.planned front live answered) member carries))
      (fun conflicts unanswered => Or.inr (.reviews front live conflicts unanswered)) live isSettled
      noJobs)
  · exact settle_forget_refills moment sound front rfl

theorem recordFailedScan_moves (now session : Nat) (direction : Direction) (label : String) :
    Moves Label.Plain engine (engine.recordFailedScan now session direction label) := by
  have logged : Move .logs engine (engine.recordFailedScan now session direction label) := by
    unfold recordFailedScan setHistory HistoryLog.storeEntry
    refine .logs rfl rfl ⟨[_], rfl, fun entry member => ?_⟩
    rw [List.mem_singleton.mp member]
    exact ⟨rfl, rfl, rfl⟩
  exact .single logged trivial

theorem planFailed_refills (sound : engine.Sound) (moment : Moment)
    (front : engine.internal = message :: rest) (isOwner : message.owner = some (.scan batchId))
    (off : engine.sync.scanning batchId = false) :
    Refills (Allows engine (.handle moment)) engine ((engine.take rest).planFailed moment.now batchId) := by
  have forgotten := settle_forget_refills moment sound front isOwner
  unfold planFailed
  rw [clearPlanning_take off]
  dsimp only
  split
  · exact forgotten.then_calm ((recordFailedScan_moves ..).mono fun label isPlain =>
      ⟨Or.inl isPlain, isPlain.calm⟩)
  · exact forgotten

theorem forget_clearPlanning (engine : Engine) (batchId : Nat) :
    (({ engine with tasks := engine.tasks.forget (.planning batchId) }).setScanning
      batchId false).clearPlanning batchId =
        (engine.setScanning batchId false).clearPlanning batchId := by
  unfold clearPlanning setScanning
  dsimp only
  rw [forget_forget]

theorem forget_endSync (engine : Engine) (batchId : Nat) :
    ({ engine with tasks := engine.tasks.forget (.planning batchId) }).endSync batchId =
      engine.endSync batchId := by
  unfold endSync
  rw [forget_clearPlanning]

theorem endSync_take (engine : Engine) (rest : List Internal) (batchId : Nat) :
    (engine.take rest).endSync batchId =
      (engine.settle rest batchId).forgetBatchIfEmpty batchId := rfl

theorem syncPlanReady_refills (sound : engine.Sound) (moment : Moment) {plan : SyncPlan}
    (front : engine.internal = .transfer (.syncPlanReady batchId plan) :: rest) :
    Refills (Allows engine (.handle moment)) engine
      ((engine.take rest).syncPlanReady batchId plan) := by
  have named : plan.syncId = batchId :=
    sound.owned.named (.transfer (.syncPlanReady batchId plan)) (front ▸ List.mem_cons_self)
  have forgotten := settle_forget_refills moment sound front rfl
  obtain ⟨isSettled, _⟩ := settle_settled sound front rfl
  have stillSettled : ((engine.settle rest batchId).forgetBatchIfEmpty batchId).Settled batchId :=
    ⟨(forgetBatchIfEmpty_nextBatchId _ _).symm ▸ isSettled.known, isSettled.notPlanned,
      isSettled.notReviewed⟩
  unfold syncPlanReady syncCancelled Tasks.takeCancelled
  dsimp only
  rw [forget_endSync, endSync_take]
  split_ifs with isCancelled isGone
  · exact forgotten
  · exact forgotten
  · exact forgotten
  · have live : ((engine.settle rest batchId).forgetBatchIfEmpty batchId).connected plan.session =
        true := by simpa using isGone
    exact forgotten.then_calm (.single (.opensPlan batchId plan named live stillSettled)
      ⟨Or.inr (.opensPlan front (Bool.eq_false_iff.mpr isCancelled)), trivial⟩)

theorem syncFoldersReady_refills (sound : engine.Sound) (moment : Moment) {session : Nat}
    {direction : Direction} {plan : DirectoryPlan}
    (front : engine.internal = .transfer (.syncFoldersReady batchId session direction plan) :: rest) :
    Refills (Allows engine (.handle moment)) engine
      ((engine.take rest).syncFoldersReady moment.order batchId session direction plan) := by
  have isOn : (engine.take rest).sync.scanning batchId = true :=
    sound.owned.message_scanned _ (front ▸ List.mem_cons_self) batchId true rfl
  have settled := settle_moves moment front rfl
  obtain ⟨isSettled, noJobs⟩ := settle_settled sound front rfl
  have forgotten := settle_forget_refills moment sound front rfl
  unfold syncFoldersReady syncCancelled Tasks.takeCancelled
  dsimp only
  rw [isOn, forget_endSync, endSync_take, forget_clearPlanning, if_neg (by decide)]
  split_ifs with isCancelled live
  · exact forgotten
  · have enqueues : ∀ file ∈ (resolve plan (List.replicate (conflictIndices plan).length
        .overwrite)).files, ∀ job, Carries session direction file job →
          Allows engine (.handle moment) (.enqueues batchId job) :=
      fun file member job carries => Or.inr (.enqueues
        (.folders front (Bool.eq_false_iff.mpr isCancelled) live) member carries)
    exact .after_calm settled (applyPlanReady_refills ((settled.mono fun _ => And.left).sound sound)
      moment.order (fun _ => Or.inl) enqueues live isSettled noJobs)
  · exact forgotten

end Engine

end Porthmos
