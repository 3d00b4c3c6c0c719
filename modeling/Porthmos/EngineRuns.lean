import Porthmos.EngineHandlers

/-!
# Runs of the engine

A step of the engine is a chain of moves that the step allows.  So every state of a run
is sound, no slot of it is wasted, and what all moves keep holds throughout.
-/

namespace Porthmos

open TransferQueue

namespace Engine

variable {engine : Engine} {message : Internal} {rest : List Internal} {id : Nat}

/-! ### Results of transfers -/

theorem running_of_front (sound : engine.Sound) (front : engine.internal = message :: rest)
    (isOwner : message.owner = some (.job id)) : engine.Running id := by
  rw [running_iff, ← sound.owned.jobs]
  exact ownerCount_pos_of_message (front ▸ List.mem_cons_self) isOwner

theorem transferFinished_refills (sound : engine.Sound) (moment : Moment)
    (reported : engine.transfers.changes = []) {outcome : TransferOutcome}
    (front : engine.internal = .transfer (.finished id outcome) :: rest) :
    Refills (Allows engine (.handle moment)) engine
      ((engine.take rest).transferFinished moment.order id outcome) := by
  obtain ⟨job, found, runs⟩ := running_of_front sound front rfl
  have finishes (status : JobStatus) (ended : status = .completed ∨ status = .cancelled) :
      Move (.finishes id) engine (((engine.take rest).forgetScope (.transfer id)).setTransfers
        (engine.transfers.editGuarded id (setStatus status))) :=
    .finishes front runs ended reported
      (sound.indexed.editGuarded_jobChanged found ⟨rfl, rfl, rfl, rfl, rfl⟩)
  have fill {middle : Engine} (move : Move (.finishes id) engine middle) :
      Refills (Allows engine (.handle moment)) engine (middle.fillTransferSlots moment.order) :=
    .fill (.single move (Or.inr (.finishes front))) sound moment.order fun _ => Or.inl trivial
  cases outcome with
  | completed => exact fill (finishes .completed (Or.inl rfl))
  | cancelled => exact fill (finishes .cancelled (Or.inr rfl))

/-- A job whose attempt failed is given up, queued again or cancelled. -/
theorem failedJob_changed {queue : TransferQueue} {job : TransferJob} (indexed : queue.Indexed)
    (found : queue.jobs.get? id = some job) (cancelled : Bool) (text : String) :
    JobChanged queue (let status := if cancelled then JobStatus.cancelled else .failed text
        let transfers := queue.editGuarded id (setStatus status)
        if cancelled then transfers else (transfers.retryOrGiveUp id).1) id job
      (failedJob cancelled text job) := by
  have edited (status : JobStatus) :
      JobChanged queue (queue.editGuarded id (setStatus status)) id job (setStatus status job) :=
    indexed.editGuarded_jobChanged found ⟨rfl, rfl, rfl, rfl, rfl⟩
  unfold failedJob
  cases cancelled with
  | true => exact edited .cancelled
  | false =>
    have failed := edited (.failed text)
    dsimp only
    rw [if_neg nofun, if_neg nofun, if_neg nofun, retryOrGiveUp, failed.get?_self]
    dsimp only
    change JobChanged queue (if job.attempts < maxAttempts then _ else _ : TransferQueue × Bool).1 id job _
    split_ifs
    · exact failed.trans (failed.indexed.jobChanged failed.get?_self ⟨rfl, rfl, rfl, rfl, rfl⟩)
    · exact failed

theorem transferFailed_refills (sound : engine.Sound) (moment : Moment)
    (front : engine.internal = message :: rest) (isOwner : message.owner = some (.job id))
    (text : String) :
    Refills (Allows engine (.handle moment)) engine
      ((engine.take rest).transferFailed moment.order id text) := by
  obtain ⟨job, found, runs⟩ := running_of_front sound front isOwner
  exact .fill (.single (.fails front isOwner runs (failedJob_changed sound.indexed found _ text))
    (Or.inr (.fails front isOwner))) sound moment.order fun _ => Or.inl trivial

/-! ### Other messages -/

theorem take_moves (front : engine.internal = message :: rest) (isOwner : message.owner = none) :
    Moves Label.Plain engine (engine.take rest) :=
  .single (.drops engine.connecting front isOwner) trivial

theorem transferProgress_moves (sound : engine.Sound) (id transferred : Nat) :
    Moves Label.Plain engine (engine.transferProgress id transferred) := by
  unfold transferProgress
  cases found : engine.transfers.jobs.get? id with
  | none =>
    rw [editGuarded_of_none _ found]
    exact .refl _
  | some job =>
    exact .single (.advances transferred
      (sound.indexed.editGuarded_jobChanged found ⟨rfl, rfl, rfl, rfl, rfl⟩)) trivial

theorem timesNotKept_moves (sound : engine.Sound) (id : Nat) :
    Moves Label.Plain engine (engine.timesNotKept id) := by
  unfold timesNotKept
  split
  · exact .refl _
  · exact .single (.books (sound.indexed.flagUnkeptTimes_jobsKept _) rfl) trivial

theorem after_take {moment : Moment} {after : Engine} (sound : engine.Sound)
    (front : engine.internal = message :: rest) (isOwner : message.owner = none)
    (later : (engine.take rest).Sound → Moves Label.Plain (engine.take rest) after) :
    Refills (Allows engine (.handle moment)) engine after :=
  have taken := take_moves front isOwner
  .of_plain (taken.trans (later (taken.sound sound))) fun _ => Or.inl

theorem handleTransferEvent_refills (sound : engine.Sound) (moment : Moment)
    (reported : engine.transfers.changes = []) {event : TransferEvent}
    (front : engine.internal = .transfer event :: rest) :
    Refills (Allows engine (.handle moment)) engine
      ((engine.take rest).handleTransferEvent moment event) := by
  have member : Internal.transfer event ∈ engine.internal := front ▸ List.mem_cons_self
  cases event with
  | progress id transferred =>
    exact after_take sound front rfl fun isSound => transferProgress_moves isSound id transferred
  | finished id outcome => exact transferFinished_refills sound moment reported front
  | failed id text => exact transferFailed_refills sound moment front rfl text
  | planReady batchId session direction plan => exact planReady_refills sound moment front
  | planFailed batchId text =>
    exact planFailed_refills sound moment front rfl
      (sound.owned.message_scanned _ member batchId false rfl)
  | planCancelled batchId session direction =>
    have off := sound.owned.message_scanned _ member batchId false rfl
    change Refills _ _ (((engine.take rest).clearPlanning batchId).forgetBatchIfEmpty batchId)
    rw [clearPlanning_take off]
    exact settle_forget_refills moment sound front rfl
  | partialsRemoved session => exact after_take sound front rfl fun _ => .refl _
  | timesNotKept id => exact after_take sound front rfl fun isSound => timesNotKept_moves isSound id
  | syncPlanReady batchId plan => exact syncPlanReady_refills sound moment front
  | syncCancelled batchId => exact settle_forget_refills moment sound front rfl
  | syncFailed batchId text => exact settle_forget_refills moment sound front rfl
  | syncFoldersReady batchId session direction plan =>
    exact syncFoldersReady_refills sound moment front

theorem recoverFromPanic_refills (sound : engine.Sound) (moment : Moment) {name : String}
    {scope : Scope} (front : engine.internal = .taskPanicked name scope :: rest) :
    Refills (Allows engine (.handle moment)) engine
      ((engine.take rest).recoverFromPanic moment name scope) := by
  cases scope with
  | transfer id =>
    obtain ⟨job, found, runs⟩ := running_of_front sound front rfl
    have isRunning : ((engine.take rest).transfers.get id).any
        (fun job => decide (job.status = .inProgress)) = true := by
      change (engine.transfers.jobs.get? id).any _ = true
      rw [found]
      exact decide_eq_true runs
    unfold recoverFromPanic
    dsimp only
    rw [if_pos isRunning]
    exact transferFailed_refills sound moment front rfl _
  | planning batchId =>
    obtain ⟨scan, planned, isBatch⟩ := planned_of_front sound front rfl
    have isPlanned : ((engine.take rest).planning.any fun scan =>
        decide (scan.batchId = batchId)) = true :=
      List.any_eq_true.mpr ⟨scan, planned, decide_eq_true isBatch⟩
    unfold recoverFromPanic
    dsimp only
    rw [if_pos isPlanned]
    split_ifs with isOn
    · exact settle_forget_refills moment sound front rfl
    · exact planFailed_refills sound moment front rfl (Bool.eq_false_iff.mpr isOn)
  | session id => exact after_take sound front rfl fun _ => .refl _
  | edit id => exact after_take sound front rfl fun _ => .refl _
  | search => exact after_take sound front rfl fun _ => .refl _
  | background => exact after_take sound front rfl fun _ => .refl _

theorem applyInternal_refills (sound : engine.Sound) (moment : Moment)
    (reported : engine.transfers.changes = []) (front : engine.internal = message :: rest) :
    Refills (Allows engine (.handle moment)) engine
      ((engine.take rest).applyInternal moment message) := by
  cases message with
  | connected name fs => exact .of_plain (.single (.connects _ front) trivial) fun _ => Or.inl
  | connectFailed name => exact .of_plain (.single (.drops _ front rfl) trivial) fun _ => Or.inl
  | transfer event => exact handleTransferEvent_refills sound moment reported front
  | taskPanicked name scope => exact recoverFromPanic_refills sound moment front
  | other => exact after_take sound front rfl fun _ => .refl _

/-! ### Disconnecting -/

/-- The session is gone and its name is remembered. -/
def leave (session : Nat) (name : String) (engine : Engine) : Engine :=
  { engine with
    sessions := engine.sessions.erase session
    history := engine.history.rememberSession session name }

/-- What `disconnect` gives up does not depend on whether the session is gone already. -/
theorem disconnect_eq {session : Nat} {live : LiveSession}
    (found : engine.sessions.get? session = some live) :
    engine.disconnect session = leave session live.name
      ((((engine.failQueuedForSession session "session disconnected").cancelSessionTransfers
        session).dropConflictReviews fun review => decide (review.sessionId = session)).dropSyncPlans
          fun plan => decide (plan.session = session)) := by
  have marks (engine : Engine) (scopes : List Scope) :
      scopes.foldl cancelScope (leave session live.name engine) =
        leave session live.name (scopes.foldl cancelScope engine) :=
    List.foldl_hom (leave session live.name) fun _ _ => rfl
  have forgets (engine : Engine) (batches : List Nat) :
      batches.foldl forgetBatchIfEmpty (leave session live.name engine) =
        leave session live.name (batches.foldl forgetBatchIfEmpty engine) :=
    List.foldl_hom (leave session live.name) fun _ _ => rfl
  have marked (engine : Engine) : (leave session live.name engine).cancelSessionTransfers session =
      leave session live.name (engine.cancelSessionTransfers session) := by
    rw [cancelSessionTransfers_eq, cancelSessionTransfers_eq]
    exact marks engine _
  have dropped (engine : Engine) (shouldDrop : ConflictReview → Bool) :
      (leave session live.name engine).dropConflictReviews shouldDrop =
        leave session live.name (engine.dropConflictReviews shouldDrop) :=
    forgets { engine with reviews := engine.reviews.filter fun review => !shouldDrop review } _
  have failed : (leave session live.name engine).failQueuedForSession session "session disconnected" =
      leave session live.name (engine.failQueuedForSession session "session disconnected") := rfl
  have closed (engine : Engine) (shouldDrop : SyncPlan → Bool) :
      (leave session live.name engine).dropSyncPlans shouldDrop =
        leave session live.name (engine.dropSyncPlans shouldDrop) := rfl
  rw [← closed, ← dropped, ← marked, ← failed]
  unfold disconnect leave
  rw [found]

theorem mem_foldl_cancelScope {scopes : List Scope} {scope : Scope}
    (marked : scope ∈ scopes ∨ engine.tasks.cancelled scope = true) :
    (scopes.foldl cancelScope engine).tasks.cancelled scope = true := by
  induction scopes generalizing engine with
  | nil => exact marked.resolve_left List.not_mem_nil
  | cons first others ih =>
    refine ih ?_
    change scope ∈ others ∨ Function.update engine.tasks.cancelled first true scope = true
    rw [Function.update_apply]
    split_ifs with isFirst
    · exact Or.inr rfl
    · rw [List.mem_cons] at marked
      rcases marked with (same | later) | earlier
      · exact absurd same isFirst
      · exact Or.inl later
      · exact Or.inr earlier

theorem foldl_cancelScope_transfers (engine : Engine) (scopes : List Scope) :
    (scopes.foldl cancelScope engine).transfers = engine.transfers := by
  induction scopes generalizing engine with
  | nil => rfl
  | cons first others ih => exact ih _

/-- Forgetting batches keeps the jobs and the marks. -/
theorem dropConflictReviews_keeps (engine : Engine) (shouldDrop : ConflictReview → Bool) :
    (engine.dropConflictReviews shouldDrop).transfers.jobs = engine.transfers.jobs ∧
      (engine.dropConflictReviews shouldDrop).tasks = engine.tasks ∧
      (engine.dropConflictReviews shouldDrop).reviews =
        engine.reviews.filter (fun review => !shouldDrop review) ∧
      (engine.dropConflictReviews shouldDrop).sync = engine.sync ∧
      (engine.dropConflictReviews shouldDrop).planning = engine.planning := by
  have forgets (engine : Engine) (batches : List Nat) :
      (batches.foldl forgetBatchIfEmpty engine).transfers.jobs = engine.transfers.jobs ∧
      (batches.foldl forgetBatchIfEmpty engine).tasks = engine.tasks ∧
      (batches.foldl forgetBatchIfEmpty engine).reviews = engine.reviews ∧
      (batches.foldl forgetBatchIfEmpty engine).sync = engine.sync ∧
      (batches.foldl forgetBatchIfEmpty engine).planning = engine.planning := by
    induction batches generalizing engine with
    | nil => exact ⟨rfl, rfl, rfl, rfl, rfl⟩
    | cons first others ih =>
      obtain ⟨jobs, same⟩ := ih (engine.forgetBatchIfEmpty first)
      refine ⟨jobs.trans ?_, same⟩
      change (engine.transfers.forgetBatchIfEmpty first).jobs = engine.transfers.jobs
      unfold TransferQueue.forgetBatchIfEmpty
      split_ifs <;> rfl
  exact forgets { engine with reviews := engine.reviews.filter fun review => !shouldDrop review } _

theorem leave_move (sound : engine.Sound) (session : Nat) (name : String)
    (noneWaiting : ∀ id job, engine.transfers.jobs.get? id = some job → job.status = .queued →
      job.sessionId ≠ session)
    (allMarked : ∀ id job, engine.transfers.jobs.get? id = some job → job.status = .inProgress →
      job.sessionId = session → engine.tasks.cancelled (.transfer id) = true)
    (noReview : ∀ review ∈ engine.reviews, review.sessionId ≠ session) :
    Move (.disconnects session) (engine.dropSyncPlans fun plan => decide (plan.session = session))
      (leave session name (engine.dropSyncPlans fun plan => decide (plan.session = session))) := by
  refine .disconnects name noneWaiting allMarked noReview fun batchId plan isPlan same => ?_
  obtain ⟨wasPlan, notDropped⟩ := get?_foldl_erase isPlan
  refine notDropped (List.mem_map.mpr ⟨plan, List.mem_filter.mpr ⟨?_, decide_eq_true same⟩,
    sound.batches.plans_named batchId plan wasPlan⟩)
  exact OrderedMap.mem_values_iff.mpr ⟨batchId, wasPlan⟩

theorem disconnect_refills (sound : engine.Sound) (moment : Moment) (session : Nat) :
    Refills (Allows engine (.command moment (.disconnect session))) engine
      (engine.disconnect session) := by
  cases found : engine.sessions.get? session with
  | none =>
    unfold disconnect
    rw [found]
    exact .refl _
  | some live =>
    rw [disconnect_eq found]
    have failed := failQueuedForSession_moves sound session "session disconnected"
    have failedSound := failed.sound sound
    have marked := failed.trans (cancelSessionTransfers_moves failedSound session)
    have dropped := marked.trans (dropConflictReviews_moves (marked.sound sound)
      fun review => decide (review.sessionId = session))
    have closed := dropped.trans (dropSyncPlans_moves fun plan => decide (plan.session = session))
    -- What is left of the session when its queued jobs, its reviews and its plans are gone.
    have bulk := sound.indexed.failQueuedForSession session "session disconnected"
    have kept := dropConflictReviews_keeps ((engine.failQueuedForSession session
      "session disconnected").cancelSessionTransfers session) fun review =>
        decide (review.sessionId = session)
    rw [cancelSessionTransfers_eq, foldl_cancelScope_transfers] at kept
    obtain ⟨jobs, tasks, reviews, _⟩ := kept
    have last := leave_move (dropped.sound sound) session live.name
    rw [cancelSessionTransfers_eq] at closed last ⊢
    refine Or.inl ((closed.mono fun label isPlain => ⟨Or.inl isPlain, isPlain.calm⟩).trans
      (.single (last ?_ ?_ ?_) ⟨Or.inr .disconnects, trivial⟩))
    · intro id job isJob waits same
      rw [jobs] at isJob
      obtain ⟨before, isBefore, isAfter⟩ := Option.map_eq_some_iff.mp
        ((bulk.jobs_eq id).symm.trans isJob)
      split_ifs at isAfter with gone
      · rw [← isAfter] at waits
        cases waits
      · exact gone ⟨isAfter ▸ waits, isAfter ▸ same⟩
    · intro id job isJob runs same
      rw [jobs] at isJob
      rw [tasks]
      refine mem_foldl_cancelScope (Or.inl (List.mem_append_right _ (List.mem_map_of_mem ?_)))
      have isId := (failedSound.indexed.jobs_id id job isJob).1
      refine List.mem_map.mpr ⟨job, List.mem_filter.mpr ⟨?_, decide_eq_true same⟩, isId⟩
      rw [failedSound.indexed.activeJobs_eq]
      exact List.mem_filter.mpr ⟨OrderedMap.mem_values_iff.mpr ⟨id, isJob⟩, decide_eq_true runs⟩
    · intro review member
      rw [reviews, List.mem_filter] at member
      simpa using member.2

/-! ### Steps -/

theorem connect_refills (moment : Moment) (profile : String) (found : Bool) :
    Refills (Allows engine (.command moment (.connect profile found))) engine
      (engine.connect profile found) := by
  unfold connect
  split_ifs
  · exact .refl _
  · exact .refl _
  · exact Or.inl (.single (.works _ (.connect profile) rfl rfl) ⟨Or.inr .connecting, trivial⟩)
  · exact .refl _

theorem applyCommand_refills (sound : engine.Sound) (moment : Moment)
    (reported : engine.transfers.changes = []) (command : Command) :
    Refills (Allows engine (.command moment command)) engine (engine.applyCommand moment command) := by
  have ofPlain {after : Engine} (moves : Moves Label.Plain engine after) :
      Refills (Allows engine (.command moment command)) engine after :=
    .of_plain moves fun _ => Or.inl
  cases command with
  | connect profile found => exact connect_refills moment profile found
  | disconnect session => exact disconnect_refills sound moment session
  | copy source entries target =>
    change Refills _ _ (engine.copy moment.order source entries target)
    unfold copy
    split
    · exact .refl _
    · split_ifs
      · exact .refl _
      · exact .fill ((startCopyPlan_moves sound ..).mono fun _ => Or.inl) sound moment.order
          fun _ => Or.inl trivial
  | resolveConflicts batchId answers => exact resolveConflicts_refills sound moment batchId answers
  | cancelAllTransfers => exact ofPlain (cancelAllCopies_moves sound)
  | cancelRow kind => exact ofPlain (cancelRow_moves sound kind)
  | retryRow kind => exact retryRow_refills sound moment kind
  | clearFinished =>
    refine Or.inl ((clearFinishedRows_moves sound moment reported).mono fun label permits => ?_)
    refine ⟨Or.inr permits, ?_⟩
    cases permits with
    | enqueues arrives => cases arrives
    | removes => trivial
    | removals => trivial
  | clearHistory =>
    exact ofPlain (.single (.logs rfl rfl ⟨[], (List.append_nil _).symm, nofun⟩) trivial)
  | startSync session localDir remoteDir options => exact ofPlain (startSync_moves sound ..)
  | runSync syncId choices => exact ofPlain (runSync_moves sound syncId choices)
  | cancelSync syncId => exact ofPlain (cancelSync_moves syncId)
  | other => exact .refl _

theorem records_moves (now : Nat) : Moves Label.Plain engine (engine.processRowChanges now) :=
  .single (.records now) trivial

theorem processRowChanges_changes (now : Nat) (engine : Engine) :
    (engine.processRowChanges now).transfers.changes = [] := by
  obtain ⟨history, same⟩ := processRowChanges_eq now engine
  rw [same]
  rfl

theorem publish_moves (moment : Moment) (engine : Engine) :
    Moves Label.Plain engine ((engine.processRowChanges moment.now).requestPublish moment) := by
  unfold requestPublish publishTransfers
  split_ifs
  · exact (records_moves moment.now).trans (records_moves moment.now)
  · exact records_moves moment.now

theorem publish_eq (moment : Moment) (engine : Engine) :
    ∃ history, (engine.processRowChanges moment.now).requestPublish moment =
      { engine with transfers := engine.transfers.takeChanges.1, history } := by
  obtain ⟨history, once⟩ := processRowChanges_eq moment.now engine
  unfold requestPublish publishTransfers
  split_ifs
  · obtain ⟨again, twice⟩ := processRowChanges_eq moment.now (engine.processRowChanges moment.now)
    rw [twice, once]
    exact ⟨again, rfl⟩
  · exact ⟨history, once⟩

theorem then_records {allowed : Label → Prop} {after : Engine} (moment : Moment)
    (plain : ∀ label, label.Plain → allowed label) (refills : Refills allowed engine after) :
    Refills allowed engine ((after.processRowChanges moment.now).requestPublish moment) ∧
      ((after.processRowChanges moment.now).requestPublish moment).transfers.changes = [] := by
  have calm {first last : Engine} (moves : Moves Label.Plain first last) :
      Moves (fun label => allowed label ∧ label.Calm) first last :=
    moves.mono fun label isPlain => ⟨plain label isPlain, isPlain.calm⟩
  have once := refills.then_calm (calm (records_moves moment.now))
  unfold requestPublish publishTransfers
  split_ifs
  · exact ⟨once.then_calm (calm (records_moves moment.now)), processRowChanges_changes _ _⟩
  · exact ⟨once, processRowChanges_changes _ _⟩

theorem transferProgress_changes (sound : engine.Sound) (id transferred : Nat) :
    (engine.transferProgress id transferred).transfers.changes = engine.transfers.changes := by
  unfold transferProgress
  cases found : engine.transfers.jobs.get? id with
  | none =>
    rw [editGuarded_of_none _ found]
    rfl
  | some job =>
    rw [editGuarded_eq_update]
    exact sound.indexed.changes_update found ⟨rfl, rfl, rfl, rfl, rfl⟩ rfl

/-- A step is a chain of moves that it allows, wastes no slot, and leaves no change of a row
unread. -/
theorem next_refills (sound : engine.Sound) (reported : engine.transfers.changes = [])
    (step : EngineStep) :
    Refills (Allows engine step) engine (step.next engine) ∧
      (step.next engine).transfers.changes = [] := by
  have ofMove {label : Label} {after : Engine} (move : Move label engine after)
      (plain : label.Plain) (same : after.transfers = engine.transfers) :
      Refills (Allows engine step) engine after ∧ after.transfers.changes = [] :=
    ⟨.of_plain (.single move plain) fun _ => Or.inl, same ▸ reported⟩
  cases step with
  | command moment given =>
    exact then_records moment (fun _ => Or.inl) (applyCommand_refills sound moment reported given)
  | handle moment =>
    cases front : engine.internal with
    | nil =>
      have same : EngineStep.next engine (.handle moment) = engine := by rw [EngineStep.next, front]
      rw [same]
      exact ⟨.refl _, reported⟩
    | cons message rest =>
      have isNext : EngineStep.next engine (.handle moment) =
          (engine.take rest).handleInternal moment message := by
        rw [EngineStep.next, front]
        rfl
      have handled := then_records moment (fun _ => Or.inl)
        (applyInternal_refills sound moment reported front)
      rw [isNext]
      unfold handleInternal
      split
      · rename_i id transferred
        have progressed := handleTransferEvent_refills sound moment reported front
        unfold requestPublish publishTransfers
        split_ifs
        · exact ⟨progressed.then_calm ((records_moves moment.now).mono fun label isPlain =>
            ⟨Or.inl isPlain, isPlain.calm⟩), processRowChanges_changes _ _⟩
        · refine ⟨progressed, ?_⟩
          have taken := (take_moves front rfl).sound sound
          exact (transferProgress_changes taken id transferred).trans reported
      · exact handled
  | publish moment =>
    exact ⟨.of_plain (records_moves moment.now) fun _ => Or.inl, processRowChanges_changes _ _⟩
  | report task told =>
    change Refills _ _ (engine.withLive task fun work => engine.sendIf (work.report told)) ∧
      (engine.withLive task fun work => engine.sendIf (work.report told)).transfers.changes = []
    unfold withLive
    cases found : engine.tasks.live.get? task with
    | none => exact ⟨.refl _, reported⟩
    | some live =>
      dsimp only
      cases reports : live.work.report told with
      | none => exact ⟨.refl _, reported⟩
      | some message =>
        obtain ⟨isOwner, isScan, named⟩ := Work.report_owner reports
        exact ofMove (.tells message isOwner isScan named) trivial rfl
  | removePart task =>
    change Refills _ _ (engine.withLive task (engine.removeNextPart task)) ∧
      (engine.withLive task (engine.removeNextPart task)).transfers.changes = []
    unfold withLive
    cases found : engine.tasks.live.get? task with
    | none => exact ⟨.refl _, reported⟩
    | some live =>
      obtain ⟨work, cancel⟩ := live
      cases work with
      | removePartials session parts =>
        cases parts with
        | nil => exact ⟨.refl _, reported⟩
        | cons part parts =>
          dsimp only [removeNextPart]
          rw [OrderedMap.modify_eq_insert found]
          exact ofMove (.removesPart found) trivial rfl
      | planCopy | transfer | syncScan | syncFolders | connect => exact ⟨.refl _, reported⟩
  | finish task result =>
    change Refills _ _ (engine.withLive task fun work =>
        (work.result result).elim engine (engine.endTask task)) ∧
      (engine.withLive task fun work =>
        (work.result result).elim engine (engine.endTask task)).transfers.changes = []
    unfold withLive
    cases found : engine.tasks.live.get? task with
    | none => exact ⟨.refl _, reported⟩
    | some live =>
      dsimp only
      cases ends : live.work.result result with
      | none => exact ⟨.refl _, reported⟩
      | some message => exact ofMove (.ends found (Or.inl ⟨result, ends⟩)) trivial rfl
  | panic task =>
    change Refills _ _ (engine.withLive task fun work =>
        engine.endTask task (.taskPanicked work.name work.scope)) ∧
      (engine.withLive task fun work =>
        engine.endTask task (.taskPanicked work.name work.scope)).transfers.changes = []
    unfold withLive
    cases found : engine.tasks.live.get? task with
    | none => exact ⟨.refl _, reported⟩
    | some live => exact ofMove (.ends found (Or.inr rfl)) trivial rfl
  | elsewhere panicked =>
    rcases panicked with _ | ⟨name, scope⟩
    · exact ofMove (.tells .other rfl rfl trivial) trivial rfl
    · change Refills _ _ (if scope.isElsewhere then engine.send (.taskPanicked name scope)
          else engine) ∧ (if scope.isElsewhere then engine.send (.taskPanicked name scope)
          else engine).transfers.changes = []
      split_ifs with isElsewhere
      · have noOwner : scope.owner = none := by
          cases scope <;> first | rfl | cases isElsewhere
        exact ofMove (.tells (.taskPanicked name scope) noOwner rfl trivial) trivial rfl
      · exact ⟨.refl _, reported⟩

/-! ### Runs -/

/-- What holds of the engine between two steps. -/
structure Steady (engine : Engine) : Prop where
  sound : engine.Sound
  filled : engine.Filled
  reported : engine.transfers.changes = []

theorem owned_new (localFs : FsTraits) (maxParallel : Nat) (onConflict : ConflictPolicy)
    (store : List HistoryEntry) : (Engine.new localFs maxParallel onConflict store).Owned where
  tasks_lt := by intro task live found; cases found
  jobs := fun _ => rfl
  scans := fun _ => rfl
  scans_le := fun _ => Nat.zero_le _
  scans_lt := fun _ planned => absurd planned (lt_irrefl _)
  live_scanned := by intro task live batchId kind found; cases found
  message_scanned := by intro message member; cases member
  named := by intro message member; cases member
  scanning := by intro batchId isOn; cases isOn

theorem batches_empty : Batches .empty 0 [] [] .empty where
  jobs_lt := by intro id job batch found; cases found
  scans_lt := by intro scan member; cases member
  reviews_lt := by intro review member; cases member
  plans_lt := by intro batch plan found; cases found
  plans_named := by intro batch plan found; cases found
  planned_jobs := by intro scan member; cases member
  planned_reviews := by intro scan member; cases member
  planned_plans := by intro scan member; cases member
  reviewed_jobs := by intro review member; cases member
  reviews_nodup := List.nodup_nil
  same_session := by intro first second firstJob secondJob batch found; cases found

theorem connections_empty : Connections .empty 0 .empty (fun _ => false) [] .empty where
  sessions_lt := by intro session live found; cases found
  jobs_lt := by intro id job found; cases found
  waiting := by intro id job found; cases found
  running := by intro id job found; cases found
  reviews_live := by intro review member; cases member
  plans_live := by intro batch plan found; cases found

theorem steady_new (localFs : FsTraits) (maxParallel : Nat) (onConflict : ConflictPolicy)
    (store : List HistoryEntry) : (Engine.new localFs maxParallel onConflict store).Steady where
  sound :=
    { indexed := indexed_new
      owned := owned_new localFs maxParallel onConflict store
      batches := batches_empty
      connections := connections_empty
      attempts := by intro id job found; cases found }
  filled := by intro id slot found; cases found
  reported := rfl

theorem Steady.refills (steady : engine.Steady) (step : EngineStep) :
    Refills (Allows engine step) engine (step.next engine) :=
  (next_refills steady.sound steady.reported step).1

theorem Steady.moves (steady : engine.Steady) (step : EngineStep) :
    Moves (Allows engine step) engine (step.next engine) :=
  (steady.refills step).moves

theorem Steady.next (steady : engine.Steady) (step : EngineStep) : (step.next engine).Steady :=
  ⟨(steady.moves step).sound steady.sound, (steady.refills step).filled steady.sound steady.filled,
    (next_refills steady.sound steady.reported step).2⟩

theorem Steady.after (steady : engine.Steady) (steps : List EngineStep) :
    (engine.after steps).Steady := by
  induction steps generalizing engine with
  | nil => exact steady
  | cons step rest ih => exact ih (steady.next step)

theorem Steady.invariant (steady : engine.Steady) (holds : Engine → Prop) (start : holds engine)
    (steps : List EngineStep)
    (kept : ∀ {engine : Engine} {label : Label} {before after : Engine}, ∀ step ∈ steps,
      engine.Steady → Allows engine step label → before.Sound → Move label before after →
      holds before → holds after) : holds (engine.after steps) := by
  induction steps generalizing engine with
  | nil => exact start
  | cons step rest ih =>
    refine ih (steady.next step) ?_ fun other member => kept other (List.mem_cons_of_mem _ member)
    exact ((steady.moves step).invariant holds steady.sound start fun allows sound move =>
      kept step List.mem_cons_self steady allows sound move).2

theorem after_append (engine : Engine) (first second : List EngineStep) :
    engine.after (first ++ second) = (engine.after first).after second :=
  List.foldl_append

end Engine

end Porthmos
