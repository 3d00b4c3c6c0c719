import Porthmos.EngineProgress

/-!
# What has to do with connecting

Only three handlers change the sessions, the profiles that are being connected or the tasks
that connect them.  All others leave these, and the channel, alone.
-/

namespace Porthmos

open TransferQueue

/-! ### Connect tasks -/

/-- The profile that a task connects to. -/
def Work.profile : Work → Option String
  | .connect name => some name
  | _ => none

namespace Tasks

/-- The connect tasks of a profile. -/
def connects (name : String) (tasks : Tasks) : Nat :=
  tasks.live.total fun _ live => if live.work.profile = some name then 1 else 0

def Bounded (tasks : Tasks) : Prop :=
  ∀ task live, tasks.live.get? task = some live → task < tasks.next

theorem Bounded.fresh {tasks : Tasks} (bounded : tasks.Bounded) :
    tasks.live.get? tasks.next = none := by
  rw [Option.eq_none_iff_forall_ne_some]
  intro live found
  exact absurd (bounded _ live found) (lt_irrefl _)

theorem Bounded.spawn {tasks : Tasks} (bounded : tasks.Bounded) (work : Work) :
    (tasks.spawn work).Bounded := by
  intro task live found
  rcases OrderedMap.get?_insert_cases found with ⟨rfl, _⟩ | ⟨_, earlier⟩
  · exact Nat.lt_succ_self _
  · exact (bounded task live earlier).trans (Nat.lt_succ_self _)

theorem Bounded.connects_spawn {tasks : Tasks} (bounded : tasks.Bounded) (profile name : String) :
    (tasks.spawn (.connect profile)).connects name =
      tasks.connects name + if profile = name then 1 else 0 := by
  rw [connects, Tasks.spawn, OrderedMap.total_insert_new bounded.fresh, ← connects]
  simp only [Work.profile, Option.some.injEq]

/-- The tasks change, but not those that connect. -/
def Aside (before after : Tasks) : Prop :=
  before.Bounded → after.Bounded ∧ ∀ name, after.connects name = before.connects name

namespace Aside

variable {before middle after : Tasks}

theorem refl (tasks : Tasks) : tasks.Aside tasks := fun bounded => ⟨bounded, fun _ => rfl⟩

theorem trans (first : before.Aside middle) (second : middle.Aside after) : before.Aside after := by
  intro bounded
  obtain ⟨middleBounded, firstSame⟩ := first bounded
  obtain ⟨afterBounded, secondSame⟩ := second middleBounded
  exact ⟨afterBounded, fun name => (secondSame name).trans (firstSame name)⟩

theorem spawn (tasks : Tasks) {work : Work} (other : work.profile = none) :
    tasks.Aside (tasks.spawn work) := by
  intro bounded
  refine ⟨bounded.spawn work, fun name => ?_⟩
  have nameless : work.profile ≠ some name := by
    rw [other]
    simp
  rw [connects, Tasks.spawn, OrderedMap.total_insert_new bounded.fresh, if_neg nameless,
    ← connects, Nat.add_zero]

theorem cancel (tasks : Tasks) (scope : Scope) : tasks.Aside (tasks.cancel scope) := by
  intro bounded
  constructor
  · intro task live found
    obtain ⟨earlier, isEarlier, _⟩ := Engine.found_of_cancel found
    exact bounded task earlier isEarlier
  · intro name
    rw [connects, Tasks.cancel, total_map]
    congr 1
    funext _ live
    split_ifs <;> rfl

theorem forget (tasks : Tasks) (scope : Scope) : tasks.Aside (tasks.forget scope) :=
  fun bounded => ⟨bounded, fun _ => rfl⟩

end Aside

end Tasks

/-- Nothing changes that has to do with connecting. -/
structure Aside (before after : Engine) : Prop where
  connecting : after.connecting = before.connecting
  sessions : after.sessions = before.sessions
  internal : after.internal = before.internal
  tasks : before.tasks.Aside after.tasks

namespace Aside

variable {before middle after engine : Engine} {order : HashOrder}

theorem refl (engine : Engine) : Aside engine engine := ⟨rfl, rfl, rfl, .refl _⟩

theorem trans (first : Aside before middle) (second : Aside middle after) : Aside before after :=
  ⟨second.connecting.trans first.connecting, second.sessions.trans first.sessions,
    second.internal.trans first.internal, first.tasks.trans second.tasks⟩

theorem of_eq (connecting : after.connecting = before.connecting)
    (sessions : after.sessions = before.sessions) (internal : after.internal = before.internal)
    (tasks : after.tasks = before.tasks) : Aside before after :=
  ⟨connecting, sessions, internal, tasks ▸ .refl _⟩

theorem foldl {α : Type*} {round : Engine → α → Engine} (rounds : List α) (engine : Engine)
    (step : ∀ engine given, Aside engine (round engine given)) :
    Aside engine (rounds.foldl round engine) := by
  induction rounds generalizing engine with
  | nil => exact .refl engine
  | cons given rest ih => exact (step engine given).trans (ih _)

theorem setTransfers (engine : Engine) (transfers : TransferQueue) :
    Aside engine (engine.setTransfers transfers) := .of_eq rfl rfl rfl rfl

theorem setHistory (engine : Engine) (history : HistoryLog) :
    Aside engine (engine.setHistory history) := .of_eq rfl rfl rfl rfl

theorem spawn (engine : Engine) {work : Work} (other : work.profile = none) :
    Aside engine (engine.spawn work) := ⟨rfl, rfl, rfl, .spawn _ other⟩

theorem cancelScope (engine : Engine) (scope : Scope) : Aside engine (engine.cancelScope scope) :=
  ⟨rfl, rfl, rfl, .cancel _ _⟩

theorem forgetScope (engine : Engine) (scope : Scope) : Aside engine (engine.forgetScope scope) :=
  ⟨rfl, rfl, rfl, .forget _ _⟩

theorem forgetBatchIfEmpty (engine : Engine) (batchId : Nat) :
    Aside engine (engine.forgetBatchIfEmpty batchId) := .of_eq rfl rfl rfl rfl

/-! ### Starting jobs -/

theorem startTransfer (engine : Engine) (id : Nat) : Aside engine (engine.startTransfer id) := by
  unfold Engine.startTransfer
  split
  · exact .refl engine
  · dsimp only
    split_ifs
    · exact (Aside.setTransfers engine _).trans (.spawn _ rfl)
    · exact .setTransfers engine _

theorem fillRounds {rounds : Nat} {full : Engine}
    (ends : Engine.fillRounds order rounds engine = some full) : Aside engine full := by
  induction rounds generalizing engine with
  | zero => cases ends
  | succ rounds ih =>
    unfold Engine.fillRounds at ends
    split at ends
    · cases ends
      exact .refl _
    · exact (Aside.foldl _ engine startTransfer).trans (ih ends)

theorem fillTransferSlots (order : HashOrder) (engine : Engine) :
    Aside engine (engine.fillTransferSlots order) := by
  unfold Engine.fillTransferSlots
  cases ends : Engine.fillRounds order (engine.transfers.queued.keys.length + 1) engine with
  | none => exact .refl engine
  | some full => exact fillRounds ends

/-! ### Copies -/

theorem startPlanning (engine : Engine) (session : Nat) (direction : Direction)
    (displayName : String) {work : Nat → Work} (other : ∀ batchId, (work batchId).profile = none) :
    Aside engine (engine.startPlanning session direction displayName work).1 :=
  ⟨rfl, rfl, rfl, .spawn _ (other _)⟩

theorem copy (order : HashOrder) (engine : Engine) (source : Location) (entries : List Entry)
    (target : Location) : Aside engine (engine.copy order source entries target) := by
  unfold Engine.copy Engine.startCopyPlan
  split
  · exact .refl engine
  · split_ifs
    · exact .refl engine
    · exact (Aside.startPlanning engine _ _ _ fun _ => rfl).trans (.fillTransferSlots order _)
    · exact .fillTransferSlots order engine

theorem clearPlanning (engine : Engine) (batchId : Nat) : Aside engine (engine.clearPlanning batchId) :=
  ⟨rfl, rfl, rfl, .forget _ _⟩

theorem applyPlanReady (order : HashOrder) (engine : Engine) (batchId session : Nat)
    (direction : Direction) (plan : DirectoryPlan) (answers : List Resolution)
    (preserveTimes : Bool) :
    Aside engine
      (engine.applyPlanReady order batchId session direction plan answers preserveTimes) := by
  unfold Engine.applyPlanReady
  apply Aside.trans _ (.fillTransferSlots order _)
  exact .of_eq rfl rfl rfl rfl

theorem reviewOrApplyPlan (order : HashOrder) (engine : Engine) (batchId session : Nat)
    (direction : Direction) (plan : DirectoryPlan) :
    Aside engine (engine.reviewOrApplyPlan order batchId session direction plan) := by
  unfold Engine.reviewOrApplyPlan
  split_ifs
  · exact .applyPlanReady order engine _ _ _ _ _ _
  · split
    · exact .applyPlanReady order engine _ _ _ _ _ _
    · exact .of_eq rfl rfl rfl rfl

theorem resolveConflicts (order : HashOrder) (engine : Engine) (batchId : Nat)
    (answers : Option (List Resolution)) :
    Aside engine (engine.resolveConflicts order batchId answers) := by
  have removed : Aside engine (engine.removeReview batchId) := .of_eq rfl rfl rfl rfl
  unfold Engine.resolveConflicts
  split
  · exact .refl engine
  · cases answers with
    | none => exact removed.trans (.forgetBatchIfEmpty _ _)
    | some answers => exact removed.trans (.applyPlanReady order _ _ _ _ _ _ _)

theorem dropConflictReviews (engine : Engine) (shouldDrop : ConflictReview → Bool) :
    Aside engine (engine.dropConflictReviews shouldDrop) := by
  unfold Engine.dropConflictReviews
  apply Aside.trans _ (.foldl _ _ forgetBatchIfEmpty)
  exact .of_eq rfl rfl rfl rfl

theorem transferFinished (order : HashOrder) (engine : Engine) (id : Nat)
    (outcome : TransferOutcome) : Aside engine (engine.transferFinished order id outcome) := by
  unfold Engine.transferFinished
  apply Aside.trans _ (.fillTransferSlots order _)
  exact (Aside.forgetScope engine _).trans (.setTransfers _ _)

theorem transferFailed (order : HashOrder) (engine : Engine) (id : Nat) (message : String) :
    Aside engine (engine.transferFailed order id message) := by
  unfold Engine.transferFailed
  apply Aside.trans _ (.fillTransferSlots order _)
  exact ⟨rfl, rfl, rfl, .forget _ _⟩

theorem planReady (order : HashOrder) (engine : Engine) (batchId session : Nat)
    (direction : Direction) (plan : DirectoryPlan) :
    Aside engine (engine.planReady order batchId session direction plan) := by
  have cleared := Aside.clearPlanning engine batchId
  unfold Engine.planReady
  dsimp only
  split_ifs
  · exact cleared.trans (.reviewOrApplyPlan order _ _ _ _ _)
  · exact cleared.trans (.forgetBatchIfEmpty _ _)

theorem planCancelled (engine : Engine) (batchId : Nat) : Aside engine (engine.planCancelled batchId) :=
  (Aside.clearPlanning engine batchId).trans (.forgetBatchIfEmpty _ _)

theorem planFailed (now : Nat) (engine : Engine) (batchId : Nat) :
    Aside engine (engine.planFailed now batchId) := by
  unfold Engine.planFailed
  dsimp only
  split
  · exact (Aside.planCancelled engine batchId).trans (.setHistory _ _)
  · exact .planCancelled engine batchId

theorem timesNotKept (engine : Engine) (id : Nat) : Aside engine (engine.timesNotKept id) := by
  unfold Engine.timesNotKept
  split
  · exact .refl engine
  · exact .setTransfers engine _

/-! ### Cancelling, retrying and clearing -/

theorem cancelAllWork (engine : Engine) : Aside engine engine.cancelAllWork := by
  rw [Engine.cancelAllWork_eq]
  exact .foldl _ engine cancelScope

theorem cancelSessionTransfers (engine : Engine) (session : Nat) :
    Aside engine (engine.cancelSessionTransfers session) := by
  rw [Engine.cancelSessionTransfers_eq]
  exact .foldl _ engine cancelScope

theorem cancelJob (engine : Engine) (id : Nat) : Aside engine (engine.cancelJob id) := by
  unfold Engine.cancelJob
  split
  · exact .refl engine
  · split
    · exact .setTransfers engine _
    · exact .cancelScope engine _
    · exact .refl engine

theorem cancelRow (engine : Engine) (kind : RowKind) : Aside engine (engine.cancelRow kind) := by
  cases kind with
  | scan batchId =>
    unfold Engine.cancelRow
    dsimp only
    split_ifs
    · exact (Aside.cancelScope engine _).trans (.dropConflictReviews _ _)
    · exact .dropConflictReviews engine _
  | single id => exact .foldl _ engine cancelJob
  | batch batchId => exact .foldl _ engine cancelJob

theorem retryRow (order : HashOrder) (engine : Engine) (kind : RowKind) :
    Aside engine (engine.retryRow order kind) := by
  unfold Engine.retryRow
  dsimp only
  split
  · exact .refl engine
  · split_ifs
    · exact (Aside.setTransfers engine _).trans (.fillTransferSlots order _)
    · exact .setTransfers engine _
    · exact .refl engine

theorem clearFinishedRows (moment : Moment) (engine : Engine) :
    Aside engine (engine.clearFinishedRows moment) := by
  apply (Aside.setTransfers engine _).trans
  apply Aside.foldl
  intro later entry
  unfold Engine.spawnRemoval
  split_ifs
  · exact .spawn later rfl
  · exact .refl later

/-! ### Syncs -/

theorem setPlans (engine : Engine) (plans : OrderedMap Nat SyncPlan) :
    Aside engine (engine.setPlans plans) := .of_eq rfl rfl rfl rfl

theorem setScanning (engine : Engine) (batchId : Nat) (scanning : Bool) :
    Aside engine (engine.setScanning batchId scanning) := .of_eq rfl rfl rfl rfl

theorem startPlanning_scanning (engine : Engine) (session : Nat) (direction : Direction)
    (displayName : String) (work : Nat → Work) (other : ∀ batchId, (work batchId).profile = none) :
    Aside engine ((engine.startPlanning session direction displayName work).1.setScanning
      (engine.startPlanning session direction displayName work).2 true) :=
  (Aside.startPlanning engine session direction displayName other).trans (.setScanning _ _ _)

theorem startSync (engine : Engine) (session : Nat) (localDir remoteDir : Path)
    (options : SyncOptions) : Aside engine (engine.startSync session localDir remoteDir options) := by
  unfold Engine.startSync
  split_ifs
  · exact .refl engine
  · split
    · exact .refl engine
    · split_ifs
      · exact .refl engine
      · exact startPlanning_scanning engine session .upload _
          (fun batchId => .syncScan batchId session localDir remoteDir options _ _) fun _ => rfl

theorem startSyncFiles (engine : Engine) (plan : SyncPlan) (direction : Direction)
    (files : List PlannedFile) : Aside engine (engine.startSyncFiles plan direction files) := by
  unfold Engine.startSyncFiles Engine.startSyncBatch
  split_ifs
  · exact .refl engine
  · exact startPlanning_scanning engine plan.session direction (Engine.syncLabel plan direction)
      (fun batchId => .syncFolders batchId plan.session direction files) fun _ => rfl
  · exact .refl engine

theorem runSync (engine : Engine) (syncId : Nat) (choices : List (Nat × SyncAction)) :
    Aside engine (engine.runSync syncId choices) := by
  unfold Engine.runSync
  split
  · exact .refl engine
  · dsimp only
    split_ifs
    · exact (Aside.setPlans engine _).trans
        ((Aside.startSyncFiles _ _ _ _).trans (.startSyncFiles _ _ _ _))
    · exact .setPlans engine _

theorem endSync (engine : Engine) (batchId : Nat) : Aside engine (engine.endSync batchId) :=
  (Aside.setScanning engine batchId false).trans (.planCancelled _ batchId)

theorem syncPlanReady (engine : Engine) (batchId : Nat) (plan : SyncPlan) :
    Aside engine (engine.syncPlanReady batchId plan) := by
  have forgot : Aside engine { engine with tasks := engine.tasks.forget (.planning batchId) } :=
    ⟨rfl, rfl, rfl, .forget _ _⟩
  have ended := forgot.trans (.endSync _ batchId)
  unfold Engine.syncPlanReady Engine.syncCancelled Tasks.takeCancelled
  dsimp only
  split_ifs
  · exact ended
  · exact ended
  · exact ended
  · exact ended.trans (.setPlans _ _)

theorem syncFoldersReady (order : HashOrder) (engine : Engine) (batchId session : Nat)
    (direction : Direction) (plan : DirectoryPlan) :
    Aside engine (engine.syncFoldersReady order batchId session direction plan) := by
  have forgot : Aside engine { engine with tasks := engine.tasks.forget (.planning batchId) } :=
    ⟨rfl, rfl, rfl, .forget _ _⟩
  have cleared := (forgot.trans (.setScanning _ batchId false)).trans (.clearPlanning _ batchId)
  unfold Engine.syncFoldersReady Engine.syncCancelled Tasks.takeCancelled
  dsimp only
  split_ifs
  · exact .refl engine
  · exact forgot.trans (.endSync _ batchId)
  · exact cleared.trans (.applyPlanReady order _ _ _ _ _ _ _)
  · exact cleared.trans (.forgetBatchIfEmpty _ _)

theorem cancelSync (engine : Engine) (syncId : Nat) : Aside engine (engine.cancelSync syncId) := by
  unfold Engine.cancelSync
  split_ifs
  · exact .cancelScope engine _
  · exact .setPlans engine _

theorem cancelAllCopies (engine : Engine) : Aside engine engine.cancelAllCopies :=
  ((Aside.dropConflictReviews engine _).trans (.setPlans _ _)).trans
    ((Aside.cancelAllWork _).trans (.setTransfers _ _))

/-! ### Messages and the screen -/

theorem processRowChanges (now : Nat) (engine : Engine) :
    Aside engine (engine.processRowChanges now) := by
  obtain ⟨history, same⟩ := Engine.processRowChanges_eq now engine
  rw [same]
  exact .of_eq rfl rfl rfl rfl

theorem requestPublish (moment : Moment) (engine : Engine) :
    Aside engine (engine.requestPublish moment) := by
  unfold Engine.requestPublish
  split_ifs
  · exact .processRowChanges _ engine
  · exact .refl engine

theorem handleTransferEvent (moment : Moment) (engine : Engine) (event : TransferEvent) :
    Aside engine (engine.handleTransferEvent moment event) := by
  cases event with
  | progress id transferred => exact .setTransfers engine _
  | finished id outcome => exact .transferFinished _ engine _ _
  | failed id message => exact .transferFailed _ engine _ _
  | planReady batchId session direction plan => exact .planReady _ engine _ _ _ _
  | planFailed batchId message => exact .planFailed _ engine _
  | planCancelled batchId session direction => exact .planCancelled engine _
  | partialsRemoved session => exact .refl engine
  | timesNotKept id => exact .timesNotKept engine _
  | syncPlanReady batchId plan => exact .syncPlanReady engine _ _
  | syncCancelled batchId => exact .endSync engine _
  | syncFailed batchId message => exact .endSync engine _
  | syncFoldersReady batchId session direction plan => exact .syncFoldersReady _ engine _ _ _ _

theorem recoverFromPanic (moment : Moment) (engine : Engine) (name : String) (scope : Scope) :
    Aside engine (engine.recoverFromPanic moment name scope) := by
  unfold Engine.recoverFromPanic
  dsimp only
  split
  · split_ifs
    · exact .handleTransferEvent moment engine _
    · exact .refl engine
  · split_ifs
    · exact .endSync engine _
    · exact .handleTransferEvent moment engine _
    · exact .refl engine
  · exact .refl engine

end Aside

end Porthmos
