import Porthmos.Conflicts
import Porthmos.QueueStarting
import Porthmos.SyncRun

/-!
# The state of the engine

The engine owns the transfer queue and starts a background task for everything that takes
time.  A task works on its own, sends messages into the engine's channel, its result
last, and is gone.  Here are the tasks, the messages and the state they change; what the
engine tells the screen, and the parts of it that never touch a transfer, are left out.
-/

namespace Porthmos

/-! ### Tasks -/

inductive Scope
  | session (id : Nat)
  | transfer (id : Nat)
  | planning (batchId : Nat)
  | edit (id : Nat)
  | search
  | background
  deriving DecidableEq, Repr

/-- What the future of a task has captured, as far as its messages show it. -/
inductive Work
  | planCopy (batchId sessionId : Nat) (direction : Direction)
  | transfer (id : Nat)
  | syncScan (batchId sessionId : Nat) (localRoot remoteRoot : Path) (options : SyncOptions)
      (tolerance : UInt64) (targetKeepsTimes : Bool)
  | syncFolders (batchId sessionId : Nat) (direction : Direction) (files : List PlannedFile)
  | removePartials (sessionId : Nat) (parts : List String)
  | connect (name : String)

namespace Work

/-- The name a task is spawned with. -/
def name : Work → String
  | planCopy _ _ _ => "plan-copy"
  | transfer _ => "transfer"
  | syncScan _ _ _ _ _ _ _ => "sync-scan"
  | syncFolders _ _ _ _ => "sync-folders"
  | removePartials _ _ => "remove-partials"
  | connect _ => "connect"

/-- The scope a task is spawned with. -/
def scope : Work → Scope
  | planCopy batchId _ _ => .planning batchId
  | transfer id => .transfer id
  | syncScan batchId _ _ _ _ _ _ => .planning batchId
  | syncFolders batchId _ _ _ => .planning batchId
  | removePartials _ _ => .background
  | connect _ => .background

end Work

structure Live where
  work : Work
  cancel : Bool

/-- The tasks that run, and the scopes that were cancelled.  A task is in `live` until it
has sent its last message. -/
structure Tasks where
  live : OrderedMap Nat Live
  cancelled : Scope → Bool
  next : Nat

namespace Tasks

def new : Tasks where
  live := .empty
  cancelled := fun _ => false
  next := 0

def spawn (tasks : Tasks) (work : Work) : Tasks :=
  { tasks with
    live := tasks.live.insert tasks.next ⟨work, false⟩
    next := tasks.next + 1 }

/-- Set the flags of the tasks of a scope, and remember the scope. -/
def cancel (tasks : Tasks) (scope : Scope) : Tasks :=
  { tasks with
    live := tasks.live.filterMap fun _ live =>
      some (if live.work.scope = scope then { live with cancel := true } else live)
    cancelled := Function.update tasks.cancelled scope true }

def forget (tasks : Tasks) (scope : Scope) : Tasks :=
  { tasks with cancelled := Function.update tasks.cancelled scope false }

/-- `take_cancelled`: whether the scope was cancelled, which is forgotten. -/
def takeCancelled (tasks : Tasks) (scope : Scope) : Tasks × Bool :=
  (tasks.forget scope, tasks.cancelled scope)

/-- `Shared::finish` -/
def finish (tasks : Tasks) (task : Nat) : Tasks := { tasks with live := tasks.live.erase task }

end Tasks

/-! ### Messages -/

inductive TransferOutcome
  | completed
  | cancelled
  deriving DecidableEq, Repr

inductive TransferEvent
  | progress (id transferred : Nat)
  | finished (id : Nat) (outcome : TransferOutcome)
  | failed (id : Nat) (message : String)
  | planReady (batchId sessionId : Nat) (direction : Direction) (plan : DirectoryPlan)
  | planFailed (batchId : Nat) (message : String)
  | planCancelled (batchId sessionId : Nat) (direction : Direction)
  | partialsRemoved (sessionId : Nat)
  | timesNotKept (id : Nat)
  | syncPlanReady (batchId : Nat) (plan : SyncPlan)
  | syncCancelled (batchId : Nat)
  | syncFailed (batchId : Nat) (message : String)
  | syncFoldersReady (batchId sessionId : Nat) (direction : Direction) (plan : DirectoryPlan)

/-- What the engine asks of a file system besides its files. -/
structure FsTraits where
  transferLimit : Option Nat
  canSetModified : Bool
  timeResolution : UInt64
  deriving DecidableEq, Repr

/-- `other` is a message that no transfer depends on. -/
inductive Internal
  | connected (name : String) (fs : FsTraits)
  | connectFailed (name : String)
  | transfer (event : TransferEvent)
  | taskPanicked (name : String) (scope : Scope)
  | other

/-! ### State -/

structure LiveSession where
  name : String
  fs : FsTraits
  deriving DecidableEq, Repr

structure PlanningScan where
  batchId : Nat
  sessionId : Nat
  direction : Direction
  displayName : String
  deriving DecidableEq, Repr

structure ConflictReview where
  batchId : Nat
  sessionId : Nat
  direction : Direction
  plan : DirectoryPlan

structure SyncState where
  plans : OrderedMap Nat SyncPlan
  scanning : Nat → Bool

inductive HistoryResult
  | done
  | partlyFailed (failed : Nat)
  | failed
  | cancelled
  | interrupted
  deriving DecidableEq, Repr

structure HistoryEntry where
  finishedAt : Nat
  connection : String
  direction : Direction
  label : String
  localPath : String
  remotePath : String
  filesDone : Nat
  filesTotal : Nat
  bytes : Nat
  result : HistoryResult
  failedCount : Nat
  failedFiles : List String
  deriving DecidableEq, Repr

/-- The entries of the store, and which rows and jobs they already speak for.  `stored` is
no part of the source: it lists every entry ever stored together with the jobs it was
made from. -/
structure HistoryLog where
  store : List HistoryEntry
  recorded : RowKind → Bool
  counted : RowKind → Option (List Nat)
  sessionNames : Nat → Option String
  stored : List (HistoryEntry × List TransferJob)

def HistoryLog.new (store : List HistoryEntry) : HistoryLog where
  store := store
  recorded := fun _ => false
  counted := fun _ => none
  sessionNames := fun _ => none
  stored := []

structure Engine where
  localFs : FsTraits
  internal : List Internal
  tasks : Tasks
  sessions : OrderedMap Nat LiveSession
  nextSessionId : Nat
  connecting : List String
  transfers : TransferQueue
  maxParallel : Nat
  onConflict : ConflictPolicy
  planning : List PlanningScan
  reviews : List ConflictReview
  history : HistoryLog
  sync : SyncState

/-- What differs from one step to another without being part of the state: in which order
hash containers are walked, the time, and whether the screen is due for an update. -/
structure Moment where
  order : HashOrder
  partials : List (Nat × List String) → List (Nat × List String)
  partials_perm : ∀ entries, (partials entries).Perm entries
  now : Nat
  due : Bool

/-- A moment like any other. -/
def Moment.usual : Moment where
  order := .insertion
  partials := id
  partials_perm := fun _ => .rfl
  now := 0
  due := true

namespace Engine

def new (localFs : FsTraits) (maxParallel : Nat) (onConflict : ConflictPolicy)
    (store : List HistoryEntry) : Engine where
  localFs := localFs
  internal := []
  tasks := .new
  sessions := .empty
  nextSessionId := 0
  connecting := []
  transfers := .new
  maxParallel := maxParallel
  onConflict := onConflict
  planning := []
  reviews := []
  history := .new store
  sync := ⟨.empty, fun _ => false⟩

def spawn (engine : Engine) (work : Work) : Engine :=
  { engine with tasks := engine.tasks.spawn work }

def cancelScope (engine : Engine) (scope : Scope) : Engine :=
  { engine with tasks := engine.tasks.cancel scope }

def forgetScope (engine : Engine) (scope : Scope) : Engine :=
  { engine with tasks := engine.tasks.forget scope }

/-- Whether both file systems of a transfer can be had. -/
def connected (engine : Engine) (session : Nat) : Bool := engine.sessions.contains session

/-- The limit that the file system of a session sets. -/
def transferLimit (engine : Engine) (session : Nat) : Option Nat :=
  (engine.sessions.get? session).bind fun live => live.fs.transferLimit

def forgetBatchIfEmpty (engine : Engine) (batchId : Nat) : Engine :=
  { engine with transfers := engine.transfers.forgetBatchIfEmpty batchId }

end Engine

end Porthmos
