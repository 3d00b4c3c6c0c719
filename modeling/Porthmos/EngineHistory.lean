import Porthmos.Engine

/-!
# The history of the engine

When a row finishes, an entry about it goes into the history.  A row that is reopened and
finishes again gets one more entry, about the jobs that no earlier entry has counted.
What has not finished when the engine stops is recorded as interrupted.
-/

namespace Porthmos

def maxEntries : Nat := 1000

def maxFailedFiles : Nat := 100

/-- The path with these components, as `PathBuf` collects them. -/
def Path.ofComponents (components : List Component) : Path :=
  components.foldl (fun path component => path.join ⟨match component with
    | .rootDir => "/"
    | .curDir => "."
    | .parentDir => ".."
    | .normal name => name⟩) ⟨""⟩

def commonPrefix (first second : List Component) : List Component :=
  ((first.zip second).takeWhile fun pair => decide (pair.1 = pair.2)).map Prod.fst

def commonDirectory (paths : List Path) : Path :=
  let parents := paths.map fun path => path.parent.getD path
  match parents with
  | [] => ⟨""⟩
  | first :: rest => rest.foldl
      (fun current parent => .ofComponents (commonPrefix current.components parent.components)) first

def historyResult : RowState → HistoryResult
  | .done => .done
  | .partlyFailed failed => .partlyFailed failed
  | .failed => .failed
  | .cancelled => .cancelled
  | .scanning | .awaitingAnswer | .running | .queued => .interrupted

def newEntry (finishedAt : Nat) (connection : String) (direction : Direction) (label : String)
    (result : HistoryResult) : HistoryEntry where
  finishedAt := finishedAt
  connection := connection
  direction := direction
  label := label
  localPath := ""
  remotePath := ""
  filesDone := 0
  filesTotal := 0
  bytes := 0
  result := result
  failedCount := 0
  failedFiles := []

/-- The bytes an entry counts for a job. -/
def entryBytes (job : TransferJob) : Nat :=
  if job.status = .completed then job.totalBytes else job.transferredBytes

def isFailed (job : TransferJob) : Bool := TransferQueue.isFailedStatus job.status

/-- The entry of a row that is about these of its jobs. -/
def entryOfJobs (now : Nat) (connection : String) (row : QueueRow) (jobs : List TransferJob) :
    HistoryEntry :=
  let common := (commonDirectory (jobs.map TransferJob.localPath),
    (commonDirectory (jobs.map fun job => ⟨job.remotePath⟩)).text)
  let (localPath, remotePath) := match jobs with
    | [job] => if job.displayName = row.label then (job.localPath, job.remotePath) else common
    | _ => common
  let failed := jobs.filter isFailed
  { newEntry now connection row.direction row.label (historyResult row.state) with
    localPath := localPath.text
    remotePath := remotePath
    filesDone := jobs.countP fun job => decide (job.status = .completed)
    filesTotal := jobs.length
    bytes := (jobs.map entryBytes).sum
    failedCount := failed.length
    failedFiles := (failed.take maxFailedFiles).map TransferJob.displayName }

namespace HistoryLog

def rememberSession (history : HistoryLog) (session : Nat) (name : String) : HistoryLog :=
  { history with sessionNames := Function.update history.sessionNames session (some name) }

/-- `History::push`: the oldest entries make room. -/
def push (store : List HistoryEntry) (entry : HistoryEntry) : List HistoryEntry :=
  let entries := store ++ [entry]
  entries.drop (entries.length - maxEntries)

/-- `store_entry`, given the jobs that the entry is about. -/
def storeEntry (history : HistoryLog) (entry : HistoryEntry) (jobs : List TransferJob) :
    HistoryLog :=
  { history with
    store := push history.store entry
    stored := history.stored ++ [(entry, jobs)] }

def clear (history : HistoryLog) : HistoryLog := { history with store := [] }

def record (history : HistoryLog) (kind : RowKind) : HistoryLog :=
  { history with recorded := Function.update history.recorded kind true }

def unrecord (history : HistoryLog) (kind : RowKind) : HistoryLog :=
  { history with recorded := Function.update history.recorded kind false }

def count (history : HistoryLog) (kind : RowKind) (ids : Option (List Nat)) : HistoryLog :=
  { history with counted := Function.update history.counted kind ids }

/-- Whether an earlier entry of the row has counted the job. -/
def hasCounted (history : HistoryLog) (kind : RowKind) (id : Nat) : Bool :=
  (history.counted kind).any fun ids => decide (id ∈ ids)

end HistoryLog

namespace Engine

def sessionName (engine : Engine) (session : Nat) : String :=
  match engine.sessions.get? session with
  | some live => live.name
  | none => (engine.history.sessionNames session).getD "unknown"

def scanSession (engine : Engine) (batchId : Nat) : Option Nat :=
  ((engine.planning.find? fun scan => scan.batchId = batchId).map PlanningScan.sessionId).or
    ((engine.reviews.find? fun review => review.batchId = batchId).map ConflictReview.sessionId)

/-- The jobs that `entry_for_row` is about. -/
def uncountedJobs (engine : Engine) (kind : RowKind) : List TransferJob :=
  (engine.transfers.jobsOf kind).filter fun job => !engine.history.hasCounted kind job.id

def entryForRow (engine : Engine) (now : Nat) (row : QueueRow) : HistoryEntry :=
  let jobs := engine.uncountedJobs row.kind
  let session := (jobs.head?.map TransferJob.sessionId).or (match row.kind with
    | .scan batchId => engine.scanSession batchId
    | _ => none)
  entryOfJobs now ((session.map engine.sessionName).getD "unknown") row jobs

def completedIds (engine : Engine) (kind : RowKind) : List Nat :=
  ((engine.transfers.jobsOf kind).filter fun job => decide (job.status = .completed)).map
    TransferJob.id

def setHistory (engine : Engine) (history : HistoryLog) : Engine := { engine with history }

/-- `process_row_changes` at one row. -/
def processRow (now : Nat) (engine : Engine) (kind : RowKind) : Engine :=
  match engine.transfers.row kind with
  | none => engine.setHistory ((engine.history.unrecord kind).count kind none)
  | some row =>
    if row.isFinished then
      if engine.history.recorded kind then engine
      else
        engine.setHistory (((engine.history.record kind).count kind
          (some (engine.completedIds kind))).storeEntry (engine.entryForRow now row)
            (engine.uncountedJobs kind))
    else engine.setHistory (engine.history.unrecord kind)

/-- The rows of a list of changes, each where it comes first. -/
def changedKinds (changes : List RowChange) : List RowKind :=
  changes.foldl
    (fun kinds change => if change.kind ∈ kinds then kinds else kinds ++ [change.kind]) []

def processRowChanges (now : Nat) (engine : Engine) : Engine :=
  let (transfers, changes) := engine.transfers.takeChanges
  (changedKinds changes).foldl (processRow now) { engine with transfers }

def scanRow (batchId : Nat) (label : String) (direction : Direction) (state : RowState) :
    QueueRow where
  kind := .scan batchId
  label := label
  direction := direction
  filesDone := 0
  filesTotal := 0
  bytesDone := 0
  bytesTotal := 0
  state := state

/-- The rows of the scans and of the reviews. -/
def scans (engine : Engine) : List QueueRow :=
  (engine.planning.map fun scan => scanRow scan.batchId scan.displayName scan.direction .scanning) ++
    engine.reviews.map fun review =>
      scanRow review.batchId ((engine.transfers.batchLabel review.batchId).getD "copy")
        review.direction .awaitingAnswer

/-- The rows of the snapshot. -/
def snapshotRows (engine : Engine) : List QueueRow := engine.transfers.rowList ++ engine.scans

def isSyncScan (engine : Engine) : RowKind → Bool
  | .scan batchId => engine.sync.scanning batchId
  | _ => false

def recordFailedScan (engine : Engine) (now session : Nat) (direction : Direction) (label : String) :
    Engine :=
  engine.setHistory (engine.history.storeEntry
    (newEntry now (engine.sessionName session) direction label .failed) [])

/-- `record_interrupted` at one row. -/
def recordRow (now : Nat) (engine : Engine) (row : QueueRow) : Engine :=
  if engine.history.recorded row.kind then engine
  else
    engine.setHistory ((engine.history.record row.kind).storeEntry (engine.entryForRow now row)
      (engine.uncountedJobs row.kind))

/-- The rows that are interrupted when the engine stops. -/
def interruptedRows (engine : Engine) : List QueueRow :=
  engine.snapshotRows.filter fun row => !row.isFinished && !engine.isSyncScan row.kind

def recordInterrupted (now : Nat) (engine : Engine) : Engine :=
  let engine := engine.processRowChanges now
  engine.interruptedRows.foldl (recordRow now) engine

end Engine

end Porthmos
