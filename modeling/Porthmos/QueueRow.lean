import Porthmos.TransferJob

/-!
# Rows of the transfer list

A row stands for one batch, for one job outside any batch, or for a scan that
has not produced jobs yet.  The queue keeps the counters of its rows and turns
them into what is shown.
-/

namespace Porthmos

inductive RowKind
  | single (id : Nat)
  | batch (batchId : Nat)
  | scan (batchId : Nat)
  deriving DecidableEq, Repr

inductive RowState
  | scanning
  | awaitingAnswer
  | running
  | queued
  | done
  | partlyFailed (failed : Nat)
  | failed
  | cancelled
  deriving DecidableEq, Repr

structure QueueRow where
  kind : RowKind
  label : String
  direction : Direction
  filesDone : Nat
  filesTotal : Nat
  bytesDone : Nat
  bytesTotal : Nat
  state : RowState
  deriving DecidableEq, Repr

namespace QueueRow

def finishedState : RowState → Bool
  | .done | .partlyFailed _ | .failed | .cancelled => true
  | _ => false

def isFinished (row : QueueRow) : Bool := finishedState row.state

end QueueRow

structure RowCounters where
  kind : RowKind
  label : String
  direction : Direction
  order : List Nat
  queued : Nat
  running : Nat
  completed : Nat
  failed : Nat
  cancelled : Nat
  bytesDone : Nat
  bytesTotal : Nat
  deriving DecidableEq, Repr

namespace RowCounters

def new (kind : RowKind) (label : String) (direction : Direction) : RowCounters where
  kind := kind
  label := label
  direction := direction
  order := []
  queued := 0
  running := 0
  completed := 0
  failed := 0
  cancelled := 0
  bytesDone := 0
  bytesTotal := 0

def total (counters : RowCounters) : Nat :=
  counters.queued + counters.running + counters.completed + counters.failed + counters.cancelled

def finished (counters : RowCounters) : Bool :=
  decide (0 < counters.total ∧ counters.queued = 0 ∧ counters.running = 0)

def state (counters : RowCounters) : RowState :=
  if 0 < counters.running then .running
  else if 0 < counters.queued then .queued
  else if counters.completed = counters.total then .done
  else if counters.failed = 0 then .cancelled
  else if 0 < counters.completed then .partlyFailed counters.failed
  else .failed

def toRow (counters : RowCounters) : QueueRow where
  kind := counters.kind
  label := counters.label
  direction := counters.direction
  filesDone := counters.completed
  filesTotal := counters.total
  bytesDone := counters.bytesDone
  bytesTotal := counters.bytesTotal
  state := counters.state

/-- Change the counter that `slot` points at. -/
def changeSlot (counters : RowCounters) (status : JobStatus) (change : Nat → Nat) : RowCounters :=
  match status with
  | .queued => { counters with queued := change counters.queued }
  | .inProgress => { counters with running := change counters.running }
  | .completed => { counters with completed := change counters.completed }
  | .failed _ => { counters with failed := change counters.failed }
  | .cancelled => { counters with cancelled := change counters.cancelled }

theorem isFinished_toRow {counters : RowCounters} (jobs : 0 < counters.total) :
    counters.toRow.isFinished = counters.finished := by
  unfold QueueRow.isFinished toRow state finished QueueRow.finishedState
  split_ifs <;> simp <;> omega

end RowCounters

end Porthmos
