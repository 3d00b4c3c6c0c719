import Porthmos.Path

/-!
# Transfer jobs

One job copies one file between the local file system and one session.  A job
writes two paths: it stages through its part file and renames that onto its
destination.  `destination` and `partDestination` are the keys the queue
compares them by.
-/

namespace Porthmos

/-- `PART_SUFFIX` -/
def partSuffix : String := ".part"

inductive Direction
  | upload
  | download
  deriving DecidableEq, Repr

inductive JobStatus
  | queued
  | inProgress
  | completed
  | failed (message : String)
  | cancelled
  deriving DecidableEq, Repr

namespace JobStatus

/-- `matches!(status, Queued | InProgress)` -/
def isPending : JobStatus → Bool
  | queued | inProgress => true
  | _ => false

/-- `matches!(status, Failed(_) | Cancelled)` -/
def isInterrupted : JobStatus → Bool
  | failed _ | cancelled => true
  | _ => false

end JobStatus

/-- The key a written path is compared by.  A local path is a `PathBuf`, which
compares by components; a remote path is a string within its session. -/
inductive Destination
  | local (path : List Component)
  | remote (sessionId : Nat) (path : String)
  deriving DecidableEq, Repr

structure TransferJob where
  id : Nat
  sessionId : Nat
  direction : Direction
  localPath : Path
  remotePath : String
  displayName : String
  totalBytes : Nat
  transferredBytes : Nat
  status : JobStatus
  attempts : Nat
  batchId : Option Nat
  resume : Bool
  modified : Option Nat
  deriving DecidableEq, Repr

namespace TransferJob

def partDestination (job : TransferJob) : Destination :=
  match job.direction with
  | .upload => .remote job.sessionId (job.remotePath ++ partSuffix)
  | .download => .local (job.localPath.pushText partSuffix).components

def destination (job : TransferJob) : Destination :=
  match job.direction with
  | .upload => .remote job.sessionId job.remotePath
  | .download => .local job.localPath.components

theorem destination_eq_of_partDestination_eq {first second : TransferJob}
    (same : first.partDestination = second.partDestination) :
    first.destination = second.destination := by
  unfold partDestination at same
  unfold destination
  cases firstDirection : first.direction <;> cases secondDirection : second.direction <;>
    simp only [firstDirection, secondDirection, Destination.remote.injEq, Destination.local.injEq,
      reduceCtorEq] at same ⊢
  · obtain ⟨session, path⟩ := same
    refine ⟨session, ?_⟩
    have lists := congrArg String.toList path
    rw [String.toList_append, String.toList_append] at lists
    exact String.toList_inj.mp (List.append_cancel_right lists)
  · exact Path.components_eq_of_pushText (by decide) (by decide) same

end TransferJob

end Porthmos
