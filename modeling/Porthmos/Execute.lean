import Mathlib.Data.List.Basic
import Mathlib.Algebra.Group.Nat.Defs

/-!
# Executing one transfer

`execute_preserving` copies the source into the part file beside the destination
and renames it onto the destination.  The file systems it talks to answer through
`Conditions`: each of their calls succeeds or fails, each read delivers some of
the bytes that are left, and a call that stops early may spoil the end of what it
has written.  Bytes are of any type.
-/

namespace Porthmos

/-- `CHUNK_SIZE` -/
def chunkSize : Nat := 256 * 1024

/-- `PROGRESS_STEP_BYTES` -/
def progressStepBytes : Nat := 64 * 1024

/-- `CLOCK_SKEW_TOLERANCE_SECS` -/
def clockSkewToleranceSecs : Nat := 120

/-- The offset to resume at.  The addition is one of 64-bit numbers. -/
def resumeOffset (partLen sourceLen : Nat) (partModified sourceModified : Option Nat)
    (backoff : Nat) : Nat :=
  match partModified, sourceModified with
  | some partModified, some sourceModified =>
    if sourceLen < partLen ∨
        (partModified + clockSkewToleranceSecs) % 2 ^ 64 < sourceModified then 0
    else partLen - backoff
  | _, _ => 0

theorem resumeOffset_le (partLen sourceLen : Nat) (partModified sourceModified : Option Nat)
    (backoff : Nat) :
    resumeOffset partLen sourceLen partModified sourceModified backoff ≤ partLen - backoff := by
  unfold resumeOffset
  split
  · split_ifs <;> omega
  · omega

variable {byte : Type*}

/-- The contents at the two paths that a transfer writes. -/
structure Side (byte : Type*) where
  destination : Option (List byte)
  part : Option (List byte)
  deriving DecidableEq

/-- How `open_write_sized` ends.  A failing call may have opened the file before
it failed; a successful one grants the requested offset or starts the file anew. -/
inductive Opening
  | failsUntouched
  | failsTouched
  | opens (granted : Bool)
  deriving DecidableEq, Repr

/-- The part file is opened at the offset asked for. -/
def Opening.keepsPart : Opening → Bool
  | .failsTouched | .opens true => true
  | .failsUntouched | .opens false => false

/-- One round of the copy loop. -/
inductive Round
  | cancel
  | readError
  | writeError (read stored : Nat)
  | copy (read : Nat)
  deriving DecidableEq, Repr

/-- How the final rename ends.  A failing one may leave anything at the
destination, and the part file may be gone. -/
inductive Renaming (byte : Type*)
  | succeeds
  | fails (destination : Option (List byte)) (partKept : Bool)

/-- The answers of both file systems to the calls of one transfer.  A stop leaves
all it wrote but the last `backoff` bytes as written. -/
structure Conditions (byte : Type*) (backoff : Nat) where
  sourceStat : Option (Option Nat)
  partStat : Option (Option Nat)
  opening : Opening
  openRead : Bool
  rounds : Nat → Round
  flush : Bool
  shutdown : Bool
  rename : Renaming byte
  setModified : Bool
  stop : List byte → List byte
  stop_keeps : ∀ written, (stop written).take ((stop written).length - backoff) <+: written

/-- The call opens the part file. -/
def Conditions.opensPart {backoff : Nat} (conditions : Conditions byte backoff) : Bool :=
  conditions.sourceStat.isSome && decide (conditions.opening ≠ .failsUntouched)

/-- Where a failing transfer failed. -/
inductive Stage
  | stat
  | openWrite
  | openRead
  | copy
  | shutdown
  | rename
  deriving DecidableEq, Repr

/-- The result of `execute_preserving`. -/
inductive Executed
  | completed (timesKept : Bool)
  | cancelled
  | failed (stage : Stage)
  deriving DecidableEq, Repr

/-! ### Copying -/

inductive CopyResult
  | completed
  | cancelled
  | failed
  deriving DecidableEq, Repr

/-- What the copy loop has done: its result, the bytes it wrote and the progress
it reported. -/
structure Copied (byte : Type*) where
  result : CopyResult
  written : List byte
  reports : List Nat

/-- The number of bytes one read delivers while bytes are left. -/
def chunkLength (read : Nat) (left : List byte) : Nat := max 1 (min read (min chunkSize left.length))

/-- The loop of `copy_with_progress`.  `left` is what the reader has still to
deliver; `fuel` bounds the number of rounds. -/
def copyLoop (rounds : Nat → Round) (flush : Bool) (start : Nat) :
    (fuel round : Nat) → (left written : List byte) → (sinceLastReport : Nat) → Copied byte
  | 0, _, _, written, _ => ⟨.failed, written, []⟩
  | fuel + 1, round, left, written, since =>
    match rounds round, left with
    | .cancel, _ => ⟨.cancelled, written, []⟩
    | .readError, _ => ⟨.failed, written, []⟩
    | _, [] =>
      if flush then ⟨.completed, written, [start + written.length]⟩ else ⟨.failed, written, []⟩
    | .writeError read stored, left =>
      ⟨.failed, written ++ (left.take (chunkLength read left)).take stored, []⟩
    | .copy read, left =>
      let chunk := left.take (chunkLength read left)
      let since := since + chunk.length
      let written := written ++ chunk
      let left := left.drop (chunkLength read left)
      if progressStepBytes ≤ since then
        let rest := copyLoop rounds flush start fuel (round + 1) left written 0
        { rest with reports := (start + written.length) :: rest.reports }
      else copyLoop rounds flush start fuel (round + 1) left written since

/-- `copy_with_progress`, reading `left` and writing from the position `start`. -/
def copyWithProgress (rounds : Nat → Round) (flush : Bool) (start : Nat) (left : List byte) :
    Copied byte :=
  let copied := copyLoop rounds flush start (left.length + 1) 0 left [] 0
  { copied with reports := start :: copied.reports }

/-! ### The transfer -/

/-- What a call of `execute_preserving` leaves behind. -/
structure Call (byte : Type*) where
  result : Executed
  side : Side byte
  reports : List Nat

section Execute

variable {backoff : Nat} (conditions : Conditions byte backoff)

/-- `destination.stat(&part)` as far as it succeeds. -/
def statPart (side : Side byte) : Option (Nat × Option Nat) :=
  match side.part, conditions.partStat with
  | some part, some modified => some (part.length, modified)
  | _, _ => none

/-- The offset the transfer asks for. -/
def requestedOffset (sourceBackoff : Nat) (source : List byte) (side : Side byte)
    (sourceModified : Option Nat) (resume : Bool) : Nat :=
  if resume then
    match statPart conditions side with
    | some (partLen, partModified) =>
      resumeOffset partLen source.length partModified sourceModified (max sourceBackoff backoff)
    | none => 0
  else 0

/-- The part file once it was opened at an offset. -/
def openedPart (side : Side byte) (offset : Nat) : List byte := (side.part.getD []).take offset

/-- `set_len`: the file is cut, or filled up with zeros. -/
def setLen (zero : byte) (length : Nat) (bytes : List byte) : List byte :=
  bytes.take length ++ List.replicate (length - bytes.length) zero

/-- `open_write` of the local file system: the file and the position in it. -/
def localOpenWrite (zero : byte) (part : Option (List byte)) (offset : Nat) : List byte × Nat :=
  (setLen zero offset (part.getD []), offset)

/-- `open_write` of the file system in memory. -/
def fakeOpenWrite (zero : byte) (part : Option (List byte)) (offset : Nat) : List byte × Nat :=
  match part with
  | some bytes => if 0 < offset then (setLen zero offset bytes, offset) else ([], 0)
  | none => ([], 0)

/-- `execute_preserving` from the point where the part file is open. -/
def executeOpened (source : List byte) (side : Side byte) (keepModified : Option Nat)
    (offset : Nat) : Call byte :=
  let kept := openedPart side offset
  if conditions.openRead then
    let copied := copyWithProgress conditions.rounds conditions.flush offset (source.drop offset)
    let written := kept ++ copied.written
    let stopped : Side byte := { side with part := some (conditions.stop written) }
    match copied.result with
    | .failed => ⟨.failed .copy, stopped, copied.reports⟩
    | .cancelled => ⟨.cancelled, stopped, copied.reports⟩
    | .completed =>
      if conditions.shutdown then
        match conditions.rename with
        | .fails destination partKept =>
          ⟨.failed .rename,
            { destination := destination
              part := if partKept then some written else none }, copied.reports⟩
        | .succeeds =>
          ⟨.completed (keepModified.isNone || conditions.setModified),
            { destination := some written, part := none }, copied.reports⟩
      else ⟨.failed .shutdown, stopped, copied.reports⟩
  else ⟨.failed .openRead, { side with part := some (conditions.stop kept) }, []⟩

def executePreserving (sourceBackoff : Nat) (source : List byte) (side : Side byte) (resume : Bool)
    (keepModified : Option Nat) : Call byte :=
  match conditions.sourceStat with
  | none => ⟨.failed .stat, side, []⟩
  | some sourceModified =>
    let requested :=
      requestedOffset conditions sourceBackoff source side sourceModified resume
    match conditions.opening with
    | .failsUntouched => ⟨.failed .openWrite, side, []⟩
    | .failsTouched =>
      ⟨.failed .openWrite,
        { side with part := some (conditions.stop (openedPart side requested)) }, []⟩
    | .opens granted =>
      executeOpened conditions source side keepModified (if granted then requested else 0)

end Execute

/-! ### What copying writes -/

/-- The loop writes a prefix of what is left, and all of it when it completes. -/
theorem copyLoop_written (rounds : Nat → Round) (flush : Bool) (start fuel round : Nat)
    (left written : List byte) (since : Nat) :
    ∃ count, (copyLoop rounds flush start fuel round left written since).written =
        written ++ left.take count ∧
      ((copyLoop rounds flush start fuel round left written since).result = .completed →
        left.take count = left) := by
  induction fuel generalizing round left written since with
  | zero => exact ⟨0, by simp [copyLoop], by simp [copyLoop]⟩
  | succ fuel ih =>
    unfold copyLoop
    cases rounds round with
    | cancel => exact ⟨0, by simp, by simp⟩
    | readError => exact ⟨0, by simp, by simp⟩
    | writeError read stored =>
      cases left with
      | nil => exact ⟨0, by cases flush <;> simp, by simp⟩
      | cons first rest =>
        exact ⟨min stored (chunkLength read (first :: rest)), by simp [List.take_take], by simp⟩
    | copy read =>
      cases left with
      | nil => exact ⟨0, by cases flush <;> simp, by simp⟩
      | cons first rest =>
        have joined (count : Nat) : (first :: rest).take (chunkLength read (first :: rest)) ++
                ((first :: rest).drop (chunkLength read (first :: rest))).take count =
              (first :: rest).take (chunkLength read (first :: rest) + count) :=
          List.take_add.symm
        dsimp only
        split_ifs
        all_goals
          obtain ⟨count, copied, complete⟩ := ih (round + 1)
            ((first :: rest).drop (chunkLength read (first :: rest)))
            (written ++ (first :: rest).take (chunkLength read (first :: rest))) _
          refine ⟨chunkLength read (first :: rest) + count, ?_, fun done => ?_⟩
          · rw [← joined, ← List.append_assoc]
            exact copied
          · rw [← joined, complete done, List.take_append_drop]

end Porthmos
