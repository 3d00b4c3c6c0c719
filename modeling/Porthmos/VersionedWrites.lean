import Mathlib.Data.String.Basic
import Porthmos.OrderedMap

/-!
# Versioned writes

A file is written through a temporary file that replaces it.  Two writes of one path take
turns at a lock, which also remembers the highest version that was written, so that an
older version never replaces a newer one.  The locks are kept in a table, and every write
drops from it what nobody uses and no version depends on.

Any number of writes may be under way at a time.  Each takes its steps in order, and the
steps of different ones mix freely.
-/

namespace Porthmos

abbrev Bytes := List UInt8

/-- `Arc<Mutex<u64>>`: the version, who holds the guard, and the number of references. -/
structure PathLock where
  applied : Nat
  holder : Option Nat
  strong : Nat
  deriving DecidableEq, Repr

/-- How `write_locked` ends: the file was written, a newer version was there, or an error. -/
inductive WriteOutcome
  | written
  | skipped
  | failed
  deriving DecidableEq, Repr

/-- How far a write has come.  From `fetched` to `unlocked` it has a reference to the lock, and
from `locked` to `ended` the guard. -/
inductive WriteStage
  | ready
  | fetched (lock : Nat)
  | locked (lock : Nat)
  /-- The parent folder exists. -/
  | entered (lock : Nat)
  /-- The temporary file is open and empty. -/
  | opened (lock : Nat)
  /-- The temporary file holds the contents. -/
  | filled (lock : Nat)
  /-- The temporary file has replaced the file. -/
  | replaced (lock : Nat)
  | ended (lock : Nat) (outcome : WriteOutcome)
  | unlocked (lock : Nat) (outcome : WriteOutcome)
  /-- The reference is dropped and `release_unused_locks` is about to be called. -/
  | dropped (outcome : WriteOutcome)
  /-- The paths of the table that are still to be looked at. -/
  | releasing (outcome : WriteOutcome) (left : List String)
  /-- Nobody else has a reference to the lock of this path, which is now tried. -/
  | checking (outcome : WriteOutcome) (left : List String) (path : String) (lock : Nat)
  | done (outcome : WriteOutcome)
  deriving DecidableEq, Repr

/-- A call of `write_versioned`, or of `write_atomic` if it has no version. -/
structure WriteCall where
  path : String
  contents : Bytes
  version : Option Nat
  stage : WriteStage
  deriving DecidableEq, Repr

/-- Where a file is written before it replaces the one at the path. -/
def tempPath (path : String) : String := path ++ ".tmp"

/-- The lock table `WRITE_LOCKS` and who holds its mutex, the locks, the counter `NEXT_VERSION`, the
files and the calls. -/
structure Persist where
  writeLocks : OrderedMap String Nat
  releasing : Option Nat
  locks : Nat → PathLock
  nextLock : Nat
  nextVersion : Nat
  files : String → Option Bytes
  calls : OrderedMap Nat WriteCall
  nextCall : Nat

namespace Persist

/-- Nothing has been written yet since the program was started. -/
def start (files : String → Option Bytes) : Persist where
  writeLocks := .empty
  releasing := none
  locks := fun _ => ⟨0, none, 0⟩
  nextLock := 0
  nextVersion := 1
  files := files
  calls := .empty
  nextCall := 0

def setLock (persist : Persist) (lock : Nat) (state : PathLock) : Persist :=
  { persist with locks := Function.update persist.locks lock state }

def setFile (persist : Persist) (path : String) (contents : Option Bytes) : Persist :=
  { persist with files := Function.update persist.files path contents }

def setStage (persist : Persist) (id : Nat) (call : WriteCall) (stage : WriteStage) : Persist :=
  { persist with calls := persist.calls.insert id { call with stage } }

/-- A call is made, with the version that `next_version` has handed out for it. -/
def issue (persist : Persist) (path : String) (contents : Bytes) (versioned : Bool) : Persist :=
  { persist with
    calls := persist.calls.insert persist.nextCall
      ⟨path, contents, if versioned then some persist.nextVersion else none, .ready⟩
    nextCall := persist.nextCall + 1
    nextVersion := if versioned then persist.nextVersion + 1 else persist.nextVersion }

/-- `write_lock_for`: a reference to the lock of the path, which is made if there is none. -/
def writeLockFor (persist : Persist) (path : String) : Persist × Nat :=
  match persist.writeLocks.get? path with
  | some lock =>
    let state := persist.locks lock
    (persist.setLock lock { state with strong := state.strong + 1 }, lock)
  | none =>
    let lock := persist.nextLock
    ({ persist.setLock lock ⟨0, none, 2⟩ with
      writeLocks := persist.writeLocks.insert path lock
      nextLock := persist.nextLock + 1 }, lock)

/-- The table forgets a path, and with it its reference to the lock. -/
def forgetLock (persist : Persist) (path : String) (lock : Nat) : Persist :=
  let state := persist.locks lock
  { persist.setLock lock { state with strong := state.strong - 1 } with
    writeLocks := persist.writeLocks.erase path }

/-- An error ends a write after its temporary file is removed. -/
def fail (persist : Persist) (id : Nat) (call : WriteCall) (lock : Nat) : Persist :=
  (persist.setFile (tempPath call.path) none).setStage id call (.ended lock .failed)

/-- A call takes its next step.  `ok` says whether what the step asks of the file system succeeds,
and `path` which path of the table is looked at next. -/
def advance (persist : Persist) (id : Nat) (ok : Bool) (path : String) : Persist :=
  match persist.calls.get? id with
  | none => persist
  | some call =>
    match call.stage with
    | .ready =>
      if persist.releasing.isSome then persist
      else
        let (fetched, lock) := persist.writeLockFor call.path
        fetched.setStage id call (.fetched lock)
    | .fetched lock =>
      let state := persist.locks lock
      if state.holder.isSome then persist
      else (persist.setLock lock { state with holder := some id }).setStage id call (.locked lock)
    | .locked lock =>
      if call.version.any fun version => decide (version ≤ (persist.locks lock).applied) then
        persist.setStage id call (.ended lock .skipped)
      else if ok then persist.setStage id call (.entered lock)
      else persist.setStage id call (.ended lock .failed)
    | .entered lock =>
      if ok then
        (persist.setFile (tempPath call.path) (some [])).setStage id call (.opened lock)
      else persist.fail id call lock
    | .opened lock =>
      if ok then
        (persist.setFile (tempPath call.path) (some call.contents)).setStage id call (.filled lock)
      else persist.fail id call lock
    | .filled lock =>
      if ok then
        ((persist.setFile call.path (persist.files (tempPath call.path))).setFile
          (tempPath call.path) none).setStage id call (.replaced lock)
      else persist.fail id call lock
    | .replaced lock =>
      let state := persist.locks lock
      (persist.setLock lock { state with applied := call.version.getD state.applied }).setStage id
        call (.ended lock .written)
    | .ended lock outcome =>
      let state := persist.locks lock
      (persist.setLock lock { state with holder := none }).setStage id call
        (.unlocked lock outcome)
    | .unlocked lock outcome =>
      let state := persist.locks lock
      (persist.setLock lock { state with strong := state.strong - 1 }).setStage id call
        (.dropped outcome)
    | .dropped outcome =>
      if persist.releasing.isSome then persist
      else
        { persist.setStage id call (.releasing outcome persist.writeLocks.keys) with
          releasing := some id }
    | .releasing outcome left =>
      if left = [] then
        { persist.setStage id call (.done outcome) with releasing := none }
      else if path ∈ left then
        match persist.writeLocks.get? path with
        | none => persist
        | some lock =>
          if 1 < (persist.locks lock).strong then
            persist.setStage id call (.releasing outcome (left.erase path))
          else persist.setStage id call (.checking outcome (left.erase path) path lock)
      else persist
    | .checking outcome left tried lock =>
      let state := persist.locks lock
      if state.holder.isSome ∨ state.applied ≠ 0 then
        persist.setStage id call (.releasing outcome left)
      else (persist.forgetLock tried lock).setStage id call (.releasing outcome left)
    | .done _ => persist

end Persist

inductive PersistStep
  | issue (path : String) (contents : Bytes) (versioned : Bool)
  | advance (id : Nat) (ok : Bool) (path : String)

namespace Persist

def next (persist : Persist) : PersistStep → Persist
  | .issue path contents versioned => persist.issue path contents versioned
  | .advance id ok path => persist.advance id ok path

def after (persist : Persist) (steps : List PersistStep) : Persist := steps.foldl next persist

end Persist

end Porthmos
