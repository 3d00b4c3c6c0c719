import Mathlib.Data.String.Basic
import Porthmos.OrderedMap

/-!
# The background writer

Callers leave what is to be written in a shared map, one job a path.  A task takes jobs out of the
map, a batch at a time, and writes them; closing the writer, flushing it without a task
and the end of the task write what is still in the map themselves.

Every call and the task take their steps one at a time, and the steps of different ones mix
freely.  The task may be aborted wherever it waits.
-/

namespace Porthmos

/-- `Job`, without the closure that renders the contents. -/
structure LazyJob where
  mode : Nat
  tag : Nat
  version : Nat
  deriving DecidableEq, Repr

/-- A job and the path it is for, as the map and the batches have it. -/
abbrev LazyEntry := String × LazyJob

structure WriteFailure where
  path : String
  message : String
  tag : Nat
  deriving DecidableEq, Repr

/-- Who writes what is pending without the help of the task: `close`, `write_pending_now` (also at
the end of `flush`), or the `RunningMark` of the task when it is dropped. -/
inductive Drain
  | close
  | now
  | mark
  deriving DecidableEq, Repr

/-- A call of the writer or a task of it, and how far it has come. -/
inductive Party
  /-- `write_lazy` has its version and waits for the state. -/
  | issued (entry : LazyEntry)
  /-- The job is pending and `start_task` is about to be called. -/
  | starting (entry : LazyEntry)
  /-- `write_lazy` executes its job itself.  `replaced` says whether it has dropped a pending one. -/
  | direct (entry : LazyEntry) (replaced : Bool)
  /-- `write_lazy` has returned. -/
  | wrote (entry : LazyEntry) (failure : Option String)
  | flushing
  /-- `flush` waits until its sender is used or dropped. -/
  | waiting
  | closing
  /-- The pending jobs are about to be taken. -/
  | draining (drain : Drain)
  | writing (drain : Drain) (left : List LazyEntry)
  | drained (drain : Drain)
  /-- The task has not been polled yet. -/
  | spawned
  | looping
  | selecting
  | takingDue
  | takingAll (closed : Bool) (flushing : List Nat)
  /-- The jobs of a batch that are left.  A batch of everything ends with the answers to the flushes,
  and with the task if the writer is closed. -/
  | batch (left : List LazyEntry) (all : Option (Bool × List Nat))
  /-- The task waits for the blocking thread that executes a job.  `outcome` is there when the
  thread is done. -/
  | awaiting (entry : LazyEntry) (outcome : Option (Option String)) (left : List LazyEntry)
      (all : Option (Bool × List Nat))
  /-- The future of the task is gone, but for its `RunningMark`. -/
  | dropping
  deriving DecidableEq, Repr

/-- `State` and `closed` of the writer, the calls and tasks, the blocking threads nobody waits for,
what was executed and with which outcome, and the failures that were reported. -/
structure Writer where
  pending : OrderedMap String LazyJob
  running : Bool
  flushing : List Nat
  closed : Bool
  nextVersion : Nat
  parties : OrderedMap Nat Party
  nextParty : Nat
  detached : List LazyEntry
  executed : List (LazyEntry × Option String)
  failures : List WriteFailure

/-- What a step depends on besides the state: whether it is taken in a runtime, the paths whose
interval is over if the task wakes up for them, the path whose job comes next, and how that
job ends. -/
structure WriterChoice where
  runtime : Bool
  due : Option (List String)
  path : String
  failure : Option String

namespace Party

/-- The flushes that a task has taken and not answered yet. -/
def senders : Party → List Nat
  | takingAll _ calls | batch _ (some (_, calls)) | awaiting _ _ _ (some (_, calls)) => calls
  | _ => []

/-- A task, until its `RunningMark` is gone. -/
def isTask : Party → Bool
  | spawned | looping | selecting | takingDue | takingAll _ _ | batch _ _ | awaiting _ _ _ _ | dropping
  | draining .mark | writing .mark _ => true
  | _ => false

end Party

namespace Writer

def start : Writer where
  pending := .empty
  running := false
  flushing := []
  closed := false
  nextVersion := 1
  parties := .empty
  nextParty := 0
  detached := []
  executed := []
  failures := []

def setParty (writer : Writer) (id : Nat) (party : Party) : Writer :=
  { writer with parties := writer.parties.insert id party }

def addParty (writer : Writer) (party : Party) : Writer :=
  { writer with
    parties := writer.parties.insert writer.nextParty party
    nextParty := writer.nextParty + 1 }

/-- `write_lazy` is called: its job gets the next version. -/
def writeLazy (writer : Writer) (path : String) (mode tag : Nat) : Writer :=
  { writer.addParty (.issued (path, ⟨mode, tag, writer.nextVersion⟩)) with
    nextVersion := writer.nextVersion + 1 }

/-- `execute`: the job is rendered and written. -/
def execute (writer : Writer) (entry : LazyEntry) (failure : Option String) : Writer :=
  { writer with executed := writer.executed ++ [(entry, failure)] }

/-- `on_failure`, if there is one. -/
def report (writer : Writer) (entry : LazyEntry) (failure : Option String) : Writer :=
  { writer with
    failures := writer.failures ++ (failure.map fun message => ⟨entry.1, message, entry.2.tag⟩).toList }

/-- `write_lazy` with the state locked. -/
def lockedWrite (writer : Writer) (id : Nat) (entry : LazyEntry) (runtime : Bool) : Writer :=
  if writer.closed = false ∧ (writer.running ∨ runtime) then
    { writer with
      running := true
      pending := writer.pending.insert entry.1 entry.2 }.setParty id
      (if writer.running then .wrote entry none else .starting entry)
  else
    { writer with pending := writer.pending.erase entry.1 }.setParty id
      (.direct entry (writer.pending.contains entry.1))

/-- Nobody has the sender of the flush any more. -/
def released (writer : Writer) (id : Nat) : Bool :=
  decide (id ∉ writer.flushing ∧ ∀ party ∈ writer.parties.values, id ∉ party.senders)

/-- A call or the task takes its next step. -/
def advance (writer : Writer) (id : Nat) (choice : WriterChoice) : Writer :=
  match writer.parties.get? id with
  | none => writer
  | some party =>
    match party with
    | .issued entry => writer.lockedWrite id entry choice.runtime
    | .starting entry => (writer.setParty id (.wrote entry none)).addParty .spawned
    | .direct entry _ =>
      (writer.execute entry choice.failure).setParty id (.wrote entry choice.failure)
    | .wrote _ _ => writer
    | .flushing =>
      if writer.running then
        { writer with flushing := writer.flushing ++ [id] }.setParty id .waiting
      else writer.setParty id (.draining .now)
    | .waiting =>
      if writer.released id then
        if writer.running then writer.setParty id (.drained .now)
        else writer.setParty id (.draining .now)
      else writer
    | .closing => { writer with closed := true }.setParty id (.draining .close)
    | .draining drain =>
      { writer with pending := .empty }.setParty id (.writing drain writer.pending.entries)
    | .writing drain left =>
      if left = [] then writer.setParty id (.drained drain)
      else
        match left.find? fun entry => entry.1 = choice.path with
        | none => writer
        | some entry =>
          ((writer.execute entry choice.failure).report entry choice.failure).setParty id
            (.writing drain (left.erase entry))
    | .drained _ => writer
    | .spawned => writer.setParty id .looping
    | .looping =>
      { writer with flushing := [] }.setParty id
        (if writer.closed ∨ writer.flushing ≠ [] then .takingAll writer.closed writer.flushing
        else .selecting)
    | .selecting => writer.setParty id (if choice.due.isSome then .takingDue else .looping)
    | .takingDue =>
      let due := choice.due.getD []
      { writer with
        pending := writer.pending.filterMap fun path job => if path ∈ due then none else some job
        }.setParty id (.batch (writer.pending.entries.filter fun entry => entry.1 ∈ due) none)
    | .takingAll closed flushing =>
      { writer with pending := .empty }.setParty id
        (.batch writer.pending.entries (some (closed, flushing)))
    | .batch left all =>
      if left = [] then
        writer.setParty id (if (all.map Prod.fst).getD false then .dropping else .looping)
      else
        match left.find? fun entry => entry.1 = choice.path with
        | none => writer
        | some entry => writer.setParty id (.awaiting entry none (left.erase entry) all)
    | .awaiting entry outcome left all =>
      match outcome with
      | none => writer
      | some failure => (writer.report entry failure).setParty id (.batch left all)
    | .dropping =>
      { writer with
        running := false
        flushing := [] }.setParty id (.draining .mark)

/-- The blocking thread that a task waits for is done. -/
def finishBlocking (writer : Writer) (id : Nat) (failure : Option String) : Writer :=
  match writer.parties.get? id with
  | some (.awaiting entry none left all) =>
    (writer.execute entry failure).setParty id (.awaiting entry (some failure) left all)
  | _ => writer

/-- A blocking thread that nobody waits for is done. -/
def finishDetached (writer : Writer) (entry : LazyEntry) (failure : Option String) : Writer :=
  if entry ∈ writer.detached then
    { writer with detached := writer.detached.erase entry }.execute entry failure
  else writer

/-- The task is aborted where it waits: its future is dropped with all it holds. -/
def abort (writer : Writer) (id : Nat) : Writer :=
  match writer.parties.get? id with
  | some .spawned => writer.setParty id .dropping
  | some .selecting => writer.setParty id .dropping
  | some (.awaiting entry outcome _ _) =>
    { writer with
      detached := writer.detached ++ if outcome.isNone then [entry] else [] }.setParty id .dropping
  | _ => writer

end Writer

inductive WriterStep
  | writeLazy (path : String) (mode tag : Nat)
  | flush
  | close
  | writePendingNow
  | advance (id : Nat) (choice : WriterChoice)
  | finishBlocking (id : Nat) (failure : Option String)
  | finishDetached (entry : LazyEntry) (failure : Option String)
  | abort (id : Nat)

namespace Writer

def next (writer : Writer) : WriterStep → Writer
  | .writeLazy path mode tag => writer.writeLazy path mode tag
  | .flush => writer.addParty .flushing
  | .close => writer.addParty .closing
  | .writePendingNow => writer.addParty (.draining .now)
  | .advance id choice => writer.advance id choice
  | .finishBlocking id failure => writer.finishBlocking id failure
  | .finishDetached entry failure => writer.finishDetached entry failure
  | .abort id => writer.abort id

def after (writer : Writer) (steps : List WriterStep) : Writer := steps.foldl next writer

end Writer

end Porthmos
