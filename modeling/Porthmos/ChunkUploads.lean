import Mathlib.Data.List.Infix
import Porthmos.S3Staging

/-!
# Uploads that are sent in pieces

Two writers gather what is written to them and send it piece by piece: one the
parts of an object, one the chunks of a file.  Both are polled; a send may stay
pending for any number of polls, and the next one is not started before it has
succeeded.
-/

namespace Porthmos

/-- What holds of every element of a list together with those before it. -/
def EachAfter {α : Type} (holds : List α → α → Prop) (list : List α) : Prop :=
  ∀ before element after, list = before ++ element :: after → holds before element

theorem eachAfter_nil {α : Type} (holds : List α → α → Prop) : EachAfter holds [] := by
  intro before element after equal
  simp at equal

theorem EachAfter.append_singleton {α : Type} {holds : List α → α → Prop} {list : List α}
    {last : α} (each : EachAfter holds list) (lastHolds : holds list last) :
    EachAfter holds (list ++ [last]) := by
  intro before element after equal
  rcases List.eq_nil_or_concat after with rfl | ⟨initial, final, rfl⟩
  · obtain ⟨rfl, same⟩ := List.append_inj' equal rfl
    obtain rfl : last = element := by simpa using same
    exact lastHolds
  · rw [List.concat_eq_append, ← List.cons_append, ← List.append_assoc] at equal
    exact each before element initial (List.append_inj' equal rfl).1

theorem EachAfter.of_append {α : Type} {holds : List α → α → Prop} {list more : List α}
    (each : EachAfter holds (list ++ more)) : EachAfter holds list := by
  intro before element after equal
  exact each before element (after ++ more) (by simp [equal])

namespace Chunked

inductive Poll (α : Type)
  | pending
  | ready (value : α)

/-- A future of the server's: for how many polls it is pending, and its result. -/
structure Reply (ε : Type) where
  delay : Nat
  result : Except ε Unit

inductive Event
  | started (number : Nat) (data : List UInt8)
  | ended (success : Bool)
  | finishing
  | finished (success : Bool)
  deriving DecidableEq

/-- In what the two writers differ: the size of a piece, by how much a piece of
some length moves the next number, and the last number there is, with the error
behind it. -/
structure Kind (ε : Type) where
  room : Nat
  width : Nat → Nat
  limit : Option (Nat × ε)

/-- A writer, with how its sends will go and what it has done so far. -/
structure ChunkWriter (ε : Type) where
  next : Nat
  fresh : Bool
  sent : Bool
  buffer : List UInt8
  pending : Option (Reply ε)
  finish : Option (Reply ε)
  finishing : Option (Reply ε)
  replies : Nat → Reply ε
  log : List Event

namespace ChunkWriter

variable {ε : Type} (kind : Kind ε)

/-- The writer with its buffer on its way as the next piece. -/
def started (writer : ChunkWriter ε) : ChunkWriter ε :=
  { writer with
    pending := some (writer.replies 0)
    replies := fun index => writer.replies (index + 1)
    buffer := []
    next := writer.next + kind.width writer.buffer.length
    sent := true
    log := writer.log ++ [.started writer.next writer.buffer] }

/-- `start_part`, `start_chunk` -/
def startPart (writer : ChunkWriter ε) : ChunkWriter ε × Except ε Unit :=
  match kind.limit with
  | some (limit, err) =>
    if writer.next > limit then (writer, .error err) else (writer.started kind, .ok ())
  | none => (writer.started kind, .ok ())

def pollPending (writer : ChunkWriter ε) : ChunkWriter ε × Poll (Except ε Unit) :=
  match writer.pending with
  | none => (writer, .ready (.ok ()))
  | some ⟨delay + 1, result⟩ => ({ writer with pending := some ⟨delay, result⟩ }, .pending)
  | some ⟨0, result⟩ =>
    ({ writer with pending := none, log := writer.log ++ [.ended result.isOk] }, .ready result)

def pollWrite (writer : ChunkWriter ε) (bytes : List UInt8) :
    ChunkWriter ε × Poll (Except ε Nat) :=
  match writer.pollPending with
  | (writer, .pending) => (writer, .pending)
  | (writer, .ready (.error err)) => (writer, .ready (.error err))
  | (writer, .ready (.ok ())) =>
    let accepted := min bytes.length (kind.room - writer.buffer.length)
    let writer := { writer with buffer := writer.buffer ++ bytes.take accepted }
    if writer.buffer.length = kind.room then
      match writer.startPart kind with
      | (writer, .error err) => (writer, .ready (.error err))
      | (writer, .ok ()) => (writer, .ready (.ok accepted))
    else (writer, .ready (.ok accepted))

def pollFlush (writer : ChunkWriter ε) : ChunkWriter ε × Poll (Except ε Unit) := writer.pollPending

/-- The end of `poll_shutdown`, where the finish step is under way. -/
def pollFinishing (writer : ChunkWriter ε) : ChunkWriter ε × Poll (Except ε Unit) :=
  match writer.finishing with
  | none => (writer, .ready (.ok ()))
  | some ⟨delay + 1, result⟩ => ({ writer with finishing := some ⟨delay, result⟩ }, .pending)
  | some ⟨0, result⟩ =>
    ({ writer with finishing := none, log := writer.log ++ [.finished result.isOk] },
      .ready result)

def takeFinish (writer : ChunkWriter ε) : ChunkWriter ε × Poll (Except ε Unit) :=
  match writer.finish with
  | some reply =>
    pollFinishing { writer with
      finish := none
      finishing := some reply
      log := writer.log ++ [.finishing] }
  | none => (writer, .ready (.ok ()))

def pollShutdown (writer : ChunkWriter ε) : ChunkWriter ε × Poll (Except ε Unit) :=
  match writer.finishing with
  | some _ => writer.pollFinishing
  | none =>
    match writer.pollPending with
    | (writer, .pending) => (writer, .pending)
    | (writer, .ready (.error err)) => (writer, .ready (.error err))
    | (writer, .ready (.ok ())) =>
      if writer.buffer ≠ [] ∨ (writer.fresh ∧ ¬ writer.sent) then
        match writer.startPart kind with
        | (writer, .error err) => (writer, .ready (.error err))
        | (writer, .ok ()) =>
          match writer.pollPending with
          | (writer, .pending) => (writer, .pending)
          | (writer, .ready (.error err)) => (writer, .ready (.error err))
          | (writer, .ready (.ok ())) => writer.takeFinish
      else writer.takeFinish

end ChunkWriter

/-! ### The two writers -/

/-- A `MultipartWriter` or a `PatchUpload`, as it is made. -/
inductive Made (ε : Type)
  | multipart (firstPart : Nat) (finish : Option (Reply ε)) (tooLarge : ε)
  | patch (start chunk : Nat) (positive : 0 < chunk)

namespace Made

variable {ε : Type}

def kind : Made ε → Kind ε
  | .multipart _ _ tooLarge => ⟨partSize, fun _ => 1, some (maxParts, tooLarge)⟩
  | .patch _ chunk _ => ⟨chunk, fun length => length, none⟩

def first : Made ε → Nat
  | .multipart firstPart _ _ => firstPart
  | .patch start _ _ => start

/-- Whether there is a finish step. -/
def finishes : Made ε → Bool
  | .multipart _ finish _ => finish.isSome
  | .patch _ _ _ => false

/-- `MultipartWriter::new`, `PatchUpload::new` -/
def writer (replies : Nat → Reply ε) : Made ε → ChunkWriter ε
  | .multipart firstPart finish _ =>
    ⟨firstPart, firstPart = 1, false, [], none, finish, none, replies, []⟩
  | .patch start _ _ => ⟨start, false, false, [], none, none, none, replies, []⟩

end Made

/-! ### Runs -/

inductive Call
  | write (bytes : List UInt8)
  | flush
  | shutdown
  deriving DecidableEq

/-- What a call reports; `wrote` is the number of bytes that were taken. -/
inductive Outcome (ε : Type)
  | pending
  | wrote (count : Nat)
  | done
  | failed (err : ε)
  deriving DecidableEq

namespace Outcome

variable {ε : Type}

def ofPoll {α : Type} (report : α → Outcome ε) : Poll (Except ε α) → Outcome ε
  | .pending => .pending
  | .ready (.ok value) => report value
  | .ready (.error err) => .failed err

def isFailed : Outcome ε → Bool
  | .failed _ => true
  | _ => false

end Outcome

section Runs

variable {ε : Type} (kind : Kind ε)

def call (writer : ChunkWriter ε) : Call → ChunkWriter ε × Outcome ε
  | .write bytes =>
    let polled := writer.pollWrite kind bytes
    (polled.1, .ofPoll .wrote polled.2)
  | .flush =>
    let polled := writer.pollFlush
    (polled.1, .ofPoll (fun _ => .done) polled.2)
  | .shutdown =>
    let polled := writer.pollShutdown kind
    (polled.1, .ofPoll (fun _ => .done) polled.2)

/-- The writer after some calls. -/
def after : ChunkWriter ε → List Call → ChunkWriter ε
  | writer, [] => writer
  | writer, next :: calls => after (call kind writer next).1 calls

/-- The calls with what they report. -/
def trace : ChunkWriter ε → List Call → List (Call × Outcome ε)
  | _, [] => []
  | writer, next :: calls =>
    (next, (call kind writer next).2) :: trace (call kind writer next).1 calls

end Runs

/-- The bytes that a call reports as taken. -/
def takenBy {ε : Type} : Call × Outcome ε → List UInt8
  | (.write bytes, .wrote count) => bytes.take count
  | _ => []

def accepted {ε : Type} (calls : List (Call × Outcome ε)) : List UInt8 := calls.flatMap takenBy

/-- Nothing is called after an error, except for one shutdown of a writer without
a finish step. -/
def Obeys {ε : Type} (finishes : Bool) : List (Call × Outcome ε) → Prop
  | [] => True
  | (_, outcome) :: rest =>
    if outcome.isFailed then
      rest = [] ∨ finishes = false ∧ ∃ last, rest = [(.shutdown, last)]
    else Obeys finishes rest

/-- No write follows a shutdown. -/
def NoWriteAfterShutdown : List Call → Prop
  | [] => True
  | .shutdown :: rest => ∀ bytes, .write bytes ∉ rest
  | _ :: rest => NoWriteAfterShutdown rest

/-! ### What was sent -/

def startOf : Event → Option (Nat × List UInt8)
  | .started number data => some (number, data)
  | _ => none

/-- The sends that were started, with their numbers. -/
def starts (log : List Event) : List (Nat × List UInt8) := log.filterMap startOf

def sentData (log : List Event) : List UInt8 := (starts log).flatMap Prod.snd

def Event.isSend : Event → Bool
  | .started _ _ => true
  | .ended _ => true
  | _ => false

/-- No send is under way, and the last one succeeded if there was one. -/
def Ready (log : List Event) : Prop :=
  (log.filter Event.isSend).getLast? = none ∨
    (log.filter Event.isSend).getLast? = some (.ended true)

/-- Every send starts when those before have succeeded. -/
def Chained (log : List Event) : Prop :=
  EachAfter (fun before event => (startOf event).isSome → Ready before) log

section Numbers

variable {ε : Type} (kind : Kind ε)

/-- By how much some sends move the next number. -/
def moved (sends : List (Nat × List UInt8)) : Nat :=
  (sends.map fun send => kind.width send.2.length).sum

/-- The numbers follow each other from the first one on. -/
def Consecutive (first : Nat) (sends : List (Nat × List UInt8)) : Prop :=
  EachAfter (fun before send => send.1 = first + moved kind before) sends

def Within (number : Nat) : Prop := ∀ limit err, kind.limit = some (limit, err) → number ≤ limit

/-- What holds of the sends at any time. -/
structure Proper (first : Nat) (log : List Event) (accepted : List UInt8) : Prop where
  consecutive : Consecutive kind first (starts log)
  chained : Chained log
  within : ∀ send ∈ starts log, Within kind send.1
  content : sentData log <+: accepted

/-- All pieces but the last are of the full size. -/
def FullButLast (log : List Event) : Prop :=
  ∀ send ∈ (starts log).dropLast, send.2.length = kind.room

end Numbers

/-- Everything was sent, with success, and the finish step ran once behind it. -/
structure Complete (finishes : Bool) (log : List Event) (accepted : List UInt8) : Prop where
  content : sentData log = accepted
  ready : Ready log
  finish : ∃ sends : List Event, (∀ event ∈ sends, event.isSend = true) ∧
    log = sends ++ if finishes then [.finishing, .finished true] else []

/-! ### Logs -/

section Logs

variable {log : List Event} {event : Event}

@[simp]
theorem starts_append (log later : List Event) : starts (log ++ later) = starts log ++ starts later :=
  List.filterMap_append

@[simp]
theorem starts_started (number : Nat) (data : List UInt8) :
    starts [.started number data] = [(number, data)] :=
  rfl

@[simp]
theorem starts_ended (success : Bool) : starts [.ended success] = [] :=
  rfl

@[simp]
theorem starts_finishing : starts [.finishing] = [] :=
  rfl

@[simp]
theorem starts_finished (success : Bool) : starts [.finished success] = [] :=
  rfl

theorem ready_ended (log : List Event) : Ready (log ++ [.ended true]) := by
  right
  simp [List.filter_append, Event.isSend]

theorem ready_append_iff (other : event.isSend = false) : Ready (log ++ [event]) ↔ Ready log := by
  simp [Ready, List.filter_append, other]

theorem Chained.append (chained : Chained log) (noStart : startOf event = none) :
    Chained (log ++ [event]) :=
  EachAfter.append_singleton chained fun isStart => by simp [noStart] at isStart

theorem Chained.append_started (chained : Chained log) (ready : Ready log) (number : Nat)
    (data : List UInt8) : Chained (log ++ [.started number data]) :=
  EachAfter.append_singleton chained fun _ => ready

end Logs

/-! ### What a poll does -/

namespace ChunkWriter

variable {ε : Type} {kind : Kind ε} {writer : ChunkWriter ε}

/-- The writer when the send that was under way has succeeded. -/
def settled (writer : ChunkWriter ε) : ChunkWriter ε :=
  match writer.pending with
  | none => writer
  | some _ => { writer with pending := none, log := writer.log ++ [.ended true] }

theorem pollPending_cases (writer : ChunkWriter ε) : (∃ reply, writer.pending.isSome ∧
      writer.pollPending = ({ writer with pending := some reply }, .pending)) ∨
    writer.pollPending = (writer.settled, .ready (.ok ())) ∨
    ∃ err, writer.pending.isSome ∧ writer.pollPending =
      ({ writer with pending := none, log := writer.log ++ [.ended false] },
        .ready (.error err)) := by
  unfold pollPending settled
  cases isPending : writer.pending with
  | none => exact .inr (.inl rfl)
  | some reply =>
    obtain ⟨delay, result⟩ := reply
    cases delay with
    | succ delay => exact .inl ⟨_, rfl, rfl⟩
    | zero =>
      cases result with
      | ok => exact .inr (.inl rfl)
      | error err => exact .inr (.inr ⟨err, rfl, rfl⟩)

theorem startPart_cases (kind : Kind ε) (writer : ChunkWriter ε) :
    (Within kind writer.next ∧ writer.startPart kind = (writer.started kind, .ok ())) ∨
    ∃ limit err, kind.limit = some (limit, err) ∧ limit < writer.next ∧
      writer.startPart kind = (writer, .error err) := by
  unfold startPart
  cases isLimit : kind.limit with
  | none => exact .inl ⟨by simp [Within, isLimit], rfl⟩
  | some bound =>
    obtain ⟨limit, err⟩ := bound
    by_cases above : writer.next > limit
    · exact .inr ⟨limit, err, rfl, above, by simp only [if_pos above]⟩
    · refine .inl ⟨?_, by simp only [if_neg above]⟩
      intro other otherErr same
      rw [isLimit] at same
      cases same
      omega

theorem pollFinishing_cases (writer : ChunkWriter ε) :
    (writer.finishing = none ∧ writer.pollFinishing = (writer, .ready (.ok ()))) ∨
    (∃ reply, writer.finishing.isSome ∧
      writer.pollFinishing = ({ writer with finishing := some reply }, .pending)) ∨
    (writer.finishing.isSome ∧ writer.pollFinishing =
      ({ writer with finishing := none, log := writer.log ++ [.finished true] }, .ready (.ok ()))) ∨
    ∃ err, writer.finishing.isSome ∧ writer.pollFinishing =
      ({ writer with finishing := none, log := writer.log ++ [.finished false] },
        .ready (.error err)) := by
  unfold pollFinishing
  cases isFinishing : writer.finishing with
  | none => exact .inl ⟨rfl, rfl⟩
  | some reply =>
    obtain ⟨delay, result⟩ := reply
    cases delay with
    | succ delay => exact .inr (.inl ⟨_, rfl, rfl⟩)
    | zero =>
      cases result with
      | ok => exact .inr (.inr (.inl ⟨rfl, rfl⟩))
      | error err => exact .inr (.inr (.inr ⟨err, rfl, rfl⟩))

end ChunkWriter

/-! ### Before and after an error -/

section Invariants

variable {ε : Type} (kind : Kind ε) (first : Nat) (finishes : Bool)

/-- What holds of a writer as long as it has reported no error. -/
structure Sound (writer : ChunkWriter ε) (accepted : List UInt8) : Prop where
  consecutive : Consecutive kind first (starts writer.log)
  next : writer.next = first + moved kind (starts writer.log)
  chained : Chained writer.log
  within : ∀ send ∈ starts writer.log, Within kind send.1
  content : sentData writer.log ++ writer.buffer = accepted
  waiting : writer.pending.isSome → writer.buffer = [] ∧ writer.sent = true
  ready : writer.pending = none → Ready writer.log
  unsent : writer.sent = false → starts writer.log = []
  plain : finishes = false → writer.finish = none ∧ writer.finishing = none

/-- What holds of a writer that has reported an error.  Without a finish step a
shutdown sends nothing more. -/
structure Failed (writer : ChunkWriter ε) (accepted : List UInt8) : Prop where
  proper : Proper kind first writer.log accepted
  stuck : finishes = false →
    (writer.finish = none ∧ writer.finishing = none) ∧ writer.pending = none ∧
      ((∃ limit err, kind.limit = some (limit, err) ∧ limit < writer.next) ∨
        writer.buffer = [] ∧ writer.sent = true)

/-- A poll that fails leaves a failed writer, another one a sound writer that has
taken what the poll reports. -/
def Keeps {α : Type} (accepted : List UInt8) (taken : α → List UInt8)
    (polled : ChunkWriter ε × Poll (Except ε α)) : Prop :=
  match polled.2 with
  | .pending => Sound kind first finishes polled.1 accepted
  | .ready (.ok value) => Sound kind first finishes polled.1 (accepted ++ taken value)
  | .ready (.error _) => Failed kind first finishes polled.1 accepted

end Invariants

namespace Sound

variable {ε : Type} {kind : Kind ε} {first : Nat} {finishes : Bool} {writer : ChunkWriter ε}
  {accepted : List UInt8}

theorem proper (sound : Sound kind first finishes writer accepted) :
    Proper kind first writer.log accepted where
  consecutive := sound.consecutive
  chained := sound.chained
  within := sound.within
  content := ⟨writer.buffer, sound.content⟩

theorem wait (sound : Sound kind first finishes writer accepted)
    (isPending : writer.pending.isSome) (reply : Reply ε) :
    Sound kind first finishes { writer with pending := some reply } accepted :=
  { sound with
    waiting := fun _ => sound.waiting isPending
    ready := fun none => by cases none }

theorem settled (sound : Sound kind first finishes writer accepted) :
    Sound kind first finishes writer.settled accepted := by
  unfold ChunkWriter.settled
  cases isPending : writer.pending with
  | none => exact sound
  | some reply =>
    exact {
      consecutive := by simpa using sound.consecutive
      next := by simpa using sound.next
      chained := sound.chained.append rfl
      within := by simpa using sound.within
      content := by simpa [sentData] using sound.content
      waiting := fun isSome => by cases isSome
      ready := fun _ => ready_ended _
      unsent := by simpa using sound.unsent
      plain := sound.plain }

theorem settled_pending (writer : ChunkWriter ε) : writer.settled.pending = none := by
  unfold ChunkWriter.settled
  cases isPending : writer.pending with
  | none => exact isPending
  | some reply => rfl

theorem fail (sound : Sound kind first finishes writer accepted)
    (isPending : writer.pending.isSome) :
    Failed kind first finishes
      { writer with pending := none, log := writer.log ++ [.ended false] } accepted where
  proper := {
    consecutive := by simpa using sound.consecutive
    chained := sound.chained.append rfl
    within := by simpa using sound.within
    content := by simpa [sentData] using sound.proper.content }
  stuck := fun noFinish => ⟨sound.plain noFinish, rfl, .inr (sound.waiting isPending)⟩

theorem take (sound : Sound kind first finishes writer accepted) (isIdle : writer.pending = none)
    (bytes : List UInt8) :
    Sound kind first finishes { writer with buffer := writer.buffer ++ bytes }
      (accepted ++ bytes) :=
  { sound with
    content := by simp [← sound.content]
    waiting := fun isSome => by simp [isIdle] at isSome }

theorem started (sound : Sound kind first finishes writer accepted)
    (isIdle : writer.pending = none) (within : Within kind writer.next) :
    Sound kind first finishes (writer.started kind) accepted where
  consecutive := by
    simp only [ChunkWriter.started, starts_append, starts_started]
    exact EachAfter.append_singleton sound.consecutive sound.next
  next := by
    simp [ChunkWriter.started, moved, sound.next, Nat.add_assoc]
  chained := sound.chained.append_started (sound.ready isIdle) _ _
  within := by
    intro send member
    simp only [ChunkWriter.started, starts_append, starts_started, List.mem_append,
      List.mem_singleton] at member
    rcases member with earlier | rfl
    · exact sound.within send earlier
    · exact within
  content := by
    simpa [ChunkWriter.started, sentData] using sound.content
  waiting := fun _ => ⟨rfl, rfl⟩
  ready := fun none => by cases none
  unsent := fun unsent => by cases unsent
  plain := sound.plain

theorem finishStep {event : Event} (sound : Sound kind first finishes writer accepted)
    (other : event.isSend = false) (hasFinish : finishes = true) (finish finishing : Option (Reply ε)) :
    Sound kind first finishes
      { writer with finish, finishing, log := writer.log ++ [event] } accepted := by
  have noStart : starts [event] = [] := by cases event <;> first | rfl | cases other
  exact {
    consecutive := by simpa [noStart] using sound.consecutive
    next := by simpa [noStart] using sound.next
    chained := sound.chained.append (by cases event <;> first | rfl | cases other)
    within := by simpa [noStart] using sound.within
    content := by simpa [sentData, noStart] using sound.content
    waiting := sound.waiting
    ready := fun isIdle => (ready_append_iff other).mpr (sound.ready isIdle)
    unsent := by simpa [noStart] using sound.unsent
    plain := fun noFinish => by simp [hasFinish] at noFinish }

theorem refuse (sound : Sound kind first finishes writer accepted) (isIdle : writer.pending = none)
    (buffer : List UInt8) (above : ∃ limit err, kind.limit = some (limit, err) ∧ limit < writer.next) :
    Failed kind first finishes { writer with buffer } accepted where
  proper := sound.proper
  stuck := fun noFinish => ⟨sound.plain noFinish, isIdle, .inl above⟩

/-! ### One poll -/

theorem pollWrite (sound : Sound kind first finishes writer accepted) (bytes : List UInt8) :
    Keeps kind first finishes accepted (fun count => bytes.take count)
      (writer.pollWrite kind bytes) := by
  unfold ChunkWriter.pollWrite
  rcases writer.pollPending_cases with ⟨reply, isPending, polled⟩ | polled | ⟨err, isPending, polled⟩
  · rw [polled]
    exact sound.wait isPending reply
  · have isIdle := settled_pending writer
    have taken := sound.settled.take isIdle
      (bytes.take (min bytes.length (kind.room - writer.settled.buffer.length)))
    rw [polled]
    dsimp only
    split_ifs with full
    · rcases ChunkWriter.startPart_cases kind { writer.settled with
        buffer := writer.settled.buffer ++
          bytes.take (min bytes.length (kind.room - writer.settled.buffer.length)) } with
        ⟨within, startEq⟩ | ⟨limit, err, isLimit, above, startEq⟩
      · rw [startEq]
        exact taken.started isIdle within
      · rw [startEq]
        exact sound.settled.refuse isIdle _ ⟨limit, err, isLimit, above⟩
    · exact taken
  · rw [polled]
    exact sound.fail isPending

theorem pollFlush (sound : Sound kind first finishes writer accepted) :
    Keeps kind first finishes accepted (fun _ => []) writer.pollFlush := by
  unfold ChunkWriter.pollFlush
  rcases writer.pollPending_cases with ⟨reply, isPending, polled⟩ | polled | ⟨err, isPending, polled⟩
  · rw [polled]
    exact sound.wait isPending reply
  · rw [polled]
    simpa [Keeps] using sound.settled
  · rw [polled]
    exact sound.fail isPending

theorem pollFinishing (sound : Sound kind first finishes writer accepted)
    (hasFinish : finishes = true) :
    Keeps kind first finishes accepted (fun _ => []) writer.pollFinishing := by
  rcases writer.pollFinishing_cases with ⟨-, polled⟩ | ⟨reply, -, polled⟩ | ⟨-, polled⟩ |
    ⟨err, -, polled⟩
  · rw [polled]
    simpa [Keeps] using sound
  · rw [polled]
    exact { sound with plain := fun noFinish => by simp [hasFinish] at noFinish }
  · rw [polled]
    simpa [Keeps] using sound.finishStep rfl hasFinish writer.finish none
  · rw [polled]
    exact {
      proper :=
        have other : (Event.finished false).isSend = false := rfl
        (sound.finishStep other hasFinish writer.finish none).proper
      stuck := fun noFinish => by simp [hasFinish] at noFinish }

theorem takeFinish (sound : Sound kind first finishes writer accepted) :
    Keeps kind first finishes accepted (fun _ => []) writer.takeFinish := by
  unfold ChunkWriter.takeFinish
  cases isFinish : writer.finish with
  | none => simpa [Keeps] using sound
  | some reply =>
    have hasFinish : finishes = true := by
      by_contra noFinish
      have none := (sound.plain (Bool.eq_false_of_not_eq_true noFinish)).1
      simp [isFinish] at none
    exact (sound.finishStep rfl hasFinish none (some reply)).pollFinishing hasFinish

theorem pollShutdown (sound : Sound kind first finishes writer accepted) :
    Keeps kind first finishes accepted (fun _ => []) (writer.pollShutdown kind) := by
  unfold ChunkWriter.pollShutdown
  cases isFinishing : writer.finishing with
  | some reply =>
    apply sound.pollFinishing
    by_contra noFinish
    have none := (sound.plain (Bool.eq_false_of_not_eq_true noFinish)).2
    simp [isFinishing] at none
  | none =>
    rcases writer.pollPending_cases with ⟨reply, isPending, polled⟩ | polled |
      ⟨err, isPending, polled⟩
    · simp only [polled]
      exact sound.wait isPending reply
    · have isIdle := settled_pending writer
      simp only [polled]
      split_ifs with hasRest
      · rcases ChunkWriter.startPart_cases kind writer.settled with
          ⟨within, startEq⟩ | ⟨limit, err, isLimit, above, startEq⟩
        · have started := sound.settled.started isIdle within
          simp only [startEq]
          rcases (writer.settled.started kind).pollPending_cases with
            ⟨reply, isPending, polled⟩ | polled | ⟨err, isPending, polled⟩
          · simp only [polled]
            exact started.wait isPending reply
          · simp only [polled]
            exact started.settled.takeFinish
          · simp only [polled]
            exact started.fail isPending
        · simp only [startEq]
          exact sound.settled.refuse isIdle _ ⟨limit, err, isLimit, above⟩
      · exact sound.settled.takeFinish
    · simp only [polled]
      exact sound.fail isPending

end Sound

/-! ### Whole runs -/

section Whole

variable {ε : Type} {kind : Kind ε} {first : Nat} {finishes : Bool} {writer : ChunkWriter ε}
  {bytes : List UInt8}

/-- What a poll reports as taken. -/
def gained {α : Type} (taken : α → List UInt8) : Poll (Except ε α) → List UInt8
  | .ready (.ok value) => taken value
  | _ => []

theorem Keeps.sound {α : Type} {taken : α → List UInt8} {report : α → Outcome ε}
    {polled : ChunkWriter ε × Poll (Except ε α)}
    (keeps : Keeps kind first finishes bytes taken polled)
    (works : (Outcome.ofPoll report polled.2).isFailed = false) :
    Sound kind first finishes polled.1 (bytes ++ gained taken polled.2) := by
  obtain ⟨after, poll⟩ := polled
  cases poll with
  | pending => simpa [gained, Keeps] using keeps
  | ready result =>
    cases result with
    | ok value => exact keeps
    | error err => cases works

theorem Keeps.failed {α : Type} {taken : α → List UInt8} {report : α → Outcome ε}
    {polled : ChunkWriter ε × Poll (Except ε α)}
    (keeps : Keeps kind first finishes bytes taken polled)
    (reports : ∀ value, (report value).isFailed = false)
    (fails : (Outcome.ofPoll report polled.2).isFailed = true) :
    Failed kind first finishes polled.1 bytes := by
  obtain ⟨after, poll⟩ := polled
  cases poll with
  | pending => cases fails
  | ready result =>
    cases result with
    | ok value =>
      rw [Outcome.ofPoll, reports value] at fails
      cases fails
    | error err => exact keeps

@[simp]
theorem gained_none {α : Type} (poll : Poll (Except ε α)) : gained (fun _ => []) poll = [] := by
  unfold gained
  split <;> rfl

theorem takenBy_write (more : List UInt8) (poll : Poll (Except ε Nat)) :
    takenBy (.write more, .ofPoll .wrote poll) = gained (fun count => more.take count) poll := by
  cases poll with
  | pending => rfl
  | ready result => cases result <;> rfl

theorem takenBy_shutdown (outcome : Outcome ε) : takenBy (.shutdown, outcome) = [] :=
  rfl

theorem takenBy_failed (next : Call) {outcome : Outcome ε} (fails : outcome.isFailed = true) :
    takenBy (next, outcome) = [] := by
  cases outcome with
  | failed err => cases next <;> rfl
  | pending => cases fails
  | wrote count => cases fails
  | done => cases fails

theorem Sound.call (sound : Sound kind first finishes writer bytes) {next : Call}
    (works : (call kind writer next).2.isFailed = false) :
    Sound kind first finishes (call kind writer next).1
      (bytes ++ takenBy (next, (call kind writer next).2)) := by
  cases next with
  | write more =>
    have after := (sound.pollWrite more).sound works
    rwa [← takenBy_write] at after
  | flush => simpa [takenBy, Chunked.call] using sound.pollFlush.sound works
  | shutdown => simpa [takenBy, Chunked.call] using sound.pollShutdown.sound works

theorem Sound.failedCall (sound : Sound kind first finishes writer bytes) {next : Call}
    (fails : (Chunked.call kind writer next).2.isFailed = true) :
    Failed kind first finishes (Chunked.call kind writer next).1 bytes := by
  cases next with
  | write more => exact (sound.pollWrite more).failed (fun _ => rfl) fails
  | flush => exact sound.pollFlush.failed (fun _ => rfl) fails
  | shutdown => exact sound.pollShutdown.failed (fun _ => rfl) fails

theorem Failed.shutdown (failed : Failed kind first finishes writer bytes)
    (noFinish : finishes = false) : (writer.pollShutdown kind).1.log = writer.log := by
  obtain ⟨⟨noStep, notFinishing⟩, isIdle, stuck⟩ := failed.stuck noFinish
  have polled : writer.pollPending = (writer, .ready (.ok ())) := by
    simp [ChunkWriter.pollPending, isIdle]
  have taken : writer.takeFinish = (writer, .ready (.ok ())) := by
    simp [ChunkWriter.takeFinish, noStep]
  unfold ChunkWriter.pollShutdown
  rw [notFinishing]
  simp only [polled]
  split_ifs with hasRest
  · obtain ⟨limit, err, isLimit, above⟩ | ⟨isEmpty, isSent⟩ := stuck
    · simp [ChunkWriter.startPart, isLimit, above]
    · simp [isEmpty, isSent] at hasRest
  · rw [taken]

theorem Failed.after_log (failed : Failed kind first finishes writer bytes) {calls : List Call}
    (last : trace kind writer calls = [] ∨
      finishes = false ∧ ∃ outcome, trace kind writer calls = [(.shutdown, outcome)]) :
    (after kind writer calls).log = writer.log ∧ accepted (trace kind writer calls) = [] := by
  rcases last with none | ⟨noFinish, outcome, isShutdown⟩
  · cases calls with
    | nil => exact ⟨rfl, rfl⟩
    | cons next calls => cases none
  · cases calls with
    | nil => cases isShutdown
    | cons next calls =>
      cases calls with
      | nil =>
        simp only [trace, List.cons.injEq, Prod.mk.injEq, and_true] at isShutdown
        obtain ⟨rfl, -⟩ := isShutdown
        exact ⟨failed.shutdown noFinish, rfl⟩
      | cons third calls => simp [trace] at isShutdown

theorem Sound.run {calls : List Call} (sound : Sound kind first finishes writer bytes)
    (obeys : Obeys finishes (trace kind writer calls)) :
    Proper kind first (after kind writer calls).log
      (bytes ++ accepted (trace kind writer calls)) := by
  induction calls generalizing writer bytes with
  | nil => simpa [after, trace, accepted] using sound.proper
  | cons next calls ih =>
    rw [trace, Obeys] at obeys
    split_ifs at obeys with fails
    · have failed := sound.failedCall fails
      obtain ⟨sameLog, noMore⟩ := failed.after_log obeys
      rw [after, sameLog, trace, accepted, List.flatMap_cons, takenBy_failed next fails, ← accepted,
        noMore, List.append_nil, List.append_nil]
      exact failed.proper
    · have works := Bool.eq_false_of_not_eq_true fails
      have whole := ih (sound.call works) obeys
      rwa [List.append_assoc] at whole

theorem Sound.after {calls : List Call} (sound : Sound kind first finishes writer bytes)
    (works : ∀ entry ∈ trace kind writer calls, entry.2.isFailed = false) :
    Sound kind first finishes (after kind writer calls)
      (bytes ++ accepted (trace kind writer calls)) := by
  induction calls generalizing writer bytes with
  | nil => simpa [Chunked.after, trace, accepted] using sound
  | cons next calls ih =>
    rw [trace, List.forall_mem_cons] at works
    have whole := ih (sound.call works.1) works.2
    rwa [List.append_assoc] at whole

end Whole

end Chunked

end Porthmos
