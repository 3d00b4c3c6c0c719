import Porthmos.ScpReader

/-!
# Uploads over a shell

What is written goes through a pipe to a task, and the task sends it on the channel of a remote
`scp`.  Behind the content stands a zero byte, which tells the server that the file is complete, and
the server replies to it and exits.  The writer is polled; between its polls the task goes on.
-/

namespace Porthmos

namespace ScpStreams

/-- `SEND_PIECE` -/
def sendPiece : Nat := 16 * 1024

/-- The room of the pipe, of which the source has no name. -/
def pipeRoom : Nat := chunk * 4

/-- Where `pump` waits.  While it sends, it has the bytes that it has read and not yet sent, and the
number of bytes that are sent behind them. -/
inductive Phase
  | reading (sent : Nat)
  | sending (unsent : List UInt8) (next : Nat)
  | failing
  | mismatched
  | terminating
  | replying
  | closing
  | leaving
  | ended (result : Except StreamError Unit)

/-- What becomes of that for which the task waits: `more` and `partly` count the bytes that are read
beyond the first and those that a failing send has sent, and `output` is what the server replies. -/
inductive TaskEvent
  | reads (more : Nat)
  | sends
  | sendFails (partly : Nat) (late : Bool)
  | replies (output : List UInt8)
  | closes
  | closeFails
  | exits (status : Option Nat) (stderr : List UInt8)
  | expires
  | cancelled

/-- Where the future of `poll_shutdown` stands; an ended one must not be polled. -/
inductive Finishing
  | awaiting
  | ended
  deriving DecidableEq

/-- What a poll tells; a future that is polled behind its end panics. -/
inductive Told
  | pending
  | wrote (count : Nat)
  | done
  | failed (err : StreamError)
  | panicked
  deriving DecidableEq

/-- A writer with its pipe, its task and the channel.  The input is what was sent on the channel,
the reply and the exit status are those for which the task has waited. -/
structure Upload where
  pipe : List UInt8
  pipeClosed : Bool
  phase : Phase
  expected : Option Nat
  input : List UInt8
  reply : Option (List UInt8)
  exit : Option Nat
  joined : Bool
  hasPipe : Bool
  hasTask : Bool
  limit : Option Nat
  written : Nat
  finishing : Option Finishing

namespace Upload

/-- `ChannelWriter::new` -/
def new (expected : Option Nat) : Upload where
  pipe := []
  pipeClosed := false
  phase := .reading 0
  expected := expected
  input := []
  reply := none
  exit := none
  joined := false
  hasPipe := true
  hasTask := true
  limit := expected
  written := 0
  finishing := none

/-! ### The task -/

def ends (upload : Upload) (result : Except StreamError Unit) : Upload :=
  { upload with phase := .ended result }

/-- The end of the pipe is read. -/
def atEnd (upload : Upload) (sent : Nat) : Upload :=
  match upload.expected with
  | some size => { upload with phase := if sent ≠ size then .mismatched else .terminating }
  | none => { upload with phase := .closing }

/-- A step of `pump`; what is not waited for changes nothing. -/
def pump (upload : Upload) (event : TaskEvent) : Upload :=
  match upload.phase, event with
  | .ended _, _ => upload
  | _, .cancelled => upload.ends (.error (.broken "cancelled"))
  | .reading sent, .reads more =>
    if upload.pipe = [] then if upload.pipeClosed then upload.atEnd sent else upload
    else
      let piece := upload.pipe.take (min (more + 1) chunk)
      { upload with
        pipe := upload.pipe.drop piece.length
        phase := .sending piece (sent + piece.length) }
  | .sending unsent next, .sends =>
    let rest := unsent.drop sendPiece
    { upload with
      input := upload.input ++ unsent.take sendPiece
      phase := if rest = [] then .reading next else .sending rest next }
  | .sending unsent _, .sendFails partly late =>
    { upload with
      input := upload.input ++ (unsent.take sendPiece).take partly
      phase := if late then .ended (.error .timedOut) else .failing }
  | .failing, .exits status stderr =>
    match checkedExit status stderr with
    | .error err => upload.ends (.error err)
    | .ok () => upload.ends (.error .earlyEnd)
  | .failing, .expires => upload.ends (.error .timedOut)
  | .mismatched, .exits _ _ => upload.ends (.error .sizeChanged)
  | .terminating, .sends => { upload with input := upload.input ++ [0], phase := .replying }
  | .terminating, .sendFails partly _ =>
    { upload with
      input := upload.input ++ [0].take partly
      phase := .ended (.error (.broken "send")) }
  | .replying, .replies output =>
    match readReply output with
    | .error err => { upload with reply := some output, phase := .ended (.error err) }
    | .ok () => { upload with reply := some output, phase := .closing }
  | .closing, .closes => { upload with phase := .leaving }
  | .closing, .closeFails => upload.ends (.error (.broken "close"))
  | .leaving, .exits status stderr =>
    { upload with exit := status, phase := .ended (checkedExit status stderr) }
  | _, _ => upload

/-! ### The writer -/

def pollFailure (upload : Upload) : Upload × Told :=
  if upload.hasTask then
    match upload.phase with
    | .ended result =>
      if upload.joined then
        ({ upload with hasTask := false },
          match result with
          | .ok () => .failed .earlyEnd
          | .error err => .failed err)
      else (upload, .pending)
    | _ => (upload, .pending)
  else (upload, .failed .earlyEnd)

def hasEnded (upload : Upload) : Bool :=
  match upload.phase with
  | .ended _ => true
  | _ => false

def pollWrite (upload : Upload) (bytes : List UInt8) : Upload × Told :=
  if (upload.limit.any fun limit => upload.written + bytes.length > limit) then
    (upload, .failed .sizeChanged)
  else if upload.hasTask ∧ upload.joined then upload.pollFailure
  else if ¬ upload.hasPipe then (upload, .failed .earlyEnd)
  else if upload.hasEnded then upload.pollFailure
  else if pipeRoom ≤ upload.pipe.length then (upload, .pending)
  else
    let count := min (pipeRoom - upload.pipe.length) bytes.length
    ({ upload with
      pipe := upload.pipe ++ bytes.take count
      written := upload.written + count }, .wrote count)

/-- The pipe is always flushed. -/
def pollFlush (upload : Upload) : Upload × Told := (upload, .done)

/-- The future of `poll_shutdown` once the pipe is shut down; `expired` is the end of its time. -/
def pollFinishing (upload : Upload) (expired : Bool) : Upload × Told :=
  match upload.phase with
  | .ended result =>
    if upload.joined then
      ({ upload with finishing := some .ended },
        match result with
        | .ok () => .done
        | .error err => .failed err)
    else if expired then ({ upload with finishing := some .ended }, .failed .timedOut)
    else (upload, .pending)
  | _ =>
    if expired then ({ upload with finishing := some .ended }, .failed .timedOut)
    else (upload, .pending)

def pollShutdown (upload : Upload) (expired : Bool) : Upload × Told :=
  match upload.finishing with
  | some .ended => (upload, .panicked)
  | some .awaiting => upload.pollFinishing expired
  | none =>
    let shut := { upload with pipeClosed := true, hasPipe := false, hasTask := false }
    if upload.hasTask then pollFinishing { shut with finishing := some .awaiting } expired
    else ({ shut with finishing := some .ended }, .done)

end Upload

/-! ### Runs -/

/-- What happens: calls of the writer, among them that it is dropped, steps of the task, and that
its end is known. -/
inductive Move
  | write (bytes : List UInt8)
  | flush
  | shutdown (expired : Bool)
  | drop
  | task (event : TaskEvent)
  | join

namespace Upload

def move (upload : Upload) : Move → Upload × Option Told
  | .write bytes => ((upload.pollWrite bytes).1, some (upload.pollWrite bytes).2)
  | .flush => (upload.pollFlush.1, some upload.pollFlush.2)
  | .shutdown expired => ((upload.pollShutdown expired).1, some (upload.pollShutdown expired).2)
  | .drop => ({ upload with pipeClosed := true, hasPipe := false }, none)
  | .task event => (upload.pump event, none)
  | .join => ({ upload with joined := upload.joined || upload.hasEnded }, none)

/-- An upload after some moves. -/
def after : Upload → List Move → Upload
  | upload, [] => upload
  | upload, next :: moves => after (upload.move next).1 moves

/-- The moves with what they tell. -/
def trace : Upload → List Move → List (Move × Option Told)
  | _, [] => []
  | upload, next :: moves => (next, (upload.move next).2) :: trace (upload.move next).1 moves

end Upload

/-- The bytes that a write takes. -/
def takenBy : Move × Option Told → List UInt8
  | (.write bytes, some (.wrote count)) => bytes.take count
  | _ => []

def accepted (told : List (Move × Option Told)) : List UInt8 := told.flatMap takenBy

def Failed (told : Move × Option Told) : Prop := ∃ err, told.2 = some (.failed err)

/-! ### What was sent -/

section Sound

variable (size : Nat)

/-- All that was written is sent, as much as is expected, and behind it a zero byte. -/
def Complete (written input : List UInt8) : Prop := input = written ++ [0] ∧ written.length = size

/-- What the task has sent, in each place where it waits. -/
def Holds (written : List UInt8) (upload : Upload) : Prop :=
  match upload.phase with
  | .reading sent => upload.input ++ upload.pipe = written ∧ sent = upload.input.length
  | .sending unsent next =>
    upload.input ++ unsent ++ upload.pipe = written ∧ next = upload.input.length + unsent.length
  | .failing | .mismatched => upload.input <+: written
  | .terminating => upload.pipeClosed = true ∧ upload.input = written ∧ written.length = size
  | .replying => upload.pipeClosed = true ∧ Complete size written upload.input
  | .closing | .leaving =>
    upload.pipeClosed = true ∧ Complete size written upload.input ∧
      ∃ reply, upload.reply = some reply ∧ reply.head? = some 0
  | .ended (.ok ()) =>
    upload.pipeClosed = true ∧ Complete size written upload.input ∧
      (∃ reply, upload.reply = some reply ∧ reply.head? = some 0) ∧ upload.exit = some 0
  | .ended (.error _) =>
    upload.input <+: written ∨ upload.pipeClosed = true ∧ Complete size written upload.input

/-- What holds of an upload behind some moves. -/
structure Sound (upload : Upload) (told : List (Move × Option Told)) : Prop where
  expected : upload.expected = some size
  limit : upload.limit = some size
  written : upload.written = (accepted told).length
  inLimit : upload.written ≤ size
  closed : upload.pipeClosed = true → upload.hasPipe = false
  holds : Holds size (accepted told) upload
  task : (∀ outcome ∈ told, ¬ Failed outcome) → upload.finishing = none → upload.hasTask = true

variable {size}

theorem accepted_append (told : List (Move × Option Told)) (next : Move × Option Told) :
    accepted (told ++ [next]) = accepted told ++ takenBy next := by
  simp [accepted]

theorem accepted_append_none (told : List (Move × Option Told)) (move : Move) :
    accepted (told ++ [(move, none)]) = accepted told := by
  rw [accepted_append]
  cases move <;> exact List.append_nil _

theorem prefix_of_holds {written : List UInt8} {upload : Upload} (holds : Holds size written upload) :
    upload.input <+: written ∨ upload.pipeClosed = true ∧ Complete size written upload.input := by
  unfold Holds at holds
  split at holds
  · exact .inl ⟨_, holds.1⟩
  · exact .inl ⟨_, (List.append_assoc _ _ _).symm.trans holds.1⟩
  · exact .inl holds
  · exact .inl holds
  · exact .inl (holds.2.1 ▸ List.prefix_rfl)
  · exact .inr holds
  · exact .inr ⟨holds.1, holds.2.1⟩
  · exact .inr ⟨holds.1, holds.2.1⟩
  · exact .inr ⟨holds.1, holds.2.1⟩
  · exact holds

theorem holds_ends {written : List UInt8} {upload : Upload} (holds : Holds size written upload)
    (err : StreamError) : Holds size written (upload.ends (.error err)) := by
  have sent := prefix_of_holds holds
  exact sent

theorem holds_atEnd {written : List UInt8} {upload : Upload} {sent : Nat}
    (expected : upload.expected = some size) (closed : upload.pipeClosed = true)
    (all : upload.input = written) (isSent : sent = upload.input.length) :
    Holds size written (upload.atEnd sent) := by
  unfold Upload.atEnd
  rw [expected]
  dsimp only
  split_ifs with differs
  · exact all ▸ List.prefix_rfl
  · exact ⟨closed, all, by rw [← all, ← isSent, not_not.mp differs]⟩

/-- A step of the task. -/
theorem holds_pump {written : List UInt8} {upload : Upload} (expected : upload.expected = some size)
    (holds : Holds size written upload) (event : TaskEvent) :
    Holds size written (upload.pump event) := by
  have sofar := holds
  unfold Holds at sofar
  unfold Upload.pump
  split
  next => exact holds
  next => exact holds_ends holds _
  next sent more phase =>
    rw [phase] at sofar
    obtain ⟨all, isSent⟩ := sofar
    split_ifs with isEmpty closed
    · rw [isEmpty, List.append_nil] at all
      exact holds_atEnd expected closed all isSent
    · exact holds
    · refine ⟨?_, congrArg (· + _) isSent⟩
      rw [← all, List.append_assoc]
      exact congrArg _ (List.prefix_iff_eq_append.mp (List.take_prefix _ _))
  next unsent sent phase =>
    rw [phase] at sofar
    obtain ⟨all, isSent⟩ := sofar
    have split := List.take_append_drop sendPiece unsent
    have length := congrArg List.length split
    rw [List.length_append] at length
    dsimp only
    split_ifs with isEmpty
    · rw [isEmpty, List.append_nil] at split
      rw [isEmpty, List.length_nil] at length
      refine ⟨?_, ?_⟩
      · dsimp only
        rw [split, all]
      · dsimp only
        rw [List.length_append]
        omega
    · refine ⟨?_, ?_⟩
      · dsimp only
        rw [List.append_assoc upload.input, split, all]
      · dsimp only
        rw [List.length_append]
        omega
  next unsent sent partly late phase =>
    rw [phase] at sofar
    obtain ⟨all, isSent⟩ := sofar
    have begun : upload.input ++ (unsent.take sendPiece).take partly <+: written := by
      rw [← all, List.append_assoc, List.prefix_append_right_inj]
      exact ((List.take_prefix _ _).trans (List.take_prefix _ _)).trans (List.prefix_append _ _)
    cases late with
    | true => exact .inl begun
    | false => exact begun
  next status stderr phase =>
    cases checkedExit status stderr with
    | error err => exact holds_ends holds err
    | ok done => exact holds_ends holds _
  next => exact holds_ends holds _
  next => exact holds_ends holds _
  next phase =>
    rw [phase] at sofar
    obtain ⟨closed, all, length⟩ := sofar
    exact ⟨closed, all ▸ rfl, length⟩
  next partly late phase =>
    rw [phase] at sofar
    obtain ⟨closed, all, length⟩ := sofar
    cases partly with
    | zero => exact .inl (by simp [all])
    | succ partly => exact .inr ⟨closed, by simp [all], length⟩
  next output phase =>
    rw [phase] at sofar
    obtain ⟨closed, complete⟩ := sofar
    cases isReply : readReply output with
    | error err => exact .inr ⟨closed, complete⟩
    | ok done => exact ⟨closed, complete, output, rfl, readReply_eq_ok.mp isReply⟩
  next phase =>
    rw [phase] at sofar
    exact sofar
  next => exact holds_ends holds _
  next status stderr phase =>
    rw [phase] at sofar
    obtain ⟨closed, complete, replied⟩ := sofar
    cases isExit : checkedExit status stderr with
    | error err => exact .inr ⟨closed, complete⟩
    | ok done => exact ⟨closed, complete, replied, checkedExit_eq_ok.mp isExit⟩
  next => exact holds

/-- What the task leaves as it is. -/
structure SameWriter (upload after : Upload) : Prop where
  pipeClosed : after.pipeClosed = upload.pipeClosed
  expected : after.expected = upload.expected
  hasPipe : after.hasPipe = upload.hasPipe
  hasTask : after.hasTask = upload.hasTask
  limit : after.limit = upload.limit
  written : after.written = upload.written
  finishing : after.finishing = upload.finishing

theorem sameWriter_pump (upload : Upload) (event : TaskEvent) :
    SameWriter upload (upload.pump event) := by
  unfold Upload.pump Upload.atEnd Upload.ends
  split <;> repeat' (first | exact ⟨rfl, rfl, rfl, rfl, rfl, rfl, rfl⟩ | split)

/-- A poll of the writer for which the task has nothing to do. -/
theorem holds_of_same {written : List UInt8} {upload after : Upload}
    (holds : Holds size written upload) (phase : after.phase = upload.phase)
    (input : after.input = upload.input) (pipe : after.pipe = upload.pipe)
    (reply : after.reply = upload.reply) (exit : after.exit = upload.exit)
    (closed : upload.pipeClosed = true → after.pipeClosed = true) :
    Holds size written after := by
  unfold Holds at *
  rw [phase, input, pipe, reply, exit]
  generalize upload.phase = place at holds ⊢
  cases place with
  | reading sent => exact holds
  | sending unsent next => exact holds
  | failing => exact holds
  | mismatched => exact holds
  | terminating => exact ⟨closed holds.1, holds.2⟩
  | replying => exact ⟨closed holds.1, holds.2⟩
  | closing => exact ⟨closed holds.1, holds.2⟩
  | leaving => exact ⟨closed holds.1, holds.2⟩
  | ended result =>
    cases result with
    | ok done => exact ⟨closed holds.1, holds.2⟩
    | error err => exact holds.imp_right fun sent => ⟨closed sent.1, sent.2⟩

/-- Bytes that are taken go into the pipe, which is open. -/
theorem holds_write {written : List UInt8} {upload : Upload} (holds : Holds size written upload)
    (isOpen : upload.pipeClosed = false) (bytes : List UInt8) (total : Nat) :
    Holds size (written ++ bytes)
      { upload with pipe := upload.pipe ++ bytes, written := total } := by
  have notClosed : upload.pipeClosed ≠ true := by simp [isOpen]
  unfold Holds at *
  dsimp only
  generalize upload.phase = place at holds ⊢
  cases place with
  | reading sent => exact ⟨by rw [← holds.1, List.append_assoc], holds.2⟩
  | sending unsent next => exact ⟨by rw [← holds.1, ← List.append_assoc], holds.2⟩
  | failing => exact holds.trans (List.prefix_append _ _)
  | mismatched => exact holds.trans (List.prefix_append _ _)
  | terminating => exact (notClosed holds.1).elim
  | replying => exact (notClosed holds.1).elim
  | closing => exact (notClosed holds.1).elim
  | leaving => exact (notClosed holds.1).elim
  | ended result =>
    cases result with
    | ok done => exact (notClosed holds.1).elim
    | error err =>
      rcases holds with begun | ⟨closed, -⟩
      · exact .inl (begun.trans (List.prefix_append _ _))
      · exact (notClosed closed).elim

/-! ### Steps of a run -/

/-- What no poll of the writer changes, except that it may shut the pipe. -/
structure SameSending (upload after : Upload) : Prop where
  phase : after.phase = upload.phase
  input : after.input = upload.input
  pipe : after.pipe = upload.pipe
  reply : after.reply = upload.reply
  exit : after.exit = upload.exit
  expected : after.expected = upload.expected
  limit : after.limit = upload.limit
  written : after.written = upload.written
  closed : upload.pipeClosed = true → after.pipeClosed = true

theorem SameSending.refl (upload : Upload) : SameSending upload upload :=
  ⟨rfl, rfl, rfl, rfl, rfl, rfl, rfl, rfl, id⟩

theorem not_failed_left {told : List (Move × Option Told)} {next : Move × Option Told}
    (noError : ∀ outcome ∈ told ++ [next], ¬ Failed outcome) : ∀ outcome ∈ told, ¬ Failed outcome :=
  fun outcome member => noError outcome (List.mem_append_left _ member)

section Steps

variable {upload after : Upload} {told : List (Move × Option Told)}
  (sound : Sound size upload told)

include sound

theorem Sound.quiet {next : Move × Option Told} (takes : takenBy next = [])
    (same : SameSending upload after) (closed : after.pipeClosed = true → after.hasPipe = false)
    (task : (∀ outcome ∈ told ++ [next], ¬ Failed outcome) → after.finishing = none →
      after.hasTask = true) : Sound size after (told ++ [next]) := by
  have accepts : accepted (told ++ [next]) = accepted told := by
    rw [accepted_append, takes, List.append_nil]
  exact {
    expected := same.expected.trans sound.expected
    limit := same.limit.trans sound.limit
    written := by rw [same.written, accepts, sound.written]
    inLimit := same.written ▸ sound.inLimit
    closed
    holds := by
      rw [accepts]
      exact holds_of_same sound.holds same.phase same.input same.pipe same.reply same.exit same.closed
    task }

theorem Sound.task_step (event : TaskEvent) :
    Sound size (upload.pump event) (told ++ [(.task event, none)]) := by
  have same := sameWriter_pump upload event
  exact {
    expected := same.expected.trans sound.expected
    limit := same.limit.trans sound.limit
    written := by rw [same.written, accepted_append_none, sound.written]
    inLimit := same.written ▸ sound.inLimit
    closed := by rw [same.pipeClosed, same.hasPipe]; exact sound.closed
    holds := by
      rw [accepted_append_none]
      exact holds_pump sound.expected sound.holds event
    task := by
      rw [same.finishing, same.hasTask]
      exact fun noError => sound.task (not_failed_left noError) }

/-- The task is taken only together with an error. -/
theorem Sound.failure (bytes : List UInt8) : Sound size upload.pollFailure.1
    (told ++ [(.write bytes, some upload.pollFailure.2)]) := by
  have same : Sound size upload (told ++ [(.write bytes, some .pending)]) :=
    sound.quiet rfl (.refl upload) sound.closed fun noError => sound.task (not_failed_left noError)
  unfold Upload.pollFailure
  split
  next hasTask =>
    split
    next result _ =>
      split
      next joined =>
        cases result with
        | ok done =>
          refine sound.quiet rfl ⟨rfl, rfl, rfl, rfl, rfl, rfl, rfl, rfl, id⟩ sound.closed ?_
          exact fun noError => (noError _ List.mem_concat_self ⟨_, rfl⟩).elim
        | error err =>
          refine sound.quiet rfl ⟨rfl, rfl, rfl, rfl, rfl, rfl, rfl, rfl, id⟩ sound.closed ?_
          exact fun noError => (noError _ List.mem_concat_self ⟨_, rfl⟩).elim
      next => exact same
    next => exact same
  next =>
    exact sound.quiet rfl (.refl upload) sound.closed
      fun noError => sound.task (not_failed_left noError)

theorem Sound.write (bytes : List UInt8) : Sound size (upload.pollWrite bytes).1
    (told ++ [(.write bytes, some (upload.pollWrite bytes).2)]) := by
  unfold Upload.pollWrite
  split
  next =>
    exact sound.quiet rfl (.refl upload) sound.closed
      fun noError => sound.task (not_failed_left noError)
  next short =>
    split_ifs with joined hasPipe ended full
    · exact sound.failure bytes
    · exact sound.failure bytes
    · exact sound.quiet rfl (.refl upload) sound.closed
        fun noError => sound.task (not_failed_left noError)
    · have isOpen : upload.pipeClosed = false := by
        by_contra closed
        have noPipe := sound.closed ((Bool.not_eq_false _).mp closed)
        rw [hasPipe] at noPipe
        cases noPipe
      have inLimit : upload.written + bytes.length ≤ size := by
        rw [sound.limit] at short
        simpa using short
      dsimp only
      generalize isCount : min (pipeRoom - upload.pipe.length) bytes.length = count
      have accepts : accepted (told ++ [(.write bytes, some (.wrote count))]) =
          accepted told ++ bytes.take count := accepted_append _ _
      have length : (bytes.take count).length = count := by
        rw [List.length_take]
        omega
      exact {
        expected := sound.expected
        limit := sound.limit
        written := by rw [accepts, List.length_append, length, sound.written]
        inLimit := by dsimp only; omega
        closed := sound.closed
        holds := accepts ▸ holds_write sound.holds isOpen _ _
        task := fun noError => sound.task (not_failed_left noError) }
    · exact sound.quiet rfl (.refl upload) sound.closed
        fun noError => sound.task (not_failed_left noError)

end Steps

theorem pollFinishing_cases (upload : Upload) (expired : Bool) :
    upload.pollFinishing expired = (upload, .pending) ∨
      (upload.pollFinishing expired).1 = { upload with finishing := some .ended } ∧
        ((∃ err, (upload.pollFinishing expired).2 = .failed err) ∨
          (upload.pollFinishing expired).2 = .done ∧ upload.phase = .ended (.ok ())) := by
  unfold Upload.pollFinishing
  split
  next result phase =>
    split_ifs with joined
    · cases result with
      | ok done => exact .inr ⟨rfl, .inr ⟨rfl, phase⟩⟩
      | error err => exact .inr ⟨rfl, .inl ⟨err, rfl⟩⟩
    · exact .inr ⟨rfl, .inl ⟨_, rfl⟩⟩
    · exact .inl rfl
  next =>
    split_ifs
    · exact .inr ⟨rfl, .inl ⟨_, rfl⟩⟩
    · exact .inl rfl

/-- The writer when its shutdown begins. -/
def shut (upload : Upload) (finishing : Finishing) : Upload :=
  { upload with
    pipeClosed := true
    hasPipe := false
    hasTask := false
    finishing := some finishing }

/-- What a shutdown does: without a task it is done at once, and otherwise the future of the task
is polled, which may be the first time. -/
theorem pollShutdown_cases (upload : Upload) (expired : Bool) :
    upload.pollShutdown expired = (upload, .panicked) ∨ upload.finishing = some .awaiting ∧
        upload.pollShutdown expired = upload.pollFinishing expired ∨
      upload.finishing = none ∧ upload.hasTask = true ∧
        upload.pollShutdown expired = (shut upload .awaiting).pollFinishing expired ∨
      upload.finishing = none ∧ upload.hasTask = false ∧
        upload.pollShutdown expired = (shut upload .ended, .done) := by
  unfold Upload.pollShutdown
  cases finishing : upload.finishing with
  | some place =>
    cases place with
    | ended => exact .inl rfl
    | awaiting => exact .inr (.inl ⟨rfl, rfl⟩)
  | none =>
    cases hasTask : upload.hasTask with
    | true => exact .inr (.inr (.inl ⟨rfl, rfl, rfl⟩))
    | false => exact .inr (.inr (.inr ⟨rfl, rfl, rfl⟩))

section Steps

variable {upload : Upload} {told : List (Move × Option Told)} (sound : Sound size upload told)

include sound

theorem Sound.shutdown (expired : Bool) : Sound size (upload.pollShutdown expired).1
    (told ++ [(.shutdown expired, some (upload.pollShutdown expired).2)]) := by
  have awaited (before : Upload) (same : SameSending upload before)
      (closed : before.pipeClosed = true → before.hasPipe = false) (begun : before.finishing ≠ none) :
      Sound size (before.pollFinishing expired).1
        (told ++ [(.shutdown expired, some (before.pollFinishing expired).2)]) := by
    rcases pollFinishing_cases before expired with pending | ⟨isOver, -⟩
    · rw [pending]
      exact sound.quiet rfl same closed fun _ notBegun => (begun notBegun).elim
    · rw [isOver]
      exact sound.quiet rfl { same with } closed fun _ => nofun
  have isShut (finishing : Finishing) : SameSending upload (shut upload finishing) :=
    ⟨rfl, rfl, rfl, rfl, rfl, rfl, rfl, rfl, fun _ => rfl⟩
  rcases pollShutdown_cases upload expired with
    panics | ⟨finishing, isPolled⟩ | ⟨-, -, isPolled⟩ | ⟨-, -, isPolled⟩
  · rw [panics]
    exact sound.quiet rfl (.refl upload) sound.closed
      fun noError => sound.task (not_failed_left noError)
  · rw [isPolled]
    exact awaited upload (.refl upload) sound.closed (by simp [finishing])
  · rw [isPolled]
    exact awaited _ (isShut .awaiting) (fun _ => rfl) nofun
  · rw [isPolled]
    exact sound.quiet rfl (isShut .ended) (fun _ => rfl) fun _ => nofun

theorem Sound.move (next : Move) :
    Sound size (upload.move next).1 (told ++ [(next, (upload.move next).2)]) := by
  cases next with
  | write bytes => exact sound.write bytes
  | flush =>
    exact sound.quiet rfl (.refl upload) sound.closed
      fun noError => sound.task (not_failed_left noError)
  | shutdown expired => exact sound.shutdown expired
  | drop =>
    exact sound.quiet rfl ⟨rfl, rfl, rfl, rfl, rfl, rfl, rfl, rfl, fun _ => rfl⟩ (fun _ => rfl)
      fun noError => sound.task (not_failed_left noError)
  | task event => exact sound.task_step event
  | join =>
    exact sound.quiet rfl ⟨rfl, rfl, rfl, rfl, rfl, rfl, rfl, rfl, id⟩ sound.closed
      fun noError => sound.task (not_failed_left noError)

theorem Sound.after (moves : List Move) :
    Sound size (upload.after moves) (told ++ upload.trace moves) := by
  induction moves generalizing upload told with
  | nil =>
    rw [Upload.trace, List.append_nil]
    exact sound
  | cons next moves ih =>
    have later := ih (sound.move next)
    rw [List.append_assoc] at later
    exact later

/-- A shutdown that is told done, with no error before it. -/
theorem Sound.done (noError : ∀ outcome ∈ told, ¬ Failed outcome) {expired : Bool}
    (isDone : (upload.pollShutdown expired).2 = .done) :
    Complete size (accepted told) upload.input ∧
      (∃ reply, upload.reply = some reply ∧ reply.head? = some 0) ∧ upload.exit = some 0 := by
  have ended (before : Upload) (same : before.phase = upload.phase)
      (isDone : (before.pollFinishing expired).2 = .done) : upload.phase = .ended (.ok ()) := by
    rcases pollFinishing_cases before expired with pending | ⟨-, ⟨err, failed⟩ | ⟨-, phase⟩⟩
    · rw [pending] at isDone
      cases isDone
    · rw [failed] at isDone
      cases isDone
    · exact same.symm.trans phase
  have phase : upload.phase = .ended (.ok ()) := by
    rcases pollShutdown_cases upload expired with
      panics | ⟨-, isPolled⟩ | ⟨-, -, isPolled⟩ | ⟨notBegun, noTask, -⟩
    · rw [panics] at isDone
      cases isDone
    · exact ended upload rfl (isPolled ▸ isDone)
    · exact ended (shut upload .awaiting) rfl (isPolled ▸ isDone)
    · rw [sound.task noError notBegun] at noTask
      cases noTask
  have holds := sound.holds
  unfold Holds at holds
  rw [phase] at holds
  exact holds.2

end Steps

theorem sound_new (size : Nat) : Sound size (.new (some size)) [] where
  expected := rfl
  limit := rfl
  written := rfl
  inLimit := Nat.zero_le size
  closed := nofun
  holds := ⟨rfl, rfl⟩
  task := fun _ _ => rfl

end Sound

/-- However the writes and the steps of the task follow each other: what is sent is a part of what
was written until all that is expected is sent, only then the zero byte is sent, and a shutdown
behind no error is done only when the server has taken all of it. -/
theorem writer_exact (size : Nat) (moves : List Move) :
    let upload := (Upload.new (some size)).after moves
    let told := (Upload.new (some size)).trace moves
    (upload.input <+: accepted told ∨ Complete size (accepted told) upload.input) ∧
      ((∀ outcome ∈ told, ¬ Failed outcome) → ∀ expired,
        (upload.pollShutdown expired).2 = .done → Complete size (accepted told) upload.input ∧
          (∃ reply, upload.reply = some reply ∧ reply.head? = some 0) ∧ upload.exit = some 0) := by
  have sound := (sound_new size).after moves
  rw [List.nil_append] at sound
  exact ⟨(prefix_of_holds sound.holds).imp_right And.right, fun noError _ => sound.done noError⟩

example :
    let upload := (Upload.new (some 1)).after [.write [7], .task (.reads 0), .task .sends,
      .shutdown false, .task (.reads 0), .task .sends, .task (.replies [0]), .task .closes,
      .task (.exits (some 0) []), .join]
    upload.input = [7, 0] ∧ (upload.pollShutdown false).2 = .done := by decide

/-! ### Both directions -/

/-- A download delivers the content that was announced and ends where the server's reply was good,
and an upload is done where the server's reply was good. -/
theorem streams_exact :
    (∀ (output : List UInt8) (size : Nat) (finisher : List UInt8 → Chunked.Reply StreamError)
      (reads : List Read), (∀ read ∈ reads, 0 < read.room) →
      Exact output size finisher ((ChannelReader.new output (some size) finisher).after reads)
        ((ChannelReader.new output (some size) finisher).trace reads)) ∧
    (∀ (ending : Ending) (output : List UInt8), (sourceFinisher ending output).result = .ok () →
      output.head? = some 0 ∧ ending.status = some 0) ∧
    ∀ (size : Nat) (moves : List Move),
      let upload := (Upload.new (some size)).after moves
      let told := (Upload.new (some size)).trace moves
      (upload.input <+: accepted told ∨ Complete size (accepted told) upload.input) ∧
        ((∀ outcome ∈ told, ¬ Failed outcome) → ∀ expired,
          (upload.pollShutdown expired).2 = .done → Complete size (accepted told) upload.input ∧
            (∃ reply, upload.reply = some reply ∧ reply.head? = some 0) ∧ upload.exit = some 0) :=
  ⟨fun output size finisher _ => reader_exact output size finisher, fun _ _ => sourceFinisher_eq_ok,
    writer_exact⟩

end ScpStreams

end Porthmos
