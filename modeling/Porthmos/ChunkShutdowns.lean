import Porthmos.ChunkUploads

/-!
# The end of an upload

Before the first shutdown every piece that is sent is full.  A shutdown sends
what is left, and when all of it is there it runs the finish step; from then on
nothing is left to send, as long as nothing more is written.
-/

namespace Porthmos

namespace Chunked

section Ends

variable {ε : Type} (kind : Kind ε) (finishes : Bool)

/-- No finish step has been begun, and all pieces so far are full, if more is to be
sent. -/
structure Sending (writer : ChunkWriter ε) : Prop where
  butLast : FullButLast kind writer.log
  full : writer.buffer ≠ [] ∨ (writer.fresh ∧ ¬ writer.sent) →
    ∀ send ∈ starts writer.log, send.2.length = kind.room
  finish : writer.finish.isSome = finishes
  finishing : writer.finishing = none
  sends : ∀ event ∈ writer.log, event.isSend = true

/-- A writer that was not shut down. -/
structure Open (writer : ChunkWriter ε) : Prop extends Sending kind finishes writer where
  allFull : ∀ send ∈ starts writer.log, send.2.length = kind.room
  space : writer.buffer.length < kind.room

/-- The finish step is under way or over. -/
inductive Finishing (writer : ChunkWriter ε) : Prop
  | polling (sends : List Event) (areSends : ∀ event ∈ sends, event.isSend = true)
      (logEq : writer.log = sends ++ [.finishing]) (isSome : writer.finishing.isSome)
  | past (sends : List Event) (areSends : ∀ event ∈ sends, event.isSend = true)
      (logEq : writer.log = sends ++ [.finishing, .finished true]) (isNone : writer.finishing = none)

/-- A writer that was shut down. -/
structure Shut (writer : ChunkWriter ε) : Prop where
  butLast : FullButLast kind writer.log
  empty : writer.buffer = []
  notAlone : writer.fresh = true → writer.sent = true
  phase : Sending kind finishes writer ∨
    finishes = true ∧ writer.finish = none ∧ writer.pending = none ∧ Finishing writer

/-- A writer that has reported the end of its shutdown. -/
structure Over (writer : ChunkWriter ε) : Prop where
  idle : writer.pending = none
  finish : ∃ sends : List Event, (∀ event ∈ sends, event.isSend = true) ∧
    writer.log = sends ++ if finishes then [.finishing, .finished true] else []

/-- What a poll makes of a writer. -/
def Yields {α : Type} (good : ChunkWriter ε → Prop) (ended : ChunkWriter ε → Prop)
    (polled : ChunkWriter ε × Poll (Except ε α)) : Prop :=
  match polled.2 with
  | .pending => good polled.1
  | .ready (.ok _) => good polled.1 ∧ ended polled.1
  | .ready (.error _) => FullButLast kind polled.1.log

end Ends

variable {ε : Type} {kind : Kind ε} {finishes : Bool} {writer : ChunkWriter ε}

/-! ### The logs of single events -/

theorem FullButLast.append {log : List Event} {event : Event} (full : FullButLast kind log)
    (noStart : starts [event] = []) : FullButLast kind (log ++ [event]) := by
  simpa [FullButLast, noStart] using full

theorem forall_mem_append_singleton {log : List Event} {event : Event}
    (sends : ∀ other ∈ log, other.isSend = true) (isSend : event.isSend = true) :
    ∀ other ∈ log ++ [event], other.isSend = true := by
  intro other member
  rcases List.mem_append.mp member with earlier | last
  · exact sends other earlier
  · obtain rfl := List.mem_singleton.mp last
    exact isSend

namespace Sending

theorem wait (sending : Sending kind finishes writer) (reply : Reply ε) :
    Sending kind finishes { writer with pending := some reply } :=
  { sending with }

theorem ended (sending : Sending kind finishes writer) (success : Bool) : Sending kind finishes
      { writer with pending := none, log := writer.log ++ [.ended success] } where
  butLast := sending.butLast.append rfl
  full := by simpa using sending.full
  finish := sending.finish
  finishing := sending.finishing
  sends := forall_mem_append_singleton sending.sends rfl

theorem settled (sending : Sending kind finishes writer) :
    Sending kind finishes writer.settled := by
  unfold ChunkWriter.settled
  split
  · exact sending
  · exact sending.ended true

theorem started (sending : Sending kind finishes writer)
    (full : ∀ send ∈ starts writer.log, send.2.length = kind.room) :
    Sending kind finishes (writer.started kind) where
  butLast := by
    simpa [FullButLast, ChunkWriter.started] using full
  full := by simp [ChunkWriter.started]
  finish := sending.finish
  finishing := sending.finishing
  sends := forall_mem_append_singleton sending.sends rfl

theorem shut (sending : Sending kind finishes writer) (isEmpty : writer.buffer = [])
    (notAlone : writer.fresh = true → writer.sent = true) : Shut kind finishes writer :=
  ⟨sending.butLast, isEmpty, notAlone, .inl sending⟩

end Sending

/-! ### The finish step -/

/-- A finish step that is polled is still under way, over, or has failed. -/
theorem yields_pollFinishing (butLast : FullButLast kind writer.log) (isEmpty : writer.buffer = [])
    (notAlone : writer.fresh = true → writer.sent = true) (hasFinish : finishes = true)
    (isTaken : writer.finish = none) (isIdle : writer.pending = none)
    (isSome : writer.finishing.isSome) {sends : List Event}
    (areSends : ∀ event ∈ sends, event.isSend = true)
    (logEq : writer.log = sends ++ [.finishing]) :
    Yields kind (Shut kind finishes) (Over finishes) writer.pollFinishing := by
  rcases writer.pollFinishing_cases with ⟨isNone, -⟩ | ⟨reply, -, polled⟩ | ⟨-, polled⟩ |
    ⟨err, -, polled⟩
  · simp [isNone] at isSome
  · rw [polled]
    exact ⟨butLast, isEmpty, notAlone,
      .inr ⟨hasFinish, isTaken, isIdle, .polling sends areSends logEq rfl⟩⟩
  · have wholeLog : writer.log ++ [.finished true] = sends ++ [.finishing, .finished true] := by
      rw [logEq, List.append_assoc]
      rfl
    rw [polled]
    refine ⟨⟨butLast.append rfl, isEmpty, notAlone,
      .inr ⟨hasFinish, isTaken, isIdle, .past sends areSends wholeLog rfl⟩⟩, isIdle, sends,
      areSends, ?_⟩
    rw [if_pos hasFinish]
    exact wholeLog
  · rw [polled]
    exact butLast.append rfl

theorem Sending.takeFinish (sending : Sending kind finishes writer) (isEmpty : writer.buffer = [])
    (notAlone : writer.fresh = true → writer.sent = true) (isIdle : writer.pending = none) :
    Yields kind (Shut kind finishes) (Over finishes) writer.takeFinish := by
  unfold ChunkWriter.takeFinish
  cases isFinish : writer.finish with
  | none =>
    have noFinish : finishes = false := by simp [← sending.finish, isFinish]
    refine ⟨sending.shut isEmpty notAlone, isIdle, writer.log, sending.sends, ?_⟩
    simp [noFinish]
  | some reply =>
    have hasFinish : finishes = true := by simp [← sending.finish, isFinish]
    exact yields_pollFinishing (sending.butLast.append rfl) isEmpty notAlone hasFinish rfl isIdle
      rfl sending.sends rfl

/-! ### Shutdowns -/

/-- A shutdown of a writer whose finish step was not begun. -/
theorem Sending.pollShutdown (sending : Sending kind finishes writer)
    (waiting : writer.pending.isSome → writer.buffer = [] ∧ writer.sent = true) :
    Yields kind (Shut kind finishes) (Over finishes) (writer.pollShutdown kind) := by
  unfold ChunkWriter.pollShutdown
  rw [sending.finishing]
  rcases writer.pollPending_cases with ⟨reply, isPending, polled⟩ | polled | ⟨err, isPending, polled⟩
  · simp only [polled]
    obtain ⟨isEmpty, isSent⟩ := waiting isPending
    exact (sending.wait reply).shut isEmpty fun _ => isSent
  · have isIdle := Sound.settled_pending writer
    have settled := sending.settled
    simp only [polled]
    split_ifs with hasRest
    · rcases ChunkWriter.startPart_cases kind writer.settled with
        ⟨-, startEq⟩ | ⟨limit, err, -, -, startEq⟩
      · have started := settled.started (settled.full hasRest)
        simp only [startEq]
        rcases (writer.settled.started kind).pollPending_cases with
          ⟨reply, -, polled⟩ | polled | ⟨err, -, polled⟩
        · simp only [polled]
          exact (started.wait reply).shut rfl fun _ => rfl
        · simp only [polled]
          exact started.settled.takeFinish rfl (fun _ => rfl) (Sound.settled_pending _)
        · simp only [polled]
          exact (started.ended false).butLast
      · simp only [startEq]
        exact settled.butLast
    · obtain ⟨isEmpty, notAlone⟩ := not_or.mp hasRest
      refine settled.takeFinish (not_not.mp isEmpty) (fun isFresh => ?_) isIdle
      by_contra unsent
      exact notAlone ⟨isFresh, unsent⟩
  · simp only [polled]
    exact (sending.ended false).butLast

theorem Shut.pollShutdown (shut : Shut kind finishes writer)
    (waiting : writer.pending.isSome → writer.buffer = [] ∧ writer.sent = true) :
    Yields kind (Shut kind finishes) (Over finishes) (writer.pollShutdown kind) := by
  rcases shut.phase with sending | ⟨hasFinish, isTaken, isIdle, finishing⟩
  · exact sending.pollShutdown waiting
  · cases finishing with
    | polling sends areSends logEq isSome =>
      obtain ⟨reply, isFinishing⟩ := Option.isSome_iff_exists.mp isSome
      unfold ChunkWriter.pollShutdown
      rw [isFinishing]
      exact yields_pollFinishing shut.butLast shut.empty shut.notAlone hasFinish isTaken isIdle
        isSome areSends logEq
    | past sends areSends logEq isNone =>
      have polled : writer.pollPending = (writer, .ready (.ok ())) := by
        simp [ChunkWriter.pollPending, isIdle]
      have noRest : ¬ (writer.buffer ≠ [] ∨ (writer.fresh ∧ ¬ writer.sent)) := by
        rintro (notEmpty | ⟨isFresh, unsent⟩)
        · exact notEmpty shut.empty
        · exact unsent (shut.notAlone isFresh)
      unfold ChunkWriter.pollShutdown
      rw [isNone]
      simp only [polled, if_neg noRest, ChunkWriter.takeFinish, isTaken]
      refine ⟨shut, isIdle, sends, areSends, ?_⟩
      rw [if_pos hasFinish, logEq]

theorem Shut.pollFlush (shut : Shut kind finishes writer) :
    Yields kind (Shut kind finishes) (fun _ => True) writer.pollFlush := by
  unfold ChunkWriter.pollFlush
  rcases shut.phase with sending | ⟨hasFinish, isTaken, isIdle, finishing⟩
  · rcases writer.pollPending_cases with ⟨reply, -, polled⟩ | polled | ⟨err, -, polled⟩
    · rw [polled]
      exact (sending.wait reply).shut shut.empty shut.notAlone
    · rw [polled]
      refine ⟨sending.settled.shut ?_ ?_, trivial⟩
      · unfold ChunkWriter.settled
        split <;> exact shut.empty
      · unfold ChunkWriter.settled
        split <;> exact shut.notAlone
    · rw [polled]
      exact (sending.ended false).butLast
  · have polled : writer.pollPending = (writer, .ready (.ok ())) := by
      simp [ChunkWriter.pollPending, isIdle]
    rw [polled]
    exact ⟨shut, trivial⟩

/-! ### Writes before the first shutdown -/

namespace Open

theorem wait (isOpen : Open kind finishes writer) (reply : Reply ε) :
    Open kind finishes { writer with pending := some reply } :=
  { isOpen with }

theorem settled (isOpen : Open kind finishes writer) : Open kind finishes writer.settled := by
  have sending := isOpen.toSending.settled
  unfold ChunkWriter.settled at sending ⊢
  split at sending
  · exact isOpen
  · exact { sending with
      allFull := by simpa using isOpen.allFull
      space := isOpen.space }

theorem pollFlush (isOpen : Open kind finishes writer) :
    Yields kind (Open kind finishes) (fun _ => True) writer.pollFlush := by
  unfold ChunkWriter.pollFlush
  rcases writer.pollPending_cases with ⟨reply, -, polled⟩ | polled | ⟨err, -, polled⟩
  · rw [polled]
    exact isOpen.wait reply
  · rw [polled]
    exact ⟨isOpen.settled, trivial⟩
  · rw [polled]
    exact (isOpen.ended false).butLast

theorem take (isOpen : Open kind finishes writer) {buffer : List UInt8}
    (space : buffer.length < kind.room) : Open kind finishes { writer with buffer } :=
  { isOpen with
    full := fun _ => isOpen.allFull
    space }

theorem started (isOpen : Open kind finishes writer) {buffer : List UInt8}
    (full : buffer.length = kind.room) :
    Open kind finishes (ChunkWriter.started kind { writer with buffer }) := by
  have room : 0 < kind.room := Nat.zero_lt_of_lt isOpen.space
  have sending : Sending kind finishes { writer with buffer } :=
    { isOpen with full := fun _ => isOpen.allFull }
  exact { sending.started isOpen.allFull with
    allFull := by
      intro send member
      simp only [ChunkWriter.started, starts_append, starts_started, List.mem_append,
        List.mem_singleton] at member
      rcases member with earlier | rfl
      · exact isOpen.allFull send earlier
      · exact full
    space := room }

theorem pollWrite (isOpen : Open kind finishes writer) (bytes : List UInt8) :
    Yields kind (Open kind finishes) (fun _ => True) (writer.pollWrite kind bytes) := by
  unfold ChunkWriter.pollWrite
  rcases writer.pollPending_cases with ⟨reply, -, polled⟩ | polled | ⟨err, -, polled⟩
  · rw [polled]
    exact isOpen.wait reply
  · have settled := isOpen.settled
    have space := settled.space
    rw [polled]
    dsimp only
    split_ifs with full
    · rcases ChunkWriter.startPart_cases kind { writer.settled with
        buffer := writer.settled.buffer ++
          bytes.take (min bytes.length (kind.room - writer.settled.buffer.length)) } with
        ⟨-, startEq⟩ | ⟨limit, err, -, -, startEq⟩
      · rw [startEq]
        exact ⟨settled.started full, trivial⟩
      · rw [startEq]
        exact settled.butLast
    · refine ⟨settled.take ?_, trivial⟩
      simp only [List.length_append, List.length_take] at full ⊢
      omega
  · rw [polled]
    exact (isOpen.ended false).butLast

end Open

/-! ### Whole runs -/

theorem Yields.good {α : Type} {good ended : ChunkWriter ε → Prop} {report : α → Outcome ε}
    {polled : ChunkWriter ε × Poll (Except ε α)} (yields : Yields kind good ended polled)
    (works : (Outcome.ofPoll report polled.2).isFailed = false) : good polled.1 := by
  obtain ⟨after, poll⟩ := polled
  cases poll with
  | pending => exact yields
  | ready result =>
    cases result with
    | ok value => exact yields.1
    | error err => cases works

theorem Yields.failed {α : Type} {good ended : ChunkWriter ε → Prop} {report : α → Outcome ε}
    {polled : ChunkWriter ε × Poll (Except ε α)} (yields : Yields kind good ended polled)
    (reports : ∀ value, (report value).isFailed = false)
    (fails : (Outcome.ofPoll report polled.2).isFailed = true) : FullButLast kind polled.1.log := by
  obtain ⟨after, poll⟩ := polled
  cases poll with
  | pending => cases fails
  | ready result =>
    cases result with
    | ok value =>
      rw [Outcome.ofPoll, reports value] at fails
      cases fails
    | error err => exact yields

variable {first : Nat} {bytes : List UInt8}

theorem Shut.call (shut : Shut kind finishes writer) (sound : Sound kind first finishes writer bytes)
    {next : Call} (noWrite : ∀ bytes, next ≠ .write bytes) :
    ((call kind writer next).2.isFailed = false → Shut kind finishes (call kind writer next).1) ∧
      ((call kind writer next).2.isFailed = true →
        FullButLast kind (call kind writer next).1.log) := by
  cases next with
  | write more => exact absurd rfl (noWrite more)
  | flush =>
    exact ⟨fun works => shut.pollFlush.good works,
      fun fails => shut.pollFlush.failed (fun _ => rfl) fails⟩
  | shutdown =>
    have yields := shut.pollShutdown sound.waiting
    exact ⟨fun works => yields.good works, fun fails => yields.failed (fun _ => rfl) fails⟩

theorem Shut.run {calls : List Call} (shut : Shut kind finishes writer)
    (sound : Sound kind first finishes writer bytes) (noWrite : ∀ bytes, .write bytes ∉ calls)
    (obeys : Obeys finishes (trace kind writer calls)) :
    FullButLast kind (after kind writer calls).log := by
  induction calls generalizing writer bytes with
  | nil => exact shut.butLast
  | cons next calls ih =>
    have notWrite : ∀ bytes, next ≠ .write bytes := fun bytes isWrite =>
      noWrite bytes (isWrite ▸ List.mem_cons_self)
    obtain ⟨good, bad⟩ := shut.call sound notWrite
    rw [trace, Obeys] at obeys
    rw [after]
    split_ifs at obeys with fails
    · rw [((sound.failedCall fails).after_log obeys).1]
      exact bad fails
    · have works := Bool.eq_false_of_not_eq_true fails
      exact ih (good works) (sound.call works)
        (fun bytes member => noWrite bytes (List.mem_cons_of_mem _ member)) obeys

theorem Open.run {calls : List Call} (isOpen : Open kind finishes writer)
    (sound : Sound kind first finishes writer bytes) (noWrite : NoWriteAfterShutdown calls)
    (obeys : Obeys finishes (trace kind writer calls)) :
    FullButLast kind (after kind writer calls).log := by
  induction calls generalizing writer bytes with
  | nil => exact isOpen.butLast
  | cons next calls ih =>
    rw [trace, Obeys] at obeys
    rw [after]
    split_ifs at obeys with fails
    · rw [((sound.failedCall fails).after_log obeys).1]
      cases next with
      | write more => exact (isOpen.pollWrite more).failed (fun _ => rfl) fails
      | flush => exact isOpen.pollFlush.failed (fun _ => rfl) fails
      | shutdown => exact (isOpen.pollShutdown sound.waiting).failed (fun _ => rfl) fails
    · have works := Bool.eq_false_of_not_eq_true fails
      have soundAfter := sound.call works
      cases next with
      | write more => exact ih ((isOpen.pollWrite more).good works) soundAfter noWrite obeys
      | flush => exact ih (isOpen.pollFlush.good works) soundAfter noWrite obeys
      | shutdown =>
        have shut := (isOpen.pollShutdown sound.waiting).good works
        exact shut.run soundAfter noWrite obeys

theorem Shut.after {calls : List Call} (shut : Shut kind finishes writer)
    (sound : Sound kind first finishes writer bytes) (noWrite : ∀ bytes, .write bytes ∉ calls)
    (works : ∀ entry ∈ trace kind writer calls, entry.2.isFailed = false) :
    Shut kind finishes (after kind writer calls) := by
  induction calls generalizing writer bytes with
  | nil => exact shut
  | cons next calls ih =>
    have notWrite : ∀ bytes, next ≠ .write bytes := fun bytes isWrite =>
      noWrite bytes (isWrite ▸ List.mem_cons_self)
    rw [trace, List.forall_mem_cons] at works
    exact ih ((shut.call sound notWrite).1 works.1) (sound.call works.1)
      (fun bytes member => noWrite bytes (List.mem_cons_of_mem _ member)) works.2

/-- As long as no error is reported, a writer is open until the first shutdown, and
shut from then on. -/
theorem Open.after {calls : List Call} (isOpen : Open kind finishes writer)
    (sound : Sound kind first finishes writer bytes) (noWrite : NoWriteAfterShutdown calls)
    (works : ∀ entry ∈ trace kind writer calls, entry.2.isFailed = false) :
    Open kind finishes (after kind writer calls) ∨ Shut kind finishes (after kind writer calls) := by
  induction calls generalizing writer bytes with
  | nil => exact .inl isOpen
  | cons next calls ih =>
    rw [trace, List.forall_mem_cons] at works
    have soundAfter := sound.call works.1
    cases next with
    | write more => exact ih ((isOpen.pollWrite more).good works.1) soundAfter noWrite works.2
    | flush => exact ih (isOpen.pollFlush.good works.1) soundAfter noWrite works.2
    | shutdown =>
      have shut := (isOpen.pollShutdown sound.waiting).good works.1
      exact .inr (shut.after soundAfter noWrite works.2)

/-- A shutdown that reports its end has sent everything. -/
theorem complete_of_done (sound : Sound kind first finishes writer bytes)
    (orderly : Open kind finishes writer ∨ Shut kind finishes writer)
    (done : (call kind writer .shutdown).2 = .done) :
    Complete finishes (call kind writer .shutdown).1.log bytes := by
  have yields : Yields kind (Shut kind finishes) (Over finishes) (writer.pollShutdown kind) := by
    rcases orderly with isOpen | shut
    · exact isOpen.pollShutdown sound.waiting
    · exact shut.pollShutdown sound.waiting
  have works : (call kind writer .shutdown).2.isFailed = false := by rw [done]; rfl
  have soundAfter : Sound kind first finishes (call kind writer .shutdown).1 bytes := by
    have after := sound.call works
    rwa [takenBy_shutdown, List.append_nil] at after
  obtain ⟨shut, isOver⟩ : Shut kind finishes (call kind writer .shutdown).1 ∧
      Over finishes (call kind writer .shutdown).1 := by
    simp only [call] at done ⊢
    cases polled : (writer.pollShutdown kind).2 with
    | pending => simp [polled, Outcome.ofPoll] at done
    | ready result =>
      cases result with
      | ok value => simpa [Yields, polled] using yields
      | error err => simp [polled, Outcome.ofPoll] at done
  have content := soundAfter.content
  rw [shut.empty, List.append_nil] at content
  exact ⟨content, soundAfter.ready isOver.idle, isOver.finish⟩

namespace Made

variable (made : Made ε) (replies : Nat → Reply ε)

theorem sound_writer : Sound made.kind made.first made.finishes (made.writer replies) [] := by
  cases made with
  | multipart firstPart finish tooLarge =>
    exact {
      consecutive := eachAfter_nil _
      next := rfl
      chained := eachAfter_nil _
      within := fun send member => absurd member List.not_mem_nil
      content := rfl
      waiting := fun isSome => by cases isSome
      ready := fun _ => .inl rfl
      unsent := fun _ => rfl
      plain := fun noFinish => ⟨by simpa [finishes, writer] using noFinish, rfl⟩ }
  | patch start chunk positive =>
    exact {
      consecutive := eachAfter_nil _
      next := rfl
      chained := eachAfter_nil _
      within := fun send member => absurd member List.not_mem_nil
      content := rfl
      waiting := fun isSome => by cases isSome
      ready := fun _ => .inl rfl
      unsent := fun _ => rfl
      plain := fun _ => ⟨rfl, rfl⟩ }

theorem open_writer : Open made.kind made.finishes (made.writer replies) := by
  cases made with
  | multipart firstPart finish tooLarge =>
    exact {
      butLast := fun send member => absurd member List.not_mem_nil
      full := fun _ send member => absurd member List.not_mem_nil
      finish := rfl
      finishing := rfl
      sends := fun event member => absurd member List.not_mem_nil
      allFull := fun send member => absurd member List.not_mem_nil
      space := (by decide : 0 < partSize) }
  | patch start chunk positive =>
    exact {
      butLast := fun send member => absurd member List.not_mem_nil
      full := fun _ send member => absurd member List.not_mem_nil
      finish := rfl
      finishing := rfl
      sends := fun event member => absurd member List.not_mem_nil
      allFull := fun send member => absurd member List.not_mem_nil
      space := positive }

theorem obeys_of_works {calls : List (Call × Outcome ε)}
    (works : ∀ entry ∈ calls, entry.2.isFailed = false) : Obeys finishes calls := by
  induction calls with
  | nil => trivial
  | cons entry calls ih =>
    rw [List.forall_mem_cons] at works
    rw [Obeys, works.1]
    exact ih works.2

/-- Whatever is called, the pieces follow each other and hold what was taken; and
when nothing is written behind a shutdown, they are full, and all of it is there
when the shutdown is over. -/
theorem sends_exactly (calls : List Call)
    (obeys : Obeys made.finishes (trace made.kind (made.writer replies) calls)) :
    Proper made.kind made.first (after made.kind (made.writer replies) calls).log
      (accepted (trace made.kind (made.writer replies) calls)) ∧
    (NoWriteAfterShutdown calls →
      FullButLast made.kind (after made.kind (made.writer replies) calls).log ∧
      ((∀ entry ∈ trace made.kind (made.writer replies) calls, entry.2.isFailed = false) →
        (call made.kind (after made.kind (made.writer replies) calls) .shutdown).2 = .done →
        Complete made.finishes
          (call made.kind (after made.kind (made.writer replies) calls) .shutdown).1.log
          (accepted (trace made.kind (made.writer replies) calls)))) := by
  have sound := made.sound_writer replies
  have isOpen := made.open_writer replies
  refine ⟨sound.run obeys, fun noWrite => ⟨isOpen.run sound noWrite obeys, fun works done => ?_⟩⟩
  exact complete_of_done (sound.after works) (isOpen.after sound noWrite works) done

/-- Chunks of four bytes. -/
def fours : Made Unit := .patch 0 4 (by decide)

/-- A new object, whose finish step is pending for a poll. -/
def object : Made Unit := .multipart 1 (some ⟨1, .ok ()⟩) ()

/-- A server that lets every send wait for some polls. -/
def slow (delay : Nat) (_ : Nat) : Reply Unit := ⟨delay, .ok ()⟩

theorem sends_exactly_five :
    Complete false (call fours.kind (after fours.kind (fours.writer (slow 0))
      [.write [1, 2, 3, 4, 5], .write [5]]) .shutdown).1.log [1, 2, 3, 4, 5] := by
  have works : ∀ entry ∈ trace fours.kind (fours.writer (slow 0))
      [.write [1, 2, 3, 4, 5], .write [5]], entry.2.isFailed = false := by
    decide
  have sent := sends_exactly fours (slow 0) [.write [1, 2, 3, 4, 5], .write [5]]
    (obeys_of_works works)
  exact (sent.2 trivial).2 works (by decide)

/-- A write behind a shutdown: behind one that has sent the rest it leaves a piece
that is not full, behind one that has begun the finish step its byte is left out. -/
theorem write_after_shutdown :
    (¬ ∀ send ∈ (starts (after fours.kind (fours.writer (slow 1))
        [.write [1], .shutdown, .write [2, 3, 4, 5]]).log).dropLast, send.2.length = 4) ∧
      accepted (trace object.kind (object.writer (slow 0))
        [.write [1], .shutdown, .write [2], .shutdown]) = [1, 2] ∧
      (trace object.kind (object.writer (slow 0))
        [.write [1], .shutdown, .write [2], .shutdown]).map Prod.snd =
          [.wrote 1, .pending, .wrote 1, .done] ∧
      sentData (after object.kind (object.writer (slow 0))
        [.write [1], .shutdown, .write [2], .shutdown]).log = [1] := by
  decide

end Made

end Chunked

end Porthmos
