import Porthmos.ChunkUploads
import Porthmos.Splits

/-!
# Downloads over a shell

A remote `scp` sends the content of a file and behind it a reply, with nothing between them: only
the size that it announced tells where the content ends.  Its output arrives in pieces, and the
reader of the content is polled.
-/

namespace Porthmos

namespace ScpStreams

open Chunked (Poll Reply)

/-- `CHUNK` -/
def chunk : Nat := 64 * 1024

/-- What goes wrong on a stream.  A failure has what the command told and its exit status. -/
inductive StreamError
  | earlyEnd
  | timedOut
  | sizeChanged
  | failure (told : List UInt8) (status : Option Nat)
  | broken (text : String)
  deriving DecidableEq, Repr

/-! ### Replies -/

/-- The reply of `scp`, which is `Reply` in the source. -/
inductive Answer
  | ok
  | warning (message : List UInt8)
  | fatal (message : List UInt8)
  deriving DecidableEq, Repr

def newline : UInt8 := 10

def parseReply (bytes : List UInt8) : Option (Answer × Nat) :=
  match bytes with
  | [] => none
  | kind :: _ =>
    if kind = 0 then some (.ok, 1)
    else if kind = 1 ∨ kind = 2 then
      (bytes.findIdx? fun byte => byte = newline).map fun last =>
        let message := (bytes.take last).drop 1
        (if kind = 1 then .warning message else .fatal message, last + 1)
    else some (.fatal bytes, bytes.length)

/-- A line, and the output behind it. -/
def readLine (output : List UInt8) : Except StreamError (List UInt8 × List UInt8) :=
  match Splits.splitOnce [newline] output with
  | some parts => .ok parts
  | none => .error .earlyEnd

def readReply (output : List UInt8) : Except StreamError Unit :=
  match output with
  | [] => .error .earlyEnd
  | first :: rest =>
    if first = 0 then .ok ()
    else
      match readLine rest with
      | .error err => .error err
      | .ok (line, _) =>
        match parseReply (first :: line ++ [newline]) with
        | some (.ok, _) => .ok ()
        | some (.warning message, _) | some (.fatal message, _) =>
          .error (.failure message none)
        | none => .error .earlyEnd

def checkedExit (status : Option Nat) (stderr : List UInt8) : Except StreamError Unit :=
  if status = some 0 then .ok () else .error (.failure stderr status)

theorem checkedExit_eq_ok {status : Option Nat} {stderr : List UInt8} :
    checkedExit status stderr = .ok () ↔ status = some 0 := by
  unfold checkedExit
  split_ifs with isZero <;> simp [isZero]

theorem parseReply_ne_ok {kind : UInt8} (notZero : kind ≠ 0) (rest : List UInt8) (used : Nat) :
    parseReply (kind :: rest) ≠ some (.ok, used) := by
  intro isOk
  simp only [parseReply, if_neg notZero] at isOk
  split_ifs at isOk
  · obtain ⟨last, -, isOk⟩ := Option.map_eq_some_iff.mp isOk
    cases isOk
  · obtain ⟨last, -, isOk⟩ := Option.map_eq_some_iff.mp isOk
    cases isOk
  · cases isOk

/-- Only a zero byte is a good reply. -/
theorem readReply_eq_ok {output : List UInt8} :
    readReply output = .ok () ↔ output.head? = some 0 := by
  cases output with
  | nil => exact ⟨nofun, nofun⟩
  | cons first rest =>
    rw [readReply, List.head?_cons, Option.some_inj]
    split_ifs with isZero
    · exact iff_of_true rfl isZero
    · refine iff_of_false ?_ isZero
      cases readLine rest with
      | error err => exact nofun
      | ok parts =>
        cases isAnswer : parseReply (first :: parts.1 ++ [newline]) with
        | none =>
          dsimp only
          rw [isAnswer]
          exact nofun
        | some answer =>
          obtain ⟨answer, used⟩ := answer
          dsimp only
          rw [isAnswer]
          cases answer with
          | ok => exact (parseReply_ne_ok isZero _ used isAnswer).elim
          | warning message => exact nofun
          | fatal message => exact nofun

/-- How a server ends a command. -/
structure Ending where
  delay : Nat
  expired : Bool
  send : Except StreamError Unit
  close : Except StreamError Unit
  status : Option Nat
  stderr : List UInt8

def sourceFinisher (ending : Ending) (output : List UInt8) : Reply StreamError where
  delay := ending.delay
  result :=
    if ending.expired then .error .timedOut
    else do
      readReply output
      ending.send
      ending.close
      checkedExit ending.status ending.stderr

/-- A download is at its end when the byte behind the content is a good reply. -/
theorem sourceFinisher_eq_ok {ending : Ending} {output : List UInt8}
    (isOk : (sourceFinisher ending output).result = .ok ()) :
    output.head? = some 0 ∧ ending.status = some 0 := by
  unfold sourceFinisher at isOk
  dsimp only at isOk
  split_ifs at isOk with expired
  cases isReply : readReply output with
  | error err =>
    rw [isReply] at isOk
    cases isOk
  | ok replied =>
    cases isSent : ending.send with
    | error err =>
      rw [isReply, isSent] at isOk
      cases isOk
    | ok sent =>
      cases isClosed : ending.close with
      | error err =>
        rw [isReply, isSent, isClosed] at isOk
        cases isOk
      | ok closed =>
        rw [isReply, isSent, isClosed] at isOk
        exact ⟨readReply_eq_ok.mp isReply, checkedExit_eq_ok.mp isOk⟩

/-! ### The reader -/

/-- What a poll of the output finds: nothing yet, and perhaps the time is over; some bytes more
than one, or the end behind the last byte; or an error. -/
inductive Arrival
  | nothing (expired : Bool)
  | arrived (more : Nat)
  | broken (text : String)

structure Read where
  arrival : Arrival
  room : Nat

inductive Event
  | finishing (output : List UInt8)
  | finished (success : Bool)
  deriving DecidableEq

/-- A reader; its channel has the output that is still to come, and its log tells of its
finisher. -/
structure ChannelReader where
  channel : Option (List UInt8)
  remaining : Option Nat
  finisher : Option (List UInt8 → Reply StreamError)
  finishing : Option (Reply StreamError)
  done : Bool
  log : List Event

abbrev Outcome := Poll (Except StreamError (List UInt8))

namespace ChannelReader

def new (output : List UInt8) (remaining : Option Nat)
    (finisher : List UInt8 → Reply StreamError) : ChannelReader :=
  ⟨some output, remaining, some finisher, none, false, []⟩

def startFinishing (reader : ChannelReader) : ChannelReader :=
  match reader.channel, reader.finisher with
  | some output, some finisher =>
    { reader with
      channel := none
      finisher := none
      finishing := some (finisher output)
      log := reader.log ++ [.finishing output] }
  | _, _ => { reader with channel := none, finisher := none }

/-- One round of the loop of `poll_read`, which is over when there is an outcome. -/
def turn (read : Read) (reader : ChannelReader) : ChannelReader × Option Outcome :=
  if reader.done then (reader, some (.ready (.ok [])))
  else
    match reader.finishing with
    | some ⟨delay + 1, result⟩ =>
      ({ reader with finishing := some ⟨delay, result⟩ }, some .pending)
    | some ⟨0, result⟩ =>
      ({ reader with
        finishing := none
        done := true
        log := reader.log ++ [.finished result.isOk] }, some (.ready (result.map fun _ => [])))
    | none =>
      if reader.remaining = some 0 then (reader.startFinishing, none)
      else
        match reader.channel with
        | none => ({ reader with done := true }, none)
        | some output =>
          match read.arrival with
          | .nothing true => (reader, some (.ready (.error .timedOut)))
          | .nothing false => (reader, some .pending)
          | .broken text => (reader, some (.ready (.error (.broken text))))
          | .arrived more =>
            let limit := min ((reader.remaining.map (min read.room)).getD read.room) chunk
            let piece := output.take (min (more + 1) limit)
            if piece = [] then
              if reader.remaining.isSome then (reader, some (.ready (.error .earlyEnd)))
              else (reader.startFinishing, none)
            else
              ({ reader with
                channel := some (output.drop piece.length)
                remaining := reader.remaining.map fun left => left - piece.length },
                some (.ready (.ok piece)))

/-- Some rounds of the loop; there is no outcome when they are not enough. -/
def rounds (read : Read) : Nat → ChannelReader → Option (ChannelReader × Outcome)
  | 0, _ => none
  | count + 1, reader =>
    match reader.turn read with
    | (reader, some outcome) => some (reader, outcome)
    | (reader, none) => rounds read count reader

/-- Three rounds are enough for every reader that is new or was read from. -/
def pollRead (reader : ChannelReader) (read : Read) : ChannelReader × Outcome :=
  (rounds read 3 reader).getD (reader, .pending)

/-- The reader after some reads. -/
def after : ChannelReader → List Read → ChannelReader
  | reader, [] => reader
  | reader, read :: reads => after (reader.pollRead read).1 reads

/-- What the reads report. -/
def trace : ChannelReader → List Read → List Outcome
  | _, [] => []
  | reader, read :: reads => (reader.pollRead read).2 :: trace (reader.pollRead read).1 reads

end ChannelReader

def pieceOf : Outcome → List UInt8
  | .ready (.ok piece) => piece
  | _ => []

def delivered (outcomes : List Outcome) : List UInt8 := outcomes.flatMap pieceOf

def IsError (outcome : Outcome) : Prop := ∃ err, outcome = .ready (.error err)

def endOfFile : Outcome := .ready (.ok [])

/-! ### Stages of a download -/

section Stages

variable (output : List UInt8) (size : Nat) (finisher : List UInt8 → Reply StreamError)

/-- What was reported so far, and the reader: it waits for the rest of the content, or for its
finisher, or all is over. -/
inductive Stage : ChannelReader → List Outcome → Prop
  | reading {rest : List UInt8} {left : Nat} {outcomes : List Outcome}
      (isOutput : output = delivered outcomes ++ rest)
      (isSize : size = (delivered outcomes).length + left) (noEnd : endOfFile ∉ outcomes) :
      Stage ⟨some rest, some left, some finisher, none, false, []⟩ outcomes
  | finishing {delay : Nat} {outcomes : List Outcome} (enough : size ≤ output.length)
      (isContent : delivered outcomes = output.take size) (noEnd : endOfFile ∉ outcomes) :
      Stage ⟨none, some 0, none, some ⟨delay, (finisher (output.drop size)).result⟩, false,
        [.finishing (output.drop size)]⟩ outcomes
  | finished {outcomes : List Outcome} (enough : size ≤ output.length)
      (isContent : delivered outcomes = output.take size)
      (isOk : (finisher (output.drop size)).result = .ok () ∨ ∃ outcome ∈ outcomes, IsError outcome) :
      Stage ⟨none, some 0, none, none, true,
        [.finishing (output.drop size), .finished (finisher (output.drop size)).result.isOk]⟩ outcomes

variable {output size finisher}

theorem delivered_append (outcomes : List Outcome) (outcome : Outcome) :
    delivered (outcomes ++ [outcome]) = delivered outcomes ++ pieceOf outcome := by
  simp [delivered]

theorem endOfFile_not_mem {outcomes : List Outcome} {outcome : Outcome}
    (noEnd : endOfFile ∉ outcomes) (notEnd : outcome ≠ endOfFile) :
    endOfFile ∉ outcomes ++ [outcome] := by
  rw [List.mem_append, List.mem_singleton, not_or]
  exact ⟨noEnd, notEnd.symm⟩

theorem Stage.append {rest : List UInt8} {left : Nat} {outcomes : List Outcome} {outcome : Outcome}
    (isOutput : output = delivered outcomes ++ (pieceOf outcome ++ rest))
    (isSize : size = (delivered outcomes).length + ((pieceOf outcome).length + left))
    (noEnd : endOfFile ∉ outcomes) (notEnd : outcome ≠ endOfFile) :
    Stage output size finisher ⟨some rest, some left, some finisher, none, false, []⟩
      (outcomes ++ [outcome]) := by
  apply Stage.reading
  · rw [isOutput, delivered_append, List.append_assoc]
  · rw [isSize, delivered_append, List.length_append, Nat.add_assoc]
  · exact endOfFile_not_mem noEnd notEnd

theorem Stage.append_nothing {rest : List UInt8} {left : Nat} {outcomes : List Outcome}
    {outcome : Outcome} (isOutput : output = delivered outcomes ++ rest)
    (isSize : size = (delivered outcomes).length + left) (noEnd : endOfFile ∉ outcomes)
    (noPiece : pieceOf outcome = []) (notEnd : outcome ≠ endOfFile) :
    Stage output size finisher ⟨some rest, some left, some finisher, none, false, []⟩
      (outcomes ++ [outcome]) := by
  apply Stage.append _ _ noEnd notEnd
  · rw [noPiece, isOutput, List.nil_append]
  · rw [noPiece, isSize, List.length_nil, Nat.zero_add]

/-- The bytes that a read takes of the rest. -/
def nextPiece (rest : List UInt8) (left more room : Nat) : List UInt8 :=
  rest.take (min (more + 1) (min (min room left) chunk))

theorem nextPiece_eq_nil {rest : List UInt8} {left more room : Nat} (positive : 0 < room) :
    nextPiece rest (left + 1) more room = [] ↔ rest = [] := by
  have chunkPositive : 0 < chunk := by decide
  have some_ : min (more + 1) (min (min room (left + 1)) chunk) ≠ 0 := by omega
  rw [nextPiece, List.take_eq_nil_iff, or_iff_right some_]

theorem length_nextPiece_le (rest : List UInt8) (left more room : Nat) :
    (nextPiece rest left more room).length ≤ left := by
  rw [nextPiece, List.length_take]
  omega

theorem nextPiece_append (rest : List UInt8) (left more room : Nat) :
    nextPiece rest left more room ++ rest.drop (nextPiece rest left more room).length = rest :=
  List.prefix_iff_eq_append.mp (List.take_prefix _ _)

namespace ChannelReader

theorem turn_arrived (rest : List UInt8) (left more room : Nat) :
    turn ⟨.arrived more, room⟩ ⟨some rest, some (left + 1), some finisher, none, false, []⟩ =
      if nextPiece rest (left + 1) more room = [] then
        (⟨some rest, some (left + 1), some finisher, none, false, []⟩,
          some (.ready (.error .earlyEnd)))
      else
        (⟨some (rest.drop (nextPiece rest (left + 1) more room).length),
            some (left + 1 - (nextPiece rest (left + 1) more room).length), some finisher, none,
            false, []⟩,
          some (.ready (.ok (nextPiece rest (left + 1) more room)))) := rfl

theorem rounds_of_outcome {reader next : ChannelReader} {read : Read} {outcome : Outcome}
    (isTurn : reader.turn read = (next, some outcome)) (count : Nat) :
    rounds read (count + 1) reader = some (next, outcome) := by
  rw [rounds, isTurn]

theorem rounds_of_continue {reader next : ChannelReader} {read : Read}
    (isTurn : reader.turn read = (next, none)) (count : Nat) :
    rounds read (count + 1) reader = rounds read count next := by
  rw [rounds, isTurn]

end ChannelReader

open ChannelReader

theorem turn_finishing {delay : Nat} {outcomes : List Outcome} (enough : size ≤ output.length)
    (isContent : delivered outcomes = output.take size) (noEnd : endOfFile ∉ outcomes) (read : Read) :
    ∃ next outcome,
      turn read ⟨none, some 0, none, some ⟨delay, (finisher (output.drop size)).result⟩, false,
        [.finishing (output.drop size)]⟩ = (next, some outcome) ∧
      next.log.head? = some (.finishing (output.drop size)) ∧
      Stage output size finisher next (outcomes ++ [outcome]) := by
  cases delay with
  | succ delay =>
    refine ⟨_, .pending, rfl, rfl, .finishing enough ?_ (endOfFile_not_mem noEnd nofun)⟩
    rw [delivered_append, isContent]
    exact List.append_nil _
  | zero =>
    refine ⟨_, _, rfl, rfl, .finished enough ?_ ?_⟩
    · rw [delivered_append, isContent]
      cases (finisher (output.drop size)).result <;> exact List.append_nil _
    · cases isResult : (finisher (output.drop size)).result with
      | error err => exact .inr ⟨.ready (.error err), by simp [Except.map], err, rfl⟩
      | ok done => exact .inl rfl

/-- A reader that waits for the rest takes one round more when there is none. -/
theorem turn_reading {rest : List UInt8} {left : Nat} {outcomes : List Outcome}
    (isOutput : output = delivered outcomes ++ rest)
    (isSize : size = (delivered outcomes).length + (left + 1)) (noEnd : endOfFile ∉ outcomes)
    {read : Read} (room : 0 < read.room) :
    ∃ next outcome,
      turn read ⟨some rest, some (left + 1), some finisher, none, false, []⟩ = (next, some outcome) ∧
      Stage output size finisher next (outcomes ++ [outcome]) := by
  obtain ⟨arrival, asked⟩ := read
  cases arrival with
  | nothing expired =>
    cases expired with
    | true => exact ⟨_, _, rfl, .append_nothing isOutput isSize noEnd rfl nofun⟩
    | false => exact ⟨_, _, rfl, .append_nothing isOutput isSize noEnd rfl nofun⟩
  | broken text => exact ⟨_, _, rfl, .append_nothing isOutput isSize noEnd rfl nofun⟩
  | arrived more =>
    rw [turn_arrived]
    split_ifs with atEnd
    · exact ⟨_, _, rfl, .append_nothing isOutput isSize noEnd rfl nofun⟩
    · have short := length_nextPiece_le rest (left + 1) more asked
      refine ⟨_, _, rfl, .append ?_ ?_ noEnd ?_⟩
      · rw [isOutput, pieceOf, nextPiece_append]
      · rw [isSize, pieceOf]
        omega
      · simpa [endOfFile] using atEnd

theorem turn_last {rest : List UInt8} {outcomes : List Outcome}
    (isOutput : output = delivered outcomes ++ rest) (isSize : size = (delivered outcomes).length)
    (read : Read) :
    turn read ⟨some rest, some 0, some finisher, none, false, []⟩ =
      (⟨none, some 0, none, some ⟨(finisher rest).delay, (finisher (output.drop size)).result⟩, false,
        [.finishing (output.drop size)]⟩, none) ∧
      size ≤ output.length ∧ delivered outcomes = output.take size := by
  have isRest : output.drop size = rest := by rw [isOutput, isSize, List.drop_left]
  refine ⟨?_, ?_, ?_⟩
  · rw [isRest]
    rfl
  · rw [isOutput, isSize, List.length_append]
    omega
  · rw [isOutput, isSize, List.take_left]

/-- A read leads from one stage to the next. -/
theorem pollRead_stage {reader : ChannelReader} {outcomes : List Outcome}
    (stage : Stage output size finisher reader outcomes) {read : Read} (room : 0 < read.room) :
    Stage output size finisher (reader.pollRead read).1 (outcomes ++ [(reader.pollRead read).2]) := by
  cases stage with
  | @reading rest left _ isOutput isSize noEnd =>
    cases left with
    | succ left =>
      obtain ⟨next, outcome, isTurn, stage⟩ := turn_reading isOutput isSize noEnd room
      rw [pollRead, rounds_of_outcome isTurn]
      exact stage
    | zero =>
      obtain ⟨isLast, enough, isContent⟩ := turn_last isOutput isSize read
      obtain ⟨next, outcome, isTurn, -, stage⟩ := turn_finishing enough isContent noEnd read
      rw [pollRead, rounds_of_continue isLast, rounds_of_outcome isTurn]
      exact stage
  | finishing enough isContent noEnd =>
    obtain ⟨next, outcome, isTurn, -, stage⟩ := turn_finishing enough isContent noEnd read
    rw [pollRead, rounds_of_outcome isTurn]
    exact stage
  | finished enough isContent isOk =>
    refine .finished enough ?_ ?_
    · rw [delivered_append, isContent]
      exact List.append_nil _
    · rcases isOk with isOk | ⟨outcome, member, isError⟩
      · exact .inl isOk
      · exact .inr ⟨outcome, List.mem_append_left _ member, isError⟩

theorem stage_after {reader : ChannelReader} {outcomes : List Outcome}
    (stage : Stage output size finisher reader outcomes) (reads : List Read)
    (room : ∀ read ∈ reads, 0 < read.room) :
    Stage output size finisher (reader.after reads) (outcomes ++ reader.trace reads) := by
  induction reads generalizing reader outcomes with
  | nil =>
    rw [trace, List.append_nil]
    exact stage
  | cons read reads ih =>
    rw [List.forall_mem_cons] at room
    have next := ih (pollRead_stage stage room.1) room.2
    rw [List.append_assoc] at next
    exact next

/-! ### Exact downloads -/

/-- What holds of a reader behind some reads: it delivers the content and nothing of the reply,
gives its finisher the reply once when the content is complete, and tells the end of the file only
if that succeeded; where the output is too short its end is an error. -/
structure Exact (output : List UInt8) (size : Nat) (finisher : List UInt8 → Reply StreamError)
    (reader : ChannelReader) (outcomes : List Outcome) : Prop where
  content : delivered outcomes <+: output.take size
  finishes : reader.log = [] ∨ size ≤ output.length ∧ delivered outcomes = output.take size ∧
    (reader.log = [.finishing (output.drop size)] ∨ reader.log = [.finishing (output.drop size),
      .finished (finisher (output.drop size)).result.isOk])
  progress : (delivered outcomes).length < size → delivered outcomes ≠ output → ∀ more room,
    0 < room → ∃ piece, piece ≠ [] ∧
      (reader.pollRead ⟨.arrived more, room⟩).2 = .ready (.ok piece)
  starts : size ≤ output.length → delivered outcomes = output.take size → ∀ read,
    (reader.pollRead read).1.log.head? = some (.finishing (output.drop size))
  ends : (∀ outcome ∈ outcomes, ¬ IsError outcome) → ∀ read, 0 < read.room →
    (reader.pollRead read).2 = endOfFile → size ≤ output.length ∧
      delivered outcomes = output.take size ∧ (finisher (output.drop size)).result = .ok () ∧
      (reader.pollRead read).1.log = [.finishing (output.drop size), .finished true]
  noEnd : output.length < size → endOfFile ∉ outcomes
  earlyEnd : output.length < size → delivered outcomes = output → ∀ more room, 0 < room →
    (reader.pollRead ⟨.arrived more, room⟩).2 = .ready (.error .earlyEnd)

namespace Stage

variable {reader : ChannelReader} {outcomes : List Outcome}
  (stage : Stage output size finisher reader outcomes)

include stage

theorem content : delivered outcomes <+: output.take size := by
  cases stage with
  | reading isOutput isSize noEnd =>
    rw [List.prefix_take_iff, isSize, isOutput]
    exact ⟨List.prefix_append _ _, Nat.le_add_right _ _⟩
  | finishing enough isContent noEnd => exact isContent ▸ List.prefix_rfl
  | finished enough isContent isOk => exact isContent ▸ List.prefix_rfl

theorem finishes : reader.log = [] ∨ size ≤ output.length ∧
    delivered outcomes = output.take size ∧ (reader.log = [.finishing (output.drop size)] ∨
      reader.log = [.finishing (output.drop size),
        .finished (finisher (output.drop size)).result.isOk]) := by
  cases stage with
  | reading isOutput isSize noEnd => exact .inl rfl
  | finishing enough isContent noEnd => exact .inr ⟨enough, isContent, .inl rfl⟩
  | finished enough isContent isOk => exact .inr ⟨enough, isContent, .inr rfl⟩

theorem reading_of_short (short : (delivered outcomes).length < size) :
    ∃ rest left, reader = ⟨some rest, some (left + 1), some finisher, none, false, []⟩ ∧
      output = delivered outcomes ++ rest := by
  cases stage with
  | @reading rest left _ isOutput isSize noEnd =>
    obtain ⟨before, rfl⟩ : ∃ before, left = before + 1 := ⟨left - 1, by omega⟩
    exact ⟨rest, before, rfl, isOutput⟩
  | finishing enough isContent noEnd =>
    rw [isContent, List.length_take] at short
    omega
  | finished enough isContent isOk =>
    rw [isContent, List.length_take] at short
    omega

theorem progress (short : (delivered outcomes).length < size) (notAll : delivered outcomes ≠ output)
    (more : Nat) {room : Nat} (positive : 0 < room) : ∃ piece, piece ≠ [] ∧
      (reader.pollRead ⟨.arrived more, room⟩).2 = .ready (.ok piece) := by
  obtain ⟨rest, left, rfl, isOutput⟩ := stage.reading_of_short short
  have notEnd : nextPiece rest (left + 1) more room ≠ [] := by
    rw [Ne, nextPiece_eq_nil positive]
    rintro rfl
    exact notAll (isOutput.trans (List.append_nil _)).symm
  refine ⟨_, notEnd, ?_⟩
  rw [pollRead, rounds_of_outcome ((turn_arrived rest left more room).trans (if_neg notEnd))]
  rfl

theorem earlyEnd (short : output.length < size) (all : delivered outcomes = output) (more : Nat)
    {room : Nat} (positive : 0 < room) :
    (reader.pollRead ⟨.arrived more, room⟩).2 = .ready (.error .earlyEnd) := by
  obtain ⟨rest, left, rfl, isOutput⟩ := stage.reading_of_short (by rw [all]; exact short)
  have atEnd : nextPiece rest (left + 1) more room = [] := by
    rw [nextPiece_eq_nil positive]
    rw [all] at isOutput
    exact List.self_eq_append_right.mp isOutput
  rw [pollRead, rounds_of_outcome ((turn_arrived rest left more room).trans (if_pos atEnd))]
  rfl

theorem starts (enough : size ≤ output.length) (isContent : delivered outcomes = output.take size)
    (read : Read) :
    (reader.pollRead read).1.log.head? = some (.finishing (output.drop size)) := by
  cases stage with
  | @reading rest left _ isOutput isSize noEnd =>
    have length : (delivered outcomes).length = size := by
      rw [isContent, List.length_take, Nat.min_eq_left enough]
    obtain rfl : left = 0 := by omega
    obtain ⟨isLast, enough, isContent⟩ := turn_last isOutput isSize read
    obtain ⟨next, outcome, isTurn, started, -⟩ := turn_finishing enough isContent noEnd read
    rw [pollRead, rounds_of_continue isLast, rounds_of_outcome isTurn]
    exact started
  | finishing enough isContent noEnd =>
    obtain ⟨next, outcome, isTurn, started, -⟩ := turn_finishing enough isContent noEnd read
    rw [pollRead, rounds_of_outcome isTurn]
    exact started
  | finished enough isContent isOk => rfl

theorem ends (noError : ∀ outcome ∈ outcomes, ¬ IsError outcome) {read : Read} (room : 0 < read.room)
    (isEnd : (reader.pollRead read).2 = endOfFile) : size ≤ output.length ∧
      delivered outcomes = output.take size ∧ (finisher (output.drop size)).result = .ok () ∧
      (reader.pollRead read).1.log = [.finishing (output.drop size), .finished true] := by
  have next := pollRead_stage stage room
  rw [isEnd] at next
  generalize (reader.pollRead read).1 = after at next
  cases next with
  | reading isOutput isSize noEnd =>
    exact (noEnd (List.mem_append_right _ (List.mem_singleton_self _))).elim
  | finishing enough isContent noEnd =>
    exact (noEnd (List.mem_append_right _ (List.mem_singleton_self _))).elim
  | finished enough isContent isOk =>
    rw [delivered_append] at isContent
    have isOk : (finisher (output.drop size)).result = .ok () := by
      rcases isOk with isOk | ⟨outcome, member, isError⟩
      · exact isOk
      · rcases List.mem_append.mp member with before | isLast
        · exact (noError outcome before isError).elim
        · obtain ⟨err, isError⟩ := isError
          rw [List.mem_singleton.mp isLast] at isError
          cases isError
    refine ⟨enough, (List.append_nil _).symm.trans isContent, isOk, ?_⟩
    rw [isOk]
    rfl

theorem noEnd (short : output.length < size) : endOfFile ∉ outcomes := by
  cases stage with
  | reading isOutput isSize noEnd => exact noEnd
  | finishing enough isContent noEnd => exact noEnd
  | finished enough isContent isOk => omega

end Stage

theorem reader_exact (output : List UInt8) (size : Nat)
    (finisher : List UInt8 → Reply StreamError) {reads : List Read}
    (room : ∀ read ∈ reads, 0 < read.room) :
    Exact output size finisher ((new output (some size) finisher).after reads)
      ((new output (some size) finisher).trace reads) := by
  have isNew : Stage output size finisher (new output (some size) finisher) [] :=
    .reading rfl (Nat.zero_add size).symm (List.not_mem_nil)
  have stage := stage_after isNew reads room
  rw [List.nil_append] at stage
  exact {
    content := stage.content
    finishes := stage.finishes
    progress := fun short notAll more room => stage.progress short notAll more
    starts := stage.starts
    ends := fun noError read room => stage.ends noError room
    noEnd := stage.noEnd
    earlyEnd := fun short all more room => stage.earlyEnd short all more }

end Stages

end ScpStreams

end Porthmos
