import Mathlib.Data.List.Induction

/-!
# Streams of an FTP transfer

A reader finishes its transfer at the end of the data, and a writer when it is shut down; then the
server confirms the transfer, and its connection goes back to the pool.  Both are polled in any
order, behind the end too.
-/

namespace Porthmos

namespace FtpStreams

inductive Stage
  | streaming
  | finishing
  | done
  deriving DecidableEq

/-- What a poll of the data connection finds, and what the server says about the transfer if it is
finished in that poll. -/
inductive Arrival
  | nothing
  | data (bytes : List UInt8)
  | unexpectedEof
  | broken (text : String)

abbrev Confirmation := Except String Unit

structure Finisher where
  stage : Stage := .streaming
  /-- How often the connection was given back. -/
  givenBack : Nat := 0
  /-- What the server has said at last. -/
  confirmed : Option Confirmation := none

inductive Told
  | pending
  | data (bytes : List UInt8)
  | accepted (count : Nat)
  /-- The end of the file, or that all is written. -/
  | over
  | failed (text : String)

namespace Finisher

def pollFinish (finisher : Finisher) (reply : Option Confirmation) : Finisher × Told :=
  match finisher.stage, reply with
  | .done, _ => (finisher, .over)
  | _, none => ({ finisher with stage := .finishing }, .pending)
  | _, some (.ok ()) => (⟨.done, finisher.givenBack + 1, some (.ok ())⟩, .over)
  | _, some (.error text) => (⟨.done, finisher.givenBack, some (.error text)⟩, .failed text)

def pollRead (finisher : Finisher) (room : Nat) (arrival : Arrival)
    (reply : Option Confirmation) : Finisher × Told :=
  match finisher.stage, arrival with
  | .streaming, .nothing => (finisher, .pending)
  | .streaming, .broken text => (finisher, .failed text)
  | .streaming, .data bytes =>
    if bytes.take room ≠ [] ∨ room = 0 then (finisher, .data (bytes.take room))
    else finisher.pollFinish reply
  | _, _ => finisher.pollFinish reply

/-- `poll_write`, and `poll_flush` where behind the end there is nothing to flush. -/
def pollWrite (finisher : Finisher) (flushes : Bool) (answer : Option (Except String Nat)) :
    Finisher × Told :=
  match finisher.stage, answer with
  | .streaming, none => (finisher, .pending)
  | .streaming, some (.ok count) => (finisher, .accepted count)
  | .streaming, some (.error text) => (finisher, .failed text)
  | _, _ => (finisher, if flushes then .accepted 0 else .failed "the upload is already finished")

end Finisher

/-- A poll, and what it finds. -/
inductive Call
  | read (room : Nat) (arrival : Arrival) (reply : Option Confirmation)
  | write (flushes : Bool) (answer : Option (Except String Nat))
  | shutdown (reply : Option Confirmation)

def Call.next : Call → Finisher → Finisher × Told
  | .read room arrival reply, finisher => finisher.pollRead room arrival reply
  | .write flushes answer, finisher => finisher.pollWrite flushes answer
  | .shutdown reply, finisher => finisher.pollFinish reply

/-- A stream after some polls, and what they have told. -/
def after (calls : List Call) : Finisher × List Told :=
  calls.foldl (fun done call =>
    let (finisher, told) := call.next done.1
    (finisher, done.2 ++ [told])) ({}, [])

/-- The connection is with the pool exactly if the server has confirmed the transfer, and nothing
is over before it has; a failure was told. -/
inductive Sound (told : List Told) : Finisher → Prop
  | unfinished {stage : Stage} (goesOn : stage ≠ .done) (notOver : .over ∉ told) :
      Sound told ⟨stage, 0, none⟩
  | confirmed : Sound told ⟨.done, 1, some (.ok ())⟩
  | failed {text : String} (isTold : .failed text ∈ told) : Sound told ⟨.done, 0, some (.error text)⟩

variable {finisher : Finisher} {told : List Told}

/-- A poll that is not the end of the transfer. -/
theorem Sound.stays (sound : Sound told finisher) {reply : Told} (notOver : reply ≠ .over) :
    Sound (told ++ [reply]) finisher := by
  cases sound with
  | unfinished goesOn noEnd =>
    refine .unfinished goesOn fun isOver => ?_
    rcases List.mem_append.mp isOver with earlier | isLast
    · exact noEnd earlier
    · exact notOver (List.mem_singleton.mp isLast).symm
  | confirmed => exact .confirmed
  | failed isTold => exact .failed (List.mem_append_left _ isTold)

theorem Sound.pollFinish (sound : Sound told finisher) (reply : Option Confirmation) :
    Sound (told ++ [(finisher.pollFinish reply).2]) (finisher.pollFinish reply).1 := by
  cases sound with
  | @unfinished stage goesOn noEnd =>
    have waits : Sound (told ++ [.pending]) ⟨.finishing, 0, none⟩ :=
      (@Sound.unfinished told .finishing nofun noEnd).stays nofun
    have fails (text : String) : Sound (told ++ [.failed text]) ⟨.done, 0, some (.error text)⟩ :=
      .failed (List.mem_append_right _ (List.mem_singleton_self _))
    cases stage with
    | done => exact absurd rfl goesOn
    | streaming | finishing =>
      rcases reply with _ | text | _
      · exact waits
      · exact fails text
      · exact .confirmed
  | confirmed => exact .confirmed
  | failed isTold => exact .failed (List.mem_append_left _ isTold)

theorem Sound.next (sound : Sound told finisher) (call : Call) :
    Sound (told ++ [(call.next finisher).2]) (call.next finisher).1 := by
  cases call with
  | read room arrival reply =>
    unfold Call.next Finisher.pollRead
    dsimp only
    split
    · exact sound.stays nofun
    · exact sound.stays nofun
    · split_ifs
      · exact sound.stays nofun
      · exact sound.pollFinish reply
    · exact sound.pollFinish reply
  | write flushes answer =>
    unfold Call.next Finisher.pollWrite
    dsimp only
    split
    · exact sound.stays nofun
    · exact sound.stays nofun
    · exact sound.stays nofun
    · cases flushes <;> exact sound.stays nofun
  | shutdown reply => exact sound.pollFinish reply

/-- However a stream is polled, its connection was given back once if the server has confirmed the
transfer, and else never; and where the end was told, the server has confirmed the transfer or its
failure was told. -/
theorem givenBack_of_calls (calls : List Call) :
    (after calls).1.givenBack = (if (after calls).1.confirmed = some (.ok ()) then 1 else 0) ∧
    (.over ∈ (after calls).2 → (after calls).1.confirmed = some (.ok ()) ∨
      ∃ text, (after calls).1.confirmed = some (.error text) ∧ .failed text ∈ (after calls).2) := by
  have sound : Sound (after calls).2 (after calls).1 := by
    induction calls using List.reverseRecOn with
    | nil => exact .unfinished nofun nofun
    | append_singleton calls call ih =>
      unfold after at ih ⊢
      rw [List.foldl_append]
      exact ih.next call
  generalize after calls = done at sound
  obtain ⟨finisher, told⟩ := done
  cases sound with
  | unfinished goesOn notOver => exact ⟨rfl, fun isOver => absurd isOver notOver⟩
  | confirmed => exact ⟨rfl, fun _ => .inl rfl⟩
  | failed isTold => exact ⟨rfl, fun _ => .inr ⟨_, rfl, isTold⟩⟩

end FtpStreams

end Porthmos
