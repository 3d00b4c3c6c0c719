import Porthmos.S3Attempts
import Mathlib.Data.List.Infix

/-!
# What a writer leaves behind

While a writer is open, the parts before the one it fills are in place and its buffer is the
beginning of that part.  A part that fails leaves the writer of no use, and a shutdown sends the
buffer as it is.
-/

namespace Porthmos

namespace MultipartWriter

/-- The first part that the service has not confirmed. -/
def unsent (writer : MultipartWriter) : Nat :=
  match writer.pending with
  | none => writer.next
  | some (number, _) => number

/-- The writer sends nothing more. -/
structure Dead (writer : MultipartWriter) : Prop where
  idle : writer.pending = none
  isStaged : writer.finish = false
  empty : writer.buffer = [] ∧ writer.sent = true ∨ writer.next > maxParts

end MultipartWriter

namespace Staged

open Program MultipartWriter

variable {staged : Staged} {service : S3Service} {id : String} {position : Nat}
variable {writer : MultipartWriter}

/-- A writer that has taken the source up to `position`. -/
structure Filled (staged : Staged) (writer : MultipartWriter) (position : Nat) : Prop where
  place : writer.bucket = staged.bucket ∧ writer.key = staged.key
  isStaged : writer.finish = false
  positive : 1 ≤ writer.next
  pending : ∀ number data, writer.pending = some (number, data) → 1 ≤ number ∧
    number + 1 = writer.next ∧ data = staged.part number ∧ writer.buffer = [] ∧ writer.sent = true
  buffered : writer.buffer =
    (staged.source.drop ((writer.next - 1) * partSize)).take writer.buffer.length
  room : writer.buffer.length < partSize
  counted : (writer.next - 1) * partSize + writer.buffer.length = position
  inside : position ≤ staged.source.length
  begun : writer.next = 1 ↔ writer.fresh = true ∧ writer.sent = false

/-- It writes to an upload that has the parts before. -/
structure Writing (staged : Staged) (service : S3Service) (writer : MultipartWriter)
    (position : Nat) : Prop where
  isOpen : staged.Open service writer.id writer.unsent
  filled : staged.Filled writer position

/-- An operation of a writer either succeeds or leaves it dead. -/
def Reported {α : Type} (staged : Staged) (holds : MultipartWriter → α → S3Service → Prop) :
    Except ProtocolError (Reports α) → S3Service → Prop
  | .ok (writer, .ok value), after => holds writer value after
  | .ok (writer, .error _), after => staged.Sound after ∧ writer.Dead
  | .error _, _ => False

theorem reported_bind {α β : Type} {pre : S3Service → Prop}
    {holds : MultipartWriter → α → S3Service → Prop}
    {ends : MultipartWriter → β → S3Service → Prop} {program : S3Program (Reports α)}
    {next : Reports α → S3Program (Reports β)}
    (first : Ensures staged.policy.serves pre program (staged.Reported holds))
    (rest : ∀ writer value, Ensures staged.policy.serves (holds writer value)
      (next (writer, .ok value)) (staged.Reported ends))
    (gives : ∀ writer err, next (writer, .error err) = .done (.ok (writer, .error err))) :
    Ensures staged.policy.serves pre (program.bind next) (staged.Reported ends) := by
  apply first.bind
  · rintro ⟨writer, err | value⟩
    · rw [gives]
      exact ensures_done fun _ dead => dead
    · exact rest writer value
  · intro _ _ failed
    exact failed.elim

/-! ### Sending what is on its way -/

theorem unsent_of_none (idle : writer.pending = none) : writer.unsent = writer.next := by
  unfold unsent
  rw [idle]

theorem Filled.sent (filled : staged.Filled writer position) :
    staged.Filled { writer with pending := none } position where
  place := filled.place
  isStaged := filled.isStaged
  positive := filled.positive
  pending := fun _ _ isPending => by cases isPending
  buffered := filled.buffered
  room := filled.room
  counted := filled.counted
  inside := filled.inside
  begun := filled.begun

theorem Filled.within (filled : staged.Filled writer position) {number : Nat} {data : List UInt8}
    (isPending : writer.pending = some (number, data)) : number ≤ staged.lastPart := by
  obtain ⟨positive, isNext, _, empty, _⟩ := filled.pending number data isPending
  have inside := filled.counted.trans_le filled.inside
  have pos := partSize_pos
  obtain ⟨earlier, rfl⟩ := Nat.exists_eq_add_of_le' positive
  rw [empty, ← isNext, Nat.add_sub_cancel, Nat.succ_mul] at inside
  apply le_lastPart
  rw [Nat.add_sub_cancel]
  omega

theorem pollPending_spec (filled : staged.Filled writer position) :
    Ensures staged.policy.serves (fun state => staged.Open state writer.id writer.unsent)
      writer.pollPending (staged.Reported fun after _ state =>
        after = { writer with pending := none } ∧ staged.Open state writer.id writer.next) := by
  unfold pollPending
  cases isPending : writer.pending with
  | none =>
    apply ensures_done
    intro state isOpen
    rw [unsent_of_none isPending] at isOpen
    refine ⟨?_, isOpen⟩
    rw [← isPending]
  | some sending =>
    obtain ⟨number, data⟩ := sending
    obtain ⟨positive, isNext, isPart, empty, isSent⟩ := filled.pending number data isPending
    have isUnsent : writer.unsent = number := by
      unfold unsent
      rw [isPending]
    rw [isUnsent, ← isNext, filled.place.1, filled.place.2]
    apply ensures_bind fun result after => ∃ report, result = .ok report ∧ staged.Sound after ∧
      (report = .ok () → staged.Open after writer.id (number + 1))
    · apply ensures_attempt _
        (sendPart_spec positive (filled.within isPending) (isPart ▸ List.prefix_rfl))
      rintro result state ⟨sound, goesOn⟩
      exact ⟨result, rfl, sound, fun isOk => goesOn isOk isPart⟩
    · intro report
      apply ensures_done
      rintro state ⟨_, ⟨⟩, sound, goesOn⟩
      cases report with
      | ok _ => exact ⟨rfl, goesOn rfl⟩
      | error err => exact ⟨sound, rfl, filled.isStaged, Or.inl ⟨empty, isSent⟩⟩
    · rintro err state ⟨_, failed, _⟩
      cases failed

/-! ### Taking bytes -/

/-- What `accept` makes of the next bytes of the source. -/
theorem Filled.accept (filled : staged.Filled writer position) (idle : writer.pending = none)
    {bytes : List UInt8} (isNext : bytes <+: staged.source.drop position) :
    match writer.accept bytes with
    | (after, .ok accepted) => after.id = writer.id ∧ after.unsent = writer.next ∧
        accepted ≤ bytes.length ∧ (bytes ≠ [] → 0 < accepted) ∧
        staged.Filled after (position + accepted)
    | (after, .error _) => after.Dead := by
  have room := filled.room
  have counted := filled.counted
  generalize isAccepted : min bytes.length (partSize - writer.buffer.length) = accepted
  have atMost : accepted ≤ bytes.length := isAccepted ▸ Nat.min_le_left _ _
  have fits : writer.buffer.length + accepted ≤ partSize := by omega
  have taken : (bytes.take accepted).length = accepted := List.length_take_of_le atMost
  have isBuffer : writer.buffer ++ bytes.take accepted =
      (staged.source.drop ((writer.next - 1) * partSize)).take (writer.buffer.length + accepted) := by
    have isTaken : bytes.take accepted = (staged.source.drop position).take accepted := by
      rw [List.prefix_iff_eq_take.mp isNext, List.take_take, Nat.min_eq_left atMost]
    rw [List.take_add, ← filled.buffered, List.drop_drop, counted, isTaken]
  have inSource : position + accepted ≤ staged.source.length := by
    have length := isNext.length_le
    have inside := filled.inside
    rw [List.length_drop] at length
    omega
  have length : (writer.buffer ++ bytes.take accepted).length = writer.buffer.length + accepted := by
    rw [List.length_append, taken]
  have progress : bytes ≠ [] → 0 < accepted := by
    intro some
    have length := List.length_pos_iff.mpr some
    omega
  unfold MultipartWriter.accept
  dsimp only
  rw [isAccepted, length]
  split_ifs with isFull
  · unfold startPart
    dsimp only
    split_ifs with tooMany
    · exact ⟨idle, filled.isStaged, Or.inr tooMany⟩
    · refine ⟨rfl, rfl, atMost, progress, ?_⟩
      obtain ⟨before, isBefore⟩ := Nat.exists_eq_add_of_le' filled.positive
      have full : (before + 1) * partSize = before * partSize + partSize := Nat.succ_mul before partSize
      constructor
      · exact filled.place
      · exact filled.isStaged
      · exact Nat.succ_pos _
      · rintro number data ⟨⟩
        refine ⟨filled.positive, rfl, ?_, rfl, rfl⟩
        rw [isBuffer, isFull]
        rfl
      · rfl
      · exact partSize_pos
      · dsimp only [List.length_nil]
        rw [isBefore] at counted ⊢
        rw [Nat.add_sub_cancel] at counted ⊢
        omega
      · exact inSource
      · constructor
        · intro isFirst
          have positive := filled.positive
          dsimp only at isFirst
          omega
        · rintro ⟨_, unsent⟩
          cases unsent
  · refine ⟨rfl, unsent_of_none idle, atMost, progress, ?_⟩
    constructor
    · exact filled.place
    · exact filled.isStaged
    · exact filled.positive
    · intro number data isPending
      rw [idle] at isPending
      cases isPending
    · dsimp only
      rw [length]
      exact isBuffer
    · dsimp only
      omega
    · dsimp only
      omega
    · exact inSource
    · exact filled.begun

theorem pollWrite_spec {bytes : List UInt8} (isNext : bytes <+: staged.source.drop position) :
    Ensures staged.policy.serves (fun state => staged.Writing state writer position)
      (writer.pollWrite bytes) (staged.Reported fun after accepted state =>
        accepted ≤ bytes.length ∧ (bytes ≠ [] → 0 < accepted) ∧
          staged.Writing state after (position + accepted)) := by
  apply ensures_of_pre (staged.Filled writer position) fun _ writing => writing.filled
  intro filled
  apply reported_bind ((pollPending_spec filled).strengthen fun _ writing => writing.isOpen)
  · intro after _
    apply ensures_of_pre (after = { writer with pending := none }) fun _ sent => sent.1
    rintro rfl
    apply ensures_done
    rintro state ⟨_, isOpen⟩
    have taken := filled.sent.accept rfl isNext
    revert taken
    generalize MultipartWriter.accept _ bytes = report
    obtain ⟨after, err | accepted⟩ := report
    · intro dead
      exact ⟨isOpen.sound, dead⟩
    · rintro ⟨sameId, isUnsent, atMost, progress, isFilled⟩
      refine ⟨atMost, progress, ?_, isFilled⟩
      rw [sameId, isUnsent]
      exact isOpen
  · intro _ _
    rfl

theorem writeAll_spec {fuel : Nat} {bytes : List UInt8} (enough : bytes.length ≤ fuel)
    (isNext : bytes <+: staged.source.drop position) :
    Ensures staged.policy.serves (fun state => staged.Writing state writer position)
      (writeAll fuel writer bytes) (staged.Reported fun after _ state =>
        staged.Writing state after (position + bytes.length)) := by
  induction fuel generalizing writer bytes position with
  | zero =>
    obtain rfl : bytes = [] := List.eq_nil_of_length_eq_zero (Nat.le_zero.mp enough)
    exact ensures_done fun _ writing => writing
  | succ fuel ih =>
    cases bytes with
    | nil => exact ensures_done fun _ writing => writing
    | cons first rest =>
      apply reported_bind (pollWrite_spec isNext)
      · intro after accepted
        apply ensures_of_pre (accepted ≤ (first :: rest).length ∧ 0 < accepted) fun _ wrote =>
          ⟨wrote.1, wrote.2.1 (List.cons_ne_nil _ _)⟩
        rintro ⟨atMost, progress⟩
        have remains : ((first :: rest).drop accepted).length + accepted =
            (first :: rest).length := by
          rw [List.length_drop]
          omega
        have isLater : (first :: rest).drop accepted <+:
            staged.source.drop (position + accepted) := by
          rw [← List.drop_drop]
          exact isNext.drop accepted
        have written : Ensures staged.policy.serves
            (fun state => staged.Writing state after (position + accepted))
            (writeAll fuel after ((first :: rest).drop accepted)) _ :=
          ih (by omega) isLater
        rw [Nat.add_assoc, Nat.add_comm accepted, remains] at written
        exact written.strengthen fun _ wrote => wrote.2.2
      · intro _ _
        rfl

theorem writePieces_spec {pieces : List (List UInt8)}
    (isNext : pieces.flatten <+: staged.source.drop position) :
    Ensures staged.policy.serves (fun state => staged.Writing state writer position)
      (writePieces writer pieces) (staged.Reported fun after _ state =>
        staged.Writing state after (position + pieces.flatten.length)) := by
  induction pieces generalizing writer position with
  | nil => exact ensures_done fun _ writing => writing
  | cons piece pieces ih =>
    rw [List.flatten_cons] at isNext
    apply reported_bind (writeAll_spec (le_refl _) ((List.prefix_append piece _).trans isNext))
    · intro after _
      have isLater : pieces.flatten <+: staged.source.drop (position + piece.length) := by
        have rest := isNext.drop piece.length
        rwa [List.drop_left, List.drop_drop] at rest
      have written : Ensures staged.policy.serves
          (fun state => staged.Writing state after (position + piece.length))
          (writePieces after pieces) _ := ih isLater
      rwa [Nat.add_assoc, ← List.length_append, ← List.flatten_cons] at written
    · intro _ _
      rfl

/-! ### Shutdown -/

/-- All parts are in place. -/
structure Finished (staged : Staged) (service : S3Service) (id : String) : Prop where
  sound : staged.Sound service
  known : staged.Known service id
  placed : ∀ number, 1 ≤ number → number ≤ staged.lastPart → staged.Placed service id number

theorem Open.finished {number : Nat} (isOpen : staged.Open service id number)
    (isLast : staged.lastPart < number) : staged.Finished service id where
  sound := isOpen.sound
  known := isOpen.known
  placed := fun earlier first within =>
    isOpen.ready.placed earlier first (Nat.lt_of_le_of_lt within isLast)

theorem lastPart_le {number : Nat} (positive : 1 ≤ number)
    (covers : staged.source.length ≤ number * partSize) : staged.lastPart ≤ number := by
  have pos := partSize_pos
  have below : (staged.source.length + partSize - 1) / partSize < number + 1 := by
    rw [Nat.div_lt_iff_lt_mul pos, Nat.succ_mul]
    omega
  unfold lastPart
  omega

/-- How a shutdown ends, for a writer that has taken everything or not. -/
def Closed (staged : Staged) (position : Nat) :
    Except ProtocolError (Reports Unit) → S3Service → Prop
  | .ok (_, .ok ()), after => staged.Sound after ∧
      (position = staged.source.length → ∃ id, staged.Finished after id)
  | .ok (_, .error _), after => staged.Sound after
  | .error _, _ => False

/-- The last part is sent as the buffer has it. -/
theorem Filled.rest (filled : staged.Filled writer position)
    (isRest : writer.buffer ≠ [] ∨ (writer.fresh = true ∧ ¬writer.sent = true)) :
    writer.next ≤ staged.lastPart ∧ writer.buffer <+: staged.part writer.next ∧
      (position = staged.source.length → writer.buffer = staged.part writer.next ∧
        staged.lastPart < writer.next + 1) := by
  have counted := filled.counted
  have inside := filled.inside
  have room := filled.room
  have isPrefix : writer.buffer <+: staged.part writer.next := by
    rw [filled.buffered]
    exact List.take_prefix_take_left room.le
  refine ⟨?_, isPrefix, ?_⟩
  · rcases isRest with some | ⟨fresh, unsent⟩
    · have length := List.length_pos_iff.mpr some
      apply le_lastPart
      omega
    · have isFirst := filled.begun.mpr ⟨fresh, Bool.eq_false_iff.mpr unsent⟩
      rw [isFirst]
      exact le_max_left _ _
  · intro isAll
    constructor
    · apply isPrefix.eq_of_length_le
      rw [length_part]
      omega
    · apply Nat.lt_succ_of_le
      apply lastPart_le filled.positive
      obtain ⟨before, isBefore⟩ := Nat.exists_eq_add_of_le' filled.positive
      have full : (before + 1) * partSize = before * partSize + partSize := Nat.succ_mul _ _
      rw [isBefore, Nat.add_sub_cancel] at counted
      rw [isBefore]
      omega

theorem Filled.noRest (filled : staged.Filled writer position)
    (noRest : ¬(writer.buffer ≠ [] ∨ (writer.fresh = true ∧ ¬writer.sent = true)))
    (isAll : position = staged.source.length) : staged.lastPart < writer.next := by
  have positive := filled.positive
  have counted := filled.counted
  have empty : writer.buffer = [] := by
    by_contra some
    exact noRest (Or.inl some)
  have later : writer.next ≠ 1 := by
    intro isFirst
    obtain ⟨fresh, unsent⟩ := filled.begun.mp isFirst
    exact noRest (Or.inr ⟨fresh, Bool.eq_false_iff.mp unsent⟩)
  have covers : staged.lastPart ≤ writer.next - 1 := by
    apply lastPart_le (by omega)
    rw [empty, List.length_nil] at counted
    omega
  omega

theorem sendRest_spec (filled : staged.Filled writer position) :
    Ensures staged.policy.serves (fun state => staged.Open state writer.id writer.next)
      writer.sendRest fun result after => ∃ writer report, result = .ok (writer, report) ∧
        writer.finish = false ∧ staged.Sound after ∧ (report = .ok () →
          position = staged.source.length → ∃ id, staged.Finished after id) := by
  unfold sendRest
  split_ifs with isRest
  · obtain ⟨within, isPrefix, whole⟩ := filled.rest isRest
    unfold startPart
    split_ifs with tooMany
    · apply ensures_done
      intro state isOpen
      exact ⟨writer, _, rfl, filled.isStaged, isOpen.sound, fun isOk => by cases isOk⟩
    · unfold pollPending
      dsimp only
      rw [filled.place.1, filled.place.2]
      apply ensures_bind fun result after => ∃ report, result = .ok report ∧ staged.Sound after ∧
        (report = .ok () → position = staged.source.length → ∃ id, staged.Finished after id)
      · apply ensures_attempt _ (sendPart_spec filled.positive within isPrefix)
        rintro result state ⟨sound, goesOn⟩
        refine ⟨result, rfl, sound, ?_⟩
        intro isOk isAll
        obtain ⟨isPart, isLast⟩ := whole isAll
        exact ⟨writer.id, (goesOn isOk isPart).finished isLast⟩
      · intro report
        apply ensures_done
        rintro state ⟨_, ⟨⟩, sound, finished⟩
        exact ⟨_, report, rfl, filled.isStaged, sound, finished⟩
      · rintro err state ⟨_, failed, _⟩
        cases failed
  · apply ensures_done
    intro state isOpen
    refine ⟨writer, .ok (), rfl, filled.isStaged, isOpen.sound, ?_⟩
    intro _ isAll
    exact ⟨writer.id, isOpen.finished (filled.noRest isRest isAll)⟩

theorem pollShutdown_spec : Ensures staged.policy.serves
    (fun state => staged.Writing state writer position) writer.pollShutdown
      (staged.Closed position) := by
  apply ensures_of_pre (staged.Filled writer position) fun _ writing => writing.filled
  intro filled
  apply ((pollPending_spec filled).strengthen fun _ writing => writing.isOpen).bind
  · rintro ⟨after, err | _⟩
    · apply ensures_done
      rintro state ⟨sound, _⟩
      exact sound
    · apply ensures_of_pre (after = { writer with pending := none }) fun _ sent => sent.1
      rintro rfl
      apply ((sendRest_spec filled.sent).strengthen fun _ sent => sent.2).bind
      · rintro ⟨last, err | _⟩
        · apply ensures_done
          rintro state ⟨_, _, ⟨⟩, _, sound, _⟩
          exact sound
        · apply ensures_of_pre (last.finish = false)
          · rintro state ⟨_, _, ⟨⟩, isStaged, _⟩
            exact isStaged
          · intro isStaged
            dsimp only
            rw [isStaged]
            apply ensures_done
            rintro state ⟨_, _, ⟨⟩, _, sound, finished⟩
            exact ⟨sound, finished rfl⟩
      · rintro err state ⟨_, _, failed, _⟩
        cases failed
  · intro err state failed
    exact failed.elim

/-- A dead writer asks for nothing more. -/
theorem pollShutdown_dead (dead : writer.Dead) : Ensures staged.policy.serves staged.Sound
    writer.pollShutdown fun _ after => staged.Sound after := by
  have ends : ∃ report, writer.pollShutdown = .done (.ok report) := by
    unfold pollShutdown pollPending
    rw [dead.idle]
    change ∃ report, (writer.sendRest.bind _) = _
    unfold sendRest
    split_ifs with isRest
    · rcases dead.empty with ⟨empty, isSent⟩ | tooMany
      · rcases isRest with some | ⟨_, unsent⟩
        · exact absurd empty some
        · exact absurd isSent unsent
      · unfold startPart
        rw [if_pos tooMany]
        exact ⟨_, rfl⟩
    · change ∃ report, (if writer.finish = true then _ else _) = _
      rw [dead.isStaged]
      exact ⟨_, rfl⟩
  obtain ⟨report, isDone⟩ := ends
  rw [isDone]
  exact ensures_done fun _ sound => sound

end Staged

end Porthmos
