import Porthmos.S3Service

/-!
# What is staged of a source

Part number `n` of a source has its bytes from place `(n - 1) * partSize` on.  A part that was
stored by an attempt is the beginning of that part, and a full one is the part itself; so whatever
is listed, the full parts from the first on can be kept.
-/

namespace Porthmos

/-- What is uploaded to which key, and what the account may do. -/
structure Staged where
  policy : S3Policy
  source : List UInt8
  bucket : String
  key : String

namespace Staged

section Parts

variable (staged : Staged)

def part (number : Nat) : List UInt8 :=
  (staged.source.drop ((number - 1) * partSize)).take partSize

/-- An empty source has one empty part. -/
def lastPart : Nat := max 1 ((staged.source.length + partSize - 1) / partSize)

theorem partSize_pos : 0 < partSize := by decide

theorem length_part (number : Nat) : (staged.part number).length =
    min partSize (staged.source.length - (number - 1) * partSize) := by
  simp [part]

theorem length_part_le (number : Nat) : (staged.part number).length ≤ partSize :=
  List.length_take_le _ _

variable {staged} {number : Nat} {data : List UInt8}

theorem eq_part_of_full (isPrefix : data <+: staged.part number)
    (isFull : data.length = partSize) : data = staged.part number := by
  apply isPrefix.eq_of_length_le
  rw [isFull]
  exact staged.length_part_le number

theorem length_part_of_full (isPrefix : data <+: staged.part number)
    (isFull : data.length = partSize) : (staged.part number).length = partSize := by
  rw [← eq_part_of_full isPrefix isFull]
  exact isFull

theorem mul_le_of_full (positive : 1 ≤ number) (isFull : (staged.part number).length = partSize) :
    number * partSize ≤ staged.source.length := by
  have pos := partSize_pos
  obtain ⟨before, rfl⟩ := Nat.exists_eq_add_of_le' positive
  rw [length_part, Nat.add_sub_cancel] at isFull
  rw [Nat.succ_mul]
  omega

theorem le_lastPart (inside : (number - 1) * partSize < staged.source.length) :
    number ≤ staged.lastPart := by
  have pos := partSize_pos
  have reached : number ≤ (staged.source.length + partSize - 1) / partSize := by
    rw [Nat.le_div_iff_mul_le pos]
    cases number with
    | zero => omega
    | succ before =>
      rw [Nat.add_sub_cancel] at inside
      rw [Nat.succ_mul]
      omega
  unfold lastPart
  omega

theorem length_part_of_lt (positive : 1 ≤ number) (earlier : number < staged.lastPart) :
    (staged.part number).length = partSize := by
  have pos := partSize_pos
  have inside : number + 1 ≤ (staged.source.length + partSize - 1) / partSize := by
    unfold lastPart at earlier
    omega
  rw [Nat.le_div_iff_mul_le pos, Nat.succ_mul] at inside
  obtain ⟨before, rfl⟩ := Nat.exists_eq_add_of_le' positive
  rw [length_part, Nat.add_sub_cancel]
  rw [Nat.succ_mul] at inside
  omega

theorem length_le_lastPart : staged.source.length ≤ staged.lastPart * partSize := by
  have pos := partSize_pos
  have covers := Nat.div_add_mod (staged.source.length + partSize - 1) partSize
  have rest := Nat.mod_lt (staged.source.length + partSize - 1) pos
  have atLeast : (staged.source.length + partSize - 1) / partSize * partSize ≤
      staged.lastPart * partSize := Nat.mul_le_mul_right _ (le_max_right _ _)
  rw [Nat.mul_comm] at covers
  omega

theorem flatten_parts (staged : Staged) (count : Nat) :
    ((List.range' 1 count).map staged.part).flatten = staged.source.take (count * partSize) := by
  induction count with
  | zero => simp
  | succ count ih =>
    rw [List.range'_1_concat, List.map_append, List.flatten_append, ih, Nat.succ_mul, List.take_add]
    congr 1
    simp [part, Nat.add_comm 1 count]

theorem flatten_all (staged : Staged) :
    ((List.range' 1 staged.lastPart).map staged.part).flatten = staged.source := by
  rw [flatten_parts, List.take_of_length_le length_le_lastPart]

end Parts

/-! ### The state of an upload -/

section State

variable (staged : Staged) (service : S3Service)

/-- An upload that the client would find: one that it may list, or one that it remembers. -/
def Known (id : String) : Prop :=
  (staged.policy.listsUploads = true ∧
    ∃ stored ∈ service.uploads, stored.Is staged.bucket staged.key id) ∨
  ∃ upload ∈ service.started, upload.id = id

/-- A part of the source is in its place in an upload, and the client knows it if it may not list
parts. -/
structure Placed (id : String) (number : Nat) : Prop where
  stored : ∀ upload ∈ service.uploads, upload.Is staged.bucket staged.key id →
    (upload.parts.get? number).map StoredPart.data = some (staged.part number)
  noted : staged.policy.listsParts = false → ∀ upload ∈ service.started, upload.id = id →
    (upload.parts.get? number).map Prod.snd = some (staged.part number).length

/-- What attempts leave behind. -/
structure Sound : Prop where
  own : ∀ upload ∈ service.started, upload.bucket = staged.bucket ∧ upload.key = staged.key
  few : service.started.length ≤ 1
  single : ∀ first second, staged.Known service first → staged.Known service second →
    first = second
  distinct : ∀ first ∈ service.uploads, ∀ second ∈ service.uploads, ∀ id,
    first.Is staged.bucket staged.key id → second.Is staged.bucket staged.key id → first = second
  stored : ∀ upload ∈ service.uploads, ∀ id, upload.Is staged.bucket staged.key id →
    ∀ number part, upload.parts.get? number = some part →
      1 ≤ number ∧ number ≤ staged.lastPart ∧ part.data <+: staged.part number
  noted : staged.policy.listsParts = false → ∀ upload ∈ service.started,
    ∀ number etag size, upload.parts.get? number = some (etag, size) →
      1 ≤ number ∧ number ≤ staged.lastPart ∧ size ≤ (staged.part number).length ∧
        (∀ earlier, 1 ≤ earlier → earlier < number → staged.Placed service upload.id earlier) ∧
        (size = partSize → staged.Placed service upload.id number)

/-- Part `number` is the next that may be sent: all before it are in place, and none is noted
after it, nor it itself as a full one. -/
structure Ready (id : String) (number : Nat) : Prop where
  placed : ∀ earlier, 1 ≤ earlier → earlier < number → staged.Placed service id earlier
  last : staged.policy.listsParts = false → ∀ upload ∈ service.started, upload.id = id →
    ∀ other etag size, upload.parts.get? other = some (etag, size) →
      other ≤ number ∧ (other = number → size ≠ partSize)

/-- An upload whose parts before `number` are in place, and that the client finds. -/
structure Open (id : String) (number : Nat) : Prop where
  sound : staged.Sound service
  known : staged.Known service id
  ready : staged.Ready service id number

/-- A list of parts that the client takes for those of an upload. -/
structure Vouched (id : String) (parts : List UploadPart) : Prop where
  numbered : Numbered parts
  within : ∀ part ∈ parts, part.number ≤ staged.lastPart
  placed : ∀ part ∈ parts, part.size = partSize → staged.Placed service id part.number
  full : ∀ part ∈ parts, part.size = partSize → (staged.part part.number).length = partSize
  /-- What is in place is in the list. -/
  complete : ∀ number, 1 ≤ number → staged.Placed service id number →
    parts = [] ∨ ∃ part ∈ parts, part.number = number ∧ part.size = (staged.part number).length
  last : staged.policy.listsParts = false → ∀ upload ∈ service.started, upload.id = id →
    ∀ number etag size, upload.parts.get? number = some (etag, size) →
      ∃ part ∈ parts, part.number = number ∧ part.size = size

end State

/-! ### Changes of the state -/

variable {staged : Staged} {service after : S3Service} {id : String} {number : Nat}

theorem known_of_started {upload : StartedUpload} (member : upload ∈ service.started) :
    staged.Known service upload.id :=
  Or.inr ⟨upload, member, rfl⟩

theorem Known.fewer (known : staged.Known after id)
    (uploads : ∀ upload ∈ after.uploads, upload ∈ service.uploads)
    (started : ∀ upload ∈ after.started, upload ∈ service.started) : staged.Known service id := by
  rcases known with ⟨lists, stored, member, named⟩ | ⟨upload, member, same⟩
  · exact Or.inl ⟨lists, stored, uploads stored member, named⟩
  · exact Or.inr ⟨upload, started upload member, same⟩

theorem Placed.fewer (placed : staged.Placed service id number)
    (uploads : ∀ upload ∈ after.uploads, upload ∈ service.uploads)
    (started : ∀ upload ∈ after.started, upload ∈ service.started) :
    staged.Placed after id number := by
  constructor
  · intro upload member
    exact placed.stored upload (uploads upload member)
  · intro unlisted upload member
    exact placed.noted unlisted upload (started upload member)

/-- What is left after a removal. -/
theorem Sound.fewer (sound : staged.Sound service)
    (uploads : ∀ upload ∈ after.uploads, upload ∈ service.uploads)
    (started : after.started.Sublist service.started) : staged.Sound after := by
  have stays : ∀ upload ∈ after.started, upload ∈ service.started := fun _ member =>
    started.subset member
  constructor
  · intro upload member
    exact sound.own upload (stays upload member)
  · exact started.length_le.trans sound.few
  · intro first second knowsFirst knowsSecond
    exact sound.single first second (knowsFirst.fewer uploads stays)
      (knowsSecond.fewer uploads stays)
  · intro first isFirst second isSecond
    exact sound.distinct first (uploads first isFirst) second (uploads second isSecond)
  · intro upload member
    exact sound.stored upload (uploads upload member)
  · intro unlisted upload member other etag size isNoted
    obtain ⟨positive, within, atMost, earlier, full⟩ :=
      sound.noted unlisted upload (stays upload member) other etag size isNoted
    refine ⟨positive, within, atMost, ?_, ?_⟩
    · intro before first later
      exact (earlier before first later).fewer uploads stays
    · intro isFull
      exact (full isFull).fewer uploads stays

theorem Sound.reconnected (sound : staged.Sound service) :
    staged.Sound { service with started := [] } :=
  sound.fewer (fun _ member => member) (List.nil_sublist _)

/-! A new upload -/

theorem known_withUpload {other : String} {initiated : Option Nat}
    (unknown : ∀ known, ¬staged.Known service known)
    (known : staged.Known (service.withUpload staged.bucket staged.key id initiated) other) :
    other = id := by
  rcases known with ⟨lists, stored, member, named⟩ | ⟨upload, member, _⟩
  · rcases List.mem_append.mp member with isEarlier | isNew
    · exact absurd (Or.inl ⟨lists, stored, isEarlier, named⟩) (unknown other)
    · cases List.mem_singleton.mp isNew
      exact named.2.2.symm
  · exact absurd (Or.inr ⟨upload, member, rfl⟩) (unknown upload.id)

theorem Sound.withUpload {initiated : Option Nat} (sound : staged.Sound service)
    (unknown : ∀ known, ¬staged.Known service known)
    (fresh : ∀ upload ∈ service.uploads, upload.id ≠ id) :
    staged.Sound (service.withUpload staged.bucket staged.key id initiated) := by
  constructor
  · exact sound.own
  · exact sound.few
  · intro first second knowsFirst knowsSecond
    rw [known_withUpload unknown knowsFirst, known_withUpload unknown knowsSecond]
  · intro first isFirst second isSecond other named same
    rcases List.mem_append.mp isFirst with firstEarlier | firstNew
    · rcases List.mem_append.mp isSecond with secondEarlier | secondNew
      · exact sound.distinct first firstEarlier second secondEarlier other named same
      · cases List.mem_singleton.mp secondNew
        exact absurd (named.2.2.trans same.2.2.symm) (fresh first firstEarlier)
    · cases List.mem_singleton.mp firstNew
      rcases List.mem_append.mp isSecond with secondEarlier | secondNew
      · exact absurd (same.2.2.trans named.2.2.symm) (fresh second secondEarlier)
      · exact (List.mem_singleton.mp secondNew).symm
  · intro upload member other named place part found
    rcases List.mem_append.mp member with isEarlier | isNew
    · exact sound.stored upload isEarlier other named place part found
    · cases List.mem_singleton.mp isNew
      rw [OrderedMap.get?_empty] at found
      cases found
  · intro _ upload member
    exact absurd (Or.inr ⟨upload, member, rfl⟩) (unknown upload.id)

/-- The client remembers the upload that was made for it. -/
theorem Sound.remembering (sound : staged.Sound service)
    (known : ∀ other, staged.Known service other → other = id) :
    staged.Open (service.remembering staged.bucket staged.key id) id 1 := by
  have isStarted : (service.remembering staged.bucket staged.key id).started =
      [⟨staged.bucket, staged.key, id, .empty⟩] := by
    unfold S3Service.remembering
    dsimp only
    rw [List.filter_eq_nil_iff.mpr, List.nil_append]
    intro upload member
    have same := known upload.id (known_of_started member)
    simpa using same
  have isNew {upload : StartedUpload}
      (member : upload ∈ (service.remembering staged.bucket staged.key id).started) :
      upload = ⟨staged.bucket, staged.key, id, .empty⟩ := by
    rw [isStarted] at member
    exact List.mem_singleton.mp member
  have only {other : String}
      (isKnown : staged.Known (service.remembering staged.bucket staged.key id) other) :
      other = id := by
    rcases isKnown with listed | ⟨upload, member, same⟩
    · exact known other (Or.inl listed)
    · rw [isNew member] at same
      exact same.symm
  constructor
  · constructor
    · intro upload member
      rw [isNew member]
      exact ⟨rfl, rfl⟩
    · rw [isStarted]
      exact le_refl 1
    · intro first second knowsFirst knowsSecond
      rw [only knowsFirst, only knowsSecond]
    · exact sound.distinct
    · exact sound.stored
    · intro _ upload member other etag size isNoted
      rw [isNew member, OrderedMap.get?_empty] at isNoted
      cases isNoted
  · right
    exact ⟨_, isStarted ▸ List.mem_singleton_self _, rfl⟩
  · constructor
    · intro earlier first later
      omega
    · intro _ upload member _ other etag size isNoted
      rw [isNew member, OrderedMap.get?_empty] at isNoted
      cases isNoted

/-! A part that is sent -/

variable {other : String} {place : Nat} {stored : StoredPart}

theorem get?_withPart {upload : StoredUpload} (named : upload.Is staged.bucket staged.key other)
    (isOther : other ≠ id ∨ place ≠ number) :
    (if upload.Is staged.bucket staged.key id then upload.put number stored
      else upload).parts.get? place = upload.parts.get? place := by
  split_ifs with same
  · have isId : other = id := named.2.2.symm.trans same.2.2
    have different : place ≠ number := isOther.resolve_left fun isNot => isNot isId
    change (upload.parts.insert number stored).get? place = _
    rw [OrderedMap.get?_insert, if_neg different]
  · rfl

theorem is_withPart {upload : StoredUpload} :
    (if upload.Is staged.bucket staged.key id then upload.put number stored else upload).Is
      staged.bucket staged.key other ↔ upload.Is staged.bucket staged.key other := by
  split_ifs
  · exact Iff.rfl
  · exact Iff.rfl

theorem known_withPart :
    staged.Known (service.withPart staged.bucket staged.key id number stored) other ↔
      staged.Known service other := by
  apply or_congr_left
  apply and_congr_right
  intro _
  constructor
  · rintro ⟨_, member, named⟩
    obtain ⟨upload, isEarlier, rfl⟩ := List.mem_map.mp member
    exact ⟨upload, isEarlier, is_withPart.mp named⟩
  · rintro ⟨upload, member, named⟩
    exact ⟨_, List.mem_map_of_mem member, is_withPart.mpr named⟩

theorem Placed.withPart (placed : staged.Placed service other place)
    (isOther : other ≠ id ∨ place ≠ number) :
    staged.Placed (service.withPart staged.bucket staged.key id number stored) other place := by
  constructor
  · intro _ member named
    obtain ⟨upload, isEarlier, rfl⟩ := List.mem_map.mp member
    have isNamed := is_withPart.mp named
    rw [get?_withPart isNamed isOther]
    exact placed.stored upload isEarlier isNamed
  · exact placed.noted

theorem Ready.withPart (ready : staged.Ready service id number) :
    staged.Ready (service.withPart staged.bucket staged.key id number stored) id number := by
  constructor
  · intro earlier first later
    exact (ready.placed earlier first later).withPart (Or.inr (by omega))
  · exact ready.last

/-- The next part is stored, as far as it goes. -/
theorem Sound.withPart (sound : staged.Sound service) (ready : staged.Ready service id number)
    (positive : 1 ≤ number) (within : number ≤ staged.lastPart)
    (isPrefix : stored.data <+: staged.part number) :
    staged.Sound (service.withPart staged.bucket staged.key id number stored) := by
  constructor
  · exact sound.own
  · exact sound.few
  · intro first second knowsFirst knowsSecond
    exact sound.single first second (known_withPart.mp knowsFirst) (known_withPart.mp knowsSecond)
  · intro _ isFirst _ isSecond other named same
    obtain ⟨first, firstEarlier, rfl⟩ := List.mem_map.mp isFirst
    obtain ⟨second, secondEarlier, rfl⟩ := List.mem_map.mp isSecond
    rw [sound.distinct first firstEarlier second secondEarlier other (is_withPart.mp named)
      (is_withPart.mp same)]
  · intro _ member other named place part found
    obtain ⟨upload, isEarlier, rfl⟩ := List.mem_map.mp member
    have isNamed := is_withPart.mp named
    by_cases same : other = id ∧ place = number
    · obtain ⟨rfl, rfl⟩ := same
      rw [if_pos isNamed] at found
      change (upload.parts.insert place stored).get? place = _ at found
      rw [OrderedMap.get?_insert, if_pos rfl, Option.some.injEq] at found
      subst found
      exact ⟨positive, within, isPrefix⟩
    · rw [get?_withPart isNamed (not_and_or.mp same)] at found
      exact sound.stored upload isEarlier other isNamed place part found
  · intro unlisted upload member place etag size isNoted
    obtain ⟨first, last, atMost, before, full⟩ :=
      sound.noted unlisted upload member place etag size isNoted
    refine ⟨first, last, atMost, ?_, ?_⟩
    · intro earlier isFirst isEarlier
      apply (before earlier isFirst isEarlier).withPart
      by_cases same : upload.id = id
      · have upTo := (ready.last unlisted upload member same place etag size isNoted).1
        exact Or.inr (by omega)
      · exact Or.inl same
    · intro isFull
      apply (full isFull).withPart
      by_cases same : upload.id = id
      · have notFull := (ready.last unlisted upload member same place etag size isNoted).2
        exact Or.inr fun isNumber => notFull isNumber isFull
      · exact Or.inl same

theorem stored_withPart : ∀ upload ∈
    (service.withPart staged.bucket staged.key id number stored).uploads,
    upload.Is staged.bucket staged.key id → upload.parts.get? number = some stored := by
  intro _ member named
  obtain ⟨upload, _, rfl⟩ := List.mem_map.mp member
  rw [if_pos (is_withPart.mp named)]
  change (upload.parts.insert number stored).get? number = _
  rw [OrderedMap.get?_insert, if_pos rfl]

/-! A part that is noted -/

variable {etag : String} {size : Nat}

theorem get?_recording {upload : StartedUpload} (isOther : upload.id ≠ id ∨ place ≠ number) :
    (if upload.id = id then { upload with parts := upload.parts.insert number (etag, size) }
      else upload).parts.get? place = upload.parts.get? place := by
  split_ifs with same
  · have different : place ≠ number := isOther.resolve_left fun isNot => isNot same
    change (upload.parts.insert number (etag, size)).get? place = _
    rw [OrderedMap.get?_insert, if_neg different]
  · rfl

theorem id_recording {upload : StartedUpload} :
    (if upload.id = id then { upload with parts := upload.parts.insert number (etag, size) }
      else upload).id = upload.id := by
  split_ifs
  · rfl
  · rfl

theorem known_recording :
    staged.Known (service.recording id number etag size) other ↔ staged.Known service other := by
  apply or_congr_right
  constructor
  · rintro ⟨_, member, same⟩
    obtain ⟨upload, isEarlier, rfl⟩ := List.mem_map.mp member
    exact ⟨upload, isEarlier, id_recording.symm.trans same⟩
  · rintro ⟨upload, member, same⟩
    exact ⟨_, List.mem_map_of_mem member, id_recording.trans same⟩

theorem Placed.recording (placed : staged.Placed service other place)
    (isOther : other ≠ id ∨ place ≠ number) :
    staged.Placed (service.recording id number etag size) other place := by
  constructor
  · exact placed.stored
  · intro unlisted _ member same
    obtain ⟨upload, isEarlier, rfl⟩ := List.mem_map.mp member
    have isNamed : upload.id = other := id_recording.symm.trans same
    rw [get?_recording (isNamed ▸ isOther)]
    exact placed.noted unlisted upload isEarlier isNamed

/-- A stored part is noted with its size.  If it is the whole part, it is in place. -/
theorem Sound.recording {data : List UInt8} (sound : staged.Sound service)
    (ready : staged.Ready service id number) (positive : 1 ≤ number)
    (within : number ≤ staged.lastPart) (isPrefix : data <+: staged.part number)
    (isStored : ∀ upload ∈ service.uploads, upload.Is staged.bucket staged.key id →
      (upload.parts.get? number).map StoredPart.data = some data) (etag : String) :
    staged.Sound (service.recording id number etag data.length) ∧ (data = staged.part number →
        staged.Ready (service.recording id number etag data.length) id (number + 1)) := by
  have inPlace (isPart : data = staged.part number) :
      staged.Placed (service.recording id number etag data.length) id number := by
    constructor
    · intro upload member named
      rw [isStored upload member named, isPart]
    · intro _ _ member same
      obtain ⟨upload, _, rfl⟩ := List.mem_map.mp member
      rw [if_pos (id_recording.symm.trans same)]
      change ((upload.parts.insert number (etag, data.length)).get? number).map Prod.snd = _
      rw [OrderedMap.get?_insert, if_pos rfl, isPart]
      rfl
  have before (earlier : Nat) (first : 1 ≤ earlier) (later : earlier < number) :
      staged.Placed (service.recording id number etag data.length) id earlier :=
    (ready.placed earlier first later).recording (Or.inr (by omega))
  constructor
  · constructor
    · intro _ member
      obtain ⟨upload, isEarlier, rfl⟩ := List.mem_map.mp member
      split_ifs
      · exact sound.own upload isEarlier
      · exact sound.own upload isEarlier
    · exact (List.length_map _).trans_le sound.few
    · intro first second knowsFirst knowsSecond
      exact sound.single first second (known_recording.mp knowsFirst)
        (known_recording.mp knowsSecond)
    · exact sound.distinct
    · exact sound.stored
    · intro unlisted _ member place etag size isNoted
      obtain ⟨upload, isEarlier, rfl⟩ := List.mem_map.mp member
      rw [id_recording]
      by_cases isNew : upload.id = id ∧ place = number
      · obtain ⟨same, rfl⟩ := isNew
        rw [if_pos same] at isNoted
        change (upload.parts.insert place _).get? place = _ at isNoted
        rw [OrderedMap.get?_insert, if_pos rfl] at isNoted
        cases isNoted
        rw [same]
        exact ⟨positive, within, isPrefix.length_le, before, fun isFull =>
          inPlace (eq_part_of_full isPrefix isFull)⟩
      · rw [get?_recording (not_and_or.mp isNew)] at isNoted
        obtain ⟨first, last, atMost, earlier, full⟩ :=
          sound.noted unlisted upload isEarlier place etag size isNoted
        refine ⟨first, last, atMost, ?_, ?_⟩
        · intro smaller isFirst isSmaller
          apply (earlier smaller isFirst isSmaller).recording
          by_cases same : upload.id = id
          · have upTo := (ready.last unlisted upload isEarlier same place etag size isNoted).1
            exact Or.inr (by omega)
          · exact Or.inl same
        · intro isFull
          exact (full isFull).recording (not_and_or.mp isNew)
  · intro isPart
    constructor
    · intro earlier first later
      rcases Nat.lt_succ_iff_lt_or_eq.mp later with isEarlier | rfl
      · exact before earlier first isEarlier
      · exact inPlace isPart
    · intro unlisted _ member same place etag size isNoted
      obtain ⟨upload, isEarlier, rfl⟩ := List.mem_map.mp member
      have isId : upload.id = id := id_recording.symm.trans same
      by_cases isNew : place = number
      · omega
      · rw [get?_recording (Or.inr isNew)] at isNoted
        have upTo := (ready.last unlisted upload isEarlier isId place etag size isNoted).1
        omega

end Staged

end Porthmos
