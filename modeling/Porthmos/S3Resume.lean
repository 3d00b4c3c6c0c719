import Porthmos.S3Uploads
import Porthmos.S3Items
import Mathlib.Algebra.Order.BigOperators.Group.List

/-!
# Uploads resume exactly

An attempt opens the `.part` file at some place, writes what comes next of the source as far as it
gets, shuts the writer down, and renames the file once everything is written.  However often it is
stopped, an attempt that gets through has put the source into the object.
-/

namespace Porthmos

namespace Staged

open Program MultipartWriter S3Fs

variable {staged : Staged} {service : S3Service} {id : String}

/-! ### Opening -/

/-- An upload goes on after its full parts. -/
theorem Vouched.resumes (vouched : staged.Vouched service id parts) (sound : staged.Sound service)
    (known : staged.Known service id) :
    staged.Open service id ((contiguous parts).last + 1) ∧
      (contiguous parts).size ≤ staged.source.length := by
  have full (number : Nat) (first : 1 ≤ number) (within : number ≤ (contiguous parts).last) :
      staged.Placed service id number ∧ (staged.part number).length = partSize := by
    obtain ⟨part, member, rfl, isFull⟩ := full_of_le_contiguous first within
    exact ⟨vouched.placed part member isFull, vouched.full part member isFull⟩
  constructor
  · constructor
    · exact sound
    · exact known
    · constructor
      · intro earlier first later
        exact (full earlier first (Nat.le_of_lt_succ later)).1
      · intro unlisted upload member same other etag size isNoted
        -- A full part after those that count would count itself.
        have notFull {part : UploadPart} (isPart : part ∈ parts) (isFull : part.size = partSize)
            (isNext : part.number = (contiguous parts).last + 1) : False := by
          have counts : (contiguous parts).last + 1 ≤ (contiguous parts).last := by
            apply vouched.numbered.le_contiguous_last
            intro number first within
            rcases Nat.lt_succ_iff_lt_or_eq.mp (Nat.lt_succ_of_le within) with earlier | rfl
            · exact full_of_le_contiguous first (Nat.le_of_lt_succ earlier)
            · exact ⟨part, isPart, isNext, isFull⟩
          omega
        obtain ⟨part, isPart, isNumber, isSize⟩ :=
          vouched.last unlisted upload member same other etag size isNoted
        obtain ⟨_, within, _, before, _⟩ := sound.noted unlisted upload member other etag size isNoted
        constructor
        · by_contra beyond
          have isEarlier : (contiguous parts).last + 1 < other := by omega
          have placed := same ▸ before _ (Nat.succ_pos _) isEarlier
          rcases vouched.complete _ (Nat.succ_pos _) placed with none | ⟨next, isNext, numbered, length⟩
          · rw [none] at isPart
            cases isPart
          · have isFull := length_part_of_lt (Nat.succ_pos _) (isEarlier.trans_le within)
            exact notFull isNext (length.trans isFull) numbered
        · intro isNext isFull
          exact notFull isPart (isSize.trans isFull) (isNumber.trans isNext)
  · rw [contiguous_size]
    cases isLast : (contiguous parts).last with
    | zero => simp
    | succ before =>
      have isFull := (full (before + 1) (Nat.succ_pos _) isLast.ge).2
      exact mul_le_of_full (Nat.succ_pos _) isFull

/-- A new writer at the part after those in place. -/
theorem writing_new (last : Nat) (tooLarge : String) (isOpen : staged.Open service id (last + 1))
    (inside : last * partSize ≤ staged.source.length) :
    staged.Writing service (.new staged.bucket staged.key id (last + 1) false tooLarge)
      (last * partSize) := by
  constructor
  · exact isOpen
  · constructor
    · exact ⟨rfl, rfl⟩
    · rfl
    · exact Nat.succ_pos _
    · rintro number data ⟨⟩
    · rfl
    · exact partSize_pos
    · change (last + 1 - 1) * partSize + 0 = last * partSize
      rw [Nat.add_sub_cancel, Nat.add_zero]
    · exact inside
    · constructor
      · intro isFirst
        exact ⟨decide_eq_true isFirst, rfl⟩
      · rintro ⟨fresh, _⟩
        exact of_decide_eq_true fresh

/-- What `open_write` leaves behind. -/
def Opened (staged : Staged) : Except ProtocolError S3Writer → S3Service → Prop
  | .ok writer, after => staged.Writing after writer.stream writer.offset
  | .error _, after => staged.Sound after

theorem restartUpload_spec (staged : Staged) (tooLarge : String) :
    Ensures staged.policy.serves staged.Sound
      (restartUpload staged.bucket staged.key tooLarge) staged.Opened := by
  apply (abortAll_spec staged).bind
  · intro _
    apply ((createUpload_spec staged).strengthen fun state aborted =>
      ⟨aborted.1, aborted.2 rfl⟩).bind
    · intro id
      apply ensures_done
      rintro state ⟨_, created⟩
      have writing := writing_new 0 tooLarge (created id rfl)
        (by rw [Nat.zero_mul]; exact Nat.zero_le _)
      rw [Nat.zero_mul] at writing
      exact writing
    · rintro err state ⟨sound, _⟩
      exact sound
  · rintro err state ⟨sound, _⟩
    exact sound

theorem openStaged_spec (staged : Staged) (tooLarge : String) (offset : Nat) :
    Ensures staged.policy.serves staged.Sound
      (openStaged staged.bucket staged.key tooLarge offset) staged.Opened := by
  constructor
  intro before result after sound run
  have opens : Ensures staged.policy.serves (fun state => state = before)
      (openStaged staged.bucket staged.key tooLarge offset) staged.Opened := by
    apply sound.pending.bind
    · intro found
      have restarts {more : S3Service → Prop} : Ensures staged.policy.serves
          (fun state => state = before ∧ more state)
          (restartUpload staged.bucket staged.key tooLarge) staged.Opened :=
        (restartUpload_spec staged tooLarge).strengthen fun state same => same.1 ▸ sound
      cases found with
      | none => exact restarts
      | some pending =>
        obtain ⟨upload, progress, parts⟩ := pending
        unfold decideStart
        dsimp only [Option.map_some]
        split_ifs with resumes
        · apply ensures_done
          rintro state ⟨rfl, told⟩
          obtain ⟨known, rfl, vouched⟩ := told _ rfl
          obtain ⟨isOpen, inside⟩ := vouched.resumes sound known
          have isOffset := (contiguous_size parts).symm.trans resumes.2
          rw [contiguous_size] at inside
          have writing := writing_new _ tooLarge isOpen inside
          rw [isOffset] at writing
          exact writing
        · exact restarts
    · rintro err state ⟨rfl, _⟩
      exact sound
  exact opens.of_run before result after rfl run

/-! ### Completing -/

theorem assembled_eq {stored : StoredUpload} {parts : List (Nat × String)} {contents : List UInt8}
    (inPlace : ∀ number ∈ parts.map Prod.fst,
      (stored.parts.get? number).map StoredPart.data = some (staged.part number))
    (assembled : stored.assembled parts = some contents) :
    contents = ((parts.map Prod.fst).map staged.part).flatten := by
  induction parts generalizing contents with
  | nil =>
    cases assembled
    rfl
  | cons named rest ih =>
    obtain ⟨number, etag⟩ := named
    obtain ⟨part, isFound, isPart⟩ :=
      Option.map_eq_some_iff.mp (inPlace number List.mem_cons_self)
    unfold StoredUpload.assembled at assembled
    rw [isFound] at assembled
    change (if part.etag = etag then _ else _) = _ at assembled
    split_ifs at assembled
    obtain ⟨later, isLater, rfl⟩ := Option.map_eq_some_iff.mp assembled
    rw [ih (fun number member => inPlace number (List.mem_cons_of_mem _ member)) isLater]
    simp [isPart]

/-- What a completion does. -/
def Uploaded (staged : Staged) (result : Except ProtocolError Unit) (after : S3Service) : Prop :=
  staged.Sound after ∧
    (result = .ok () → after.objects staged.bucket staged.key = some staged.source)

theorem sound_completes {before after : S3Service} {parts : List (Nat × String)}
    (sound : staged.Sound before)
    (completes : before.Completes after staged.bucket staged.key id parts) : staged.Sound after := by
  obtain ⟨_, stored, _, _, contents, _, rfl⟩ := completes
  exact sound.fewer (fun _ member => (List.mem_filter.mp member).1) (List.Sublist.refl _)

theorem complete_spec (finished : staged.Finished service id) :
    Ensures staged.policy.serves (fun state => state = service)
      (S3Fs.complete staged.bucket staged.key id) staged.Uploaded := by
  apply (finished.sound.knownParts id).bind
  · intro parts
    apply ensures_of_pre (staged.Vouched service id parts) fun _ told => told.2 parts rfl
    intro vouched
    apply ensures_bind staged.Uploaded
    · apply ensures_send
      rintro before answer after ⟨rfl, _⟩ served
      have isSound (completes : before.Completes after staged.bucket staged.key id (completed parts)) :
          staged.Sound after := sound_completes finished.sound completes
      cases answer with
      | error err =>
        refine ⟨?_, fun isOk => by cases isOk⟩
        rcases served with rfl | completes
        · exact finished.sound
        · exact isSound completes
      | ok _ =>
        refine ⟨isSound served, ?_⟩
        intro _
        obtain ⟨notEmpty, stored, member, named, contents, assembled, rfl⟩ := served
        have numbers : (completed parts).map Prod.fst = List.range' 1 staged.lastPart := by
          apply vouched.numbered.completed_numbers vouched.within
          intro number first within
          rcases vouched.complete number first (finished.placed number first within) with
            none | ⟨part, isPart, isNumber, _⟩
          · rw [none] at notEmpty
            exact absurd (by simp [completed, inOrder]) notEmpty
          · exact ⟨part, isPart, isNumber⟩
        have isSource : contents = staged.source := by
          rw [assembled_eq _ assembled, numbers, flatten_all]
          intro number inRange
          rw [numbers, List.mem_range'_1] at inRange
          exact (finished.placed number inRange.1 (by omega)).stored stored member named
        change (if _ ∧ _ then some contents else _) = _
        rw [if_pos ⟨rfl, rfl⟩, isSource]
    · intro _
      apply ensures_send
      rintro before answer after ⟨sound, isObject⟩ ⟨rfl, rfl⟩
      exact ⟨sound_forgetting sound id, fun _ => isObject rfl⟩
    · intro err state uploaded
      exact ⟨uploaded.1, fun isOk => by cases isOk⟩
  · rintro err state ⟨rfl, _⟩
    exact ⟨finished.sound, fun isOk => by cases isOk⟩

section Attempts

variable {fs : S3Fs} {part target : Path} {partKey : String}

/-- `target` is the object of the staged upload, and `part` its `.part` file. -/
structure Names (staged : Staged) (fs : S3Fs) (part target : Path) (partKey : String) : Prop where
  part : fs.locate part = .object staged.bucket partKey
  target : fs.locate target = .object staged.bucket staged.key
  isStaged : stagedKey partKey = some staged.key

theorem rename_eq (names : staged.Names fs part target partKey) :
    fs.rename part target = (S3Fs.pending staged.bucket staged.key).bind fun
      | some (upload, _, _) => S3Fs.complete staged.bucket staged.key upload.id
      | none => fs.renameObject part target staged.bucket partKey staged.key := by
  have different : partKey ≠ staged.key := by
    intro same
    have longer := congrArg (fun key => key.toList.length) (stagedKey_eq_some names.isStaged)
    rw [same] at longer
    simp [partSuffix] at longer
  unfold S3Fs.rename
  rw [names.part, names.target]
  change (if _ then _ else _) = _
  rw [if_neg (fun differ => differ rfl), if_neg different, names.isStaged, Option.filter_some,
    if_pos (decide_eq_true rfl)]
  rfl

theorem rename_spec (names : staged.Names fs part target partKey)
    (finished : staged.Finished service id) :
    Ensures staged.policy.serves (fun state => state = service) (fs.rename part target)
      staged.Uploaded := by
  rw [rename_eq names]
  apply finished.sound.pending.bind
  · intro found
    apply ensures_of_pre _ fun _ told => told.2 found rfl
    cases found with
    | none =>
      intro unknown
      exact absurd finished.known (unknown id)
    | some pending =>
      obtain ⟨upload, progress, parts⟩ := pending
      rintro ⟨known, _⟩
      dsimp only
      rw [finished.sound.single upload.id id known finished.known]
      exact (complete_spec finished).strengthen fun state told => told.1
  · rintro err state ⟨rfl, _⟩
    exact ⟨finished.sound, fun isOk => by cases isOk⟩

theorem openWrite_spec (names : staged.Names fs part target partKey) (offset : Nat) :
    Ensures staged.policy.serves staged.Sound (fs.openWrite part offset) staged.Opened := by
  unfold openWrite
  simp only [names.part, object, Bind.bind, Pure.pure, Program.bind, names.isStaged]
  exact openStaged_spec staged _ offset

/-! ### Attempts -/

/-- What an attempt writes: pieces of the source from where the writer starts. -/
structure Written (fs : S3Fs) (staged : Staged) (part : Path) (before : S3Service)
    (writer : S3Writer) (pieces : List (List UInt8)) (report : Reports Unit) (after : S3Service) :
    Prop where
  opens : ∃ offset opened, (fs.openWrite part offset).Runs staged.policy.serves before (.ok writer)
    opened ∧ (writePieces writer.stream pieces).Runs staged.policy.serves opened (.ok report) after
  ofSource : pieces.flatten <+: staged.source.drop writer.offset

/-- One attempt, and whether it has renamed the file. -/
inductive Attempted (fs : S3Fs) (staged : Staged) (part target : Path) :
    S3Service → Bool → S3Service → Prop
  /-- Another connection has noted no upload. -/
  | reconnected {before} : Attempted fs staged part target before false { before with started := [] }
  | unopened {before offset err after}
      (opens : (fs.openWrite part offset).Runs staged.policy.serves before (.error err) after) :
      Attempted fs staged part target before false after
  /-- The writer is dropped. -/
  | stopped {before writer pieces report after}
      (written : staged.Written fs part before writer pieces report after) :
      Attempted fs staged part target before false after
  /-- The writer is shut down, after a failure, a cancel or an end that it fails to reach. -/
  | closed {before writer pieces report middle result after}
      (written : staged.Written fs part before writer pieces report middle)
      (closes : report.1.pollShutdown.Runs staged.policy.serves middle result after) :
      Attempted fs staged part target before false after
  | renamed {before writer pieces stream middle last closed result after}
      (written : staged.Written fs part before writer pieces (stream, .ok ()) middle)
      (whole : pieces.flatten = staged.source.drop writer.offset)
      (closes : stream.pollShutdown.Runs staged.policy.serves middle (.ok (last, .ok ())) closed)
      (renames : (fs.rename part target).Runs staged.policy.serves closed result after) :
      Attempted fs staged part target before result.isOk after

/-- Attempts one after the other. -/
inductive Attempts (fs : S3Fs) (staged : Staged) (part target : Path) :
    S3Service → S3Service → Prop
  | none {state} : Attempts fs staged part target state state
  | next {before middle after ended} (attempts : Attempts fs staged part target before middle)
      (attempt : staged.Attempted fs part target middle ended after) :
      Attempts fs staged part target before after

theorem Written.reported {before after : S3Service} {writer : S3Writer}
    {pieces : List (List UInt8)} {report : Reports Unit}
    (written : staged.Written fs part before writer pieces report after)
    (names : staged.Names fs part target partKey) (sound : staged.Sound before) :
    staged.Reported (fun stream _ state => staged.Writing state stream
      (writer.offset + pieces.flatten.length)) (.ok report) after := by
  obtain ⟨offset, opened, opens, writes⟩ := written.opens
  have writing := (openWrite_spec names offset).of_run _ _ _ sound opens
  exact (writePieces_spec written.ofSource).of_run _ _ _ writing writes

theorem Reported.sound {position : Nat} {report : Reports Unit}
    (reported : staged.Reported (fun stream _ state => staged.Writing state stream position)
      (.ok report) service) : staged.Sound service := by
  obtain ⟨stream, err | _⟩ := report
  · exact reported.1
  · exact Writing.isOpen reported |>.sound

/-- An attempt leaves an upload that the next one may go on with, and a renamed file is the
source. -/
theorem Attempted.spec {before after : S3Service} {renamed : Bool}
    (attempted : staged.Attempted fs part target before renamed after)
    (names : staged.Names fs part target partKey) (sound : staged.Sound before) :
    staged.Sound after ∧
      (renamed = true → after.objects staged.bucket staged.key = some staged.source) := by
  cases attempted with
  | reconnected => exact ⟨sound.reconnected, nofun⟩
  | unopened opens => exact ⟨(openWrite_spec names _).of_run _ _ _ sound opens, nofun⟩
  | stopped written => exact ⟨(written.reported names sound).sound, nofun⟩
  | @closed writer pieces report middle result _ written closes =>
    refine ⟨?_, nofun⟩
    have reported := written.reported names sound
    obtain ⟨stream, err | _⟩ := report
    · exact (pollShutdown_dead reported.2).of_run _ _ _ reported.1 closes
    · have closed := pollShutdown_spec.of_run _ _ _ reported closes
      obtain err | ⟨last, err | _⟩ := result
      · exact closed.elim
      · exact closed
      · exact closed.1
  | @renamed writer pieces stream middle last closed result _ written whole closes renames =>
    have reported := written.reported names sound
    have isClosed := pollShutdown_spec.of_run _ _ _ reported closes
    have inside : writer.offset ≤ staged.source.length := by
      have position := (Writing.filled reported).inside
      omega
    have isAll : writer.offset + pieces.flatten.length = staged.source.length := by
      rw [whole, List.length_drop]
      omega
    obtain ⟨id, finished⟩ := isClosed.2 isAll
    obtain ⟨isSound, isObject⟩ := (rename_spec names finished).of_run _ _ _ rfl renames
    refine ⟨isSound, ?_⟩
    intro isOk
    apply isObject
    cases result with
    | ok _ => rfl
    | error err => cases isOk

/-- No upload of the key is there, and the client has just connected. -/
structure Fresh (staged : Staged) (service : S3Service) : Prop where
  uploads : ∀ stored ∈ service.uploads, stored.bucket = staged.bucket → stored.key ≠ staged.key
  started : service.started = []

theorem Fresh.sound (fresh : staged.Fresh service) : staged.Sound service := by
  have noUpload : ∀ stored ∈ service.uploads, ∀ id, ¬stored.Is staged.bucket staged.key id :=
    fun stored member _ named => fresh.uploads stored member named.1 named.2.1
  have noStarted : ∀ upload, upload ∉ service.started := by
    intro upload member
    rw [fresh.started] at member
    cases member
  constructor
  · intro upload member
    exact absurd member (noStarted upload)
  · rw [fresh.started]
    exact Nat.zero_le 1
  · rintro first second (⟨_, stored, member, named⟩ | ⟨upload, member, _⟩) _
    · exact absurd named (noUpload stored member first)
    · exact absurd member (noStarted upload)
  · intro first isFirst _ _ id named _
    exact absurd named (noUpload first isFirst id)
  · intro stored member id named
    exact absurd named (noUpload stored member id)
  · intro _ upload member
    exact absurd member (noStarted upload)

theorem Attempts.sound {before after : S3Service}
    (attempts : staged.Attempts fs part target before after)
    (names : staged.Names fs part target partKey) (sound : staged.Sound before) :
    staged.Sound after := by
  induction attempts with
  | none => exact sound
  | next _ attempt ih => exact (attempt.spec names ih).1

/-- However often attempts were stopped, one that renames the file has put the source there. -/
theorem uploaded_of_attempts {start before after : S3Service}
    (names : staged.Names fs part target partKey) (fresh : staged.Fresh start)
    (attempts : staged.Attempts fs part target start before)
    (last : staged.Attempted fs part target before true after) :
    after.objects staged.bucket staged.key = some staged.source :=
  (last.spec names (attempts.sound names fresh.sound)).2 rfl

end Attempts

end Staged

/-! ### A service -/

namespace S3Service

/-- An id that is longer than all others. -/
def freshId (service : S3Service) : String :=
  String.ofList (List.replicate ((service.uploads.map fun stored => stored.id.length).sum + 1) 'u')

/-- A service that carries out every request about uploads, for an account that may list them. -/
def respond : (β : Type) → S3Service → S3Request β → Except ProtocolError β × S3Service
  | _, service, .uploads bucket below false =>
    (.ok ((service.uploads.filter fun stored => stored.bucket = bucket ∧
      below.toList.isPrefixOf stored.key.toList).map StoredUpload.listed), service)
  | _, service, .parts bucket key id =>
    match service.uploads.find? fun stored => stored.Is bucket key id with
    | some stored => (.ok stored.listedParts, service)
    | none => (.error ⟨.notFound, key ++ " not found"⟩, service)
  | _, service, .createUpload bucket key =>
    (.ok service.freshId, service.withUpload bucket key service.freshId none)
  | _, service, .sendPart bucket key id number data =>
    if service.uploads.any fun stored => stored.Is bucket key id then
      (.ok "etag", service.withPart bucket key id number ⟨data, "etag", none⟩)
    else (.error ⟨.notFound, key ++ " not found"⟩, service)
  | _, service, .completeUpload bucket key id parts =>
    match service.uploads.find? fun stored => stored.Is bucket key id with
    | none => (.error ⟨.notFound, key ++ " not found"⟩, service)
    | some stored =>
      match stored.assembled parts with
      | none => (.error ⟨.other, "InvalidPart"⟩, service)
      | some contents =>
        if parts = [] then (.error ⟨.other, "MalformedXML"⟩, service)
        else (.ok (), (service.withoutUpload bucket key id).withObject bucket key contents)
  | _, service, .abortUpload bucket key id => (.ok (), service.withoutUpload bucket key id)
  | _, service, .started => (.ok service.started, service)
  | _, service, .remember bucket key id => (.ok (), service.remembering bucket key id)
  | _, service, .forget id => (.ok (), service.forgetting id)
  | _, service, .record id number etag size => (.ok (), service.recording id number etag size)
  | _, service, .copyPart _ _ _ _ _ _ _ => (.error ⟨.other, "not served"⟩, service)
  | _, service, .put _ _ => (.error ⟨.other, "not served"⟩, service)
  | _, service, .copyObject _ _ _ => (.error ⟨.other, "not served"⟩, service)
  | _, service, .delete _ _ => (.error ⟨.other, "not served"⟩, service)
  | _, service, .deleteKeys _ _ => (.error ⟨.other, "not served"⟩, service)
  | _, service, .buckets => (.error ⟨.other, "not served"⟩, service)
  | _, service, .listing _ _ _ => (.error ⟨.other, "not served"⟩, service)
  | _, service, .peek _ _ => (.error ⟨.other, "not served"⟩, service)
  | _, service, .uploads _ _ true => (.error ⟨.other, "not served"⟩, service)
  | _, service, .head _ _ => (.error ⟨.other, "not served"⟩, service)
  | _, service, .get _ _ _ => (.error ⟨.other, "not served"⟩, service)

theorem freshId_ne (service : S3Service) : ∀ stored ∈ service.uploads,
    stored.id ≠ service.freshId := by
  intro stored member same
  have atMost : stored.id.length ≤ (service.uploads.map fun stored => stored.id.length).sum :=
    List.le_sum_of_mem (List.mem_map_of_mem (f := fun stored : StoredUpload => stored.id.length) member)
  rw [same] at atMost
  simp [freshId] at atMost

theorem serves_respond (β : Type) (service : S3Service) (asked : S3Request β) :
    S3Policy.serves ⟨true, true⟩ β service asked (respond β service asked).1
      (respond β service asked).2 := by
  cases asked
  case uploads bucket below folders =>
      cases folders with
      | true => rfl
      | false =>
        refine ⟨rfl, ?_⟩
        rintro _ ⟨⟩ upload
        rw [List.mem_map]
        constructor
        · rintro ⟨stored, member, rfl⟩
          obtain ⟨isStored, isWanted⟩ := List.mem_filter.mp member
          obtain ⟨inBucket, isPrefix⟩ := of_decide_eq_true isWanted
          obtain ⟨rest, isKey⟩ := List.isPrefixOf_iff_prefix.mp isPrefix
          refine ⟨stored, isStored, inBucket, ⟨String.ofList rest, ?_⟩, rfl⟩
          apply String.toList_inj.mp
          simpa using isKey.symm
        · rintro ⟨stored, isStored, inBucket, ⟨rest, isKey⟩, rfl⟩
          refine ⟨stored, List.mem_filter.mpr ⟨isStored, ?_⟩, rfl⟩
          simp [inBucket, isKey]
  case parts bucket key id =>
      unfold respond
      dsimp only
      cases found : service.uploads.find? fun stored => stored.Is bucket key id with
      | none => exact ⟨rfl, fun _ => nofun⟩
      | some stored =>
        have isNamed : stored.Is bucket key id := by simpa using List.find?_some found
        exact ⟨rfl, rfl, stored, List.mem_of_find?_eq_some found, isNamed, List.Perm.refl _⟩
  case createUpload bucket key => exact ⟨service.freshId_ne, none, rfl⟩
  case sendPart bucket key id number data =>
      unfold respond
      dsimp only
      split_ifs with isThere
      · obtain ⟨stored, member, isNamed⟩ := List.any_eq_true.mp isThere
        exact ⟨⟨stored, member, of_decide_eq_true isNamed⟩, none, rfl⟩
      · exact Or.inl rfl
  case completeUpload bucket key id parts =>
      unfold respond
      dsimp only
      cases found : service.uploads.find? fun stored => stored.Is bucket key id with
      | none => exact Or.inl rfl
      | some stored =>
        dsimp only
        cases assembled : stored.assembled parts with
        | none => exact Or.inl rfl
        | some contents =>
          dsimp only
          split_ifs with empty
          · exact Or.inl rfl
          · have isNamed : stored.Is bucket key id := by simpa using List.find?_some found
            exact ⟨empty, stored, List.mem_of_find?_eq_some found, isNamed, contents, assembled,
              rfl⟩
  case abortUpload bucket key id => rfl
  case copyPart => exact Or.inl rfl
  all_goals first | rfl | exact ⟨rfl, rfl⟩

end S3Service

namespace Staged

open Program MultipartWriter S3Fs

/-- Three bytes for `/x` in a bucket of the account. -/
def threeBytes : Staged := ⟨⟨true, true⟩, [1, 2, 3], "media", "x"⟩

/-- An attempt from the first byte on, up to its shutdown. -/
def upload (pieces : List (List UInt8)) : S3Program (S3Writer × Reports Unit × Reports Unit) :=
  (mediaFs.openWrite ⟨"/x.part"⟩ 0).bind fun writer =>
    (writePieces writer.stream pieces).bind fun report =>
      report.1.pollShutdown.bind fun closed => .done (.ok (writer, report, closed))

theorem runs_upload {pieces : List (List UInt8)} {before after : S3Service} {writer : S3Writer}
    {report closed : Reports Unit}
    (run : (upload pieces).Runs threeBytes.policy.serves before (.ok (writer, report, closed)) after)
    (ofSource : pieces.flatten <+: threeBytes.source.drop writer.offset) :
    ∃ middle, threeBytes.Written mediaFs ⟨"/x.part"⟩ before writer pieces report middle ∧
      report.1.pollShutdown.Runs threeBytes.policy.serves middle (.ok closed) after := by
  rcases runs_bind.mp run with ⟨_, opened, opens, run⟩ | ⟨_, failed, _⟩
  · rcases runs_bind.mp run with ⟨_, middle, writes, run⟩ | ⟨_, failed, _⟩
    · rcases runs_bind.mp run with ⟨_, state, closes, same, rfl⟩ | ⟨_, failed, _⟩
      · cases same
        exact ⟨middle, ⟨⟨0, opened, opens, writes⟩, ofSource⟩, closes⟩
      · cases failed
    · cases failed
  · cases failed

def noUploads : S3Service := ⟨[], fun _ _ => none, []⟩

/-- One byte is sent, and the attempt is cancelled. -/
def cancelled : Except ProtocolError (S3Writer × Reports Unit × Reports Unit) × S3Service :=
  (upload [[1]]).exec S3Service.respond noUploads

def retried : Except ProtocolError (S3Writer × Reports Unit × Reports Unit) × S3Service :=
  (upload [[1], [2, 3]]).exec S3Service.respond cancelled.2

def renamedAfter : Except ProtocolError Unit × S3Service :=
  (mediaFs.rename ⟨"/x.part"⟩ ⟨"/x"⟩).exec S3Service.respond retried.2

theorem uploaded_of_attempts_resumed : ∃ before after,
    threeBytes.Attempts mediaFs ⟨"/x.part"⟩ ⟨"/x"⟩ noUploads before ∧
      threeBytes.Attempted mediaFs ⟨"/x.part"⟩ ⟨"/x"⟩ before true after ∧
      before.uploads.map StoredUpload.listedParts = [[⟨1, 1, "etag", none⟩]] ∧
      after.objects "media" "x" = some [1, 2, 3] := by
  have first := runs_exec S3Service.serves_respond (upload [[1]]) noUploads
  have second := runs_exec S3Service.serves_respond (upload [[1], [2, 3]]) cancelled.2
  have third := runs_exec S3Service.serves_respond (mediaFs.rename ⟨"/x.part"⟩ ⟨"/x"⟩) retried.2
  have firstStarts : cancelled.1.toOption.map (fun done => done.1.offset) = some 0 := by
    decide
  have secondEnds : retried.1.toOption.map (fun done => (done.1.offset, done.2.1.2.toOption,
      done.2.2.2.toOption)) = some (0, some (), some ()) := by decide
  have renames : renamedAfter.1.isOk = true := by decide +kernel
  change Runs _ _ _ cancelled.1 cancelled.2 at first
  change Runs _ _ _ retried.1 retried.2 at second
  change Runs _ _ _ renamedAfter.1 renamedAfter.2 at third
  have attempts : threeBytes.Attempts mediaFs ⟨"/x.part"⟩ ⟨"/x"⟩ noUploads cancelled.2 := by
    cases isDone : cancelled.1 with
    | error err =>
      rw [isDone] at firstStarts
      cases firstStarts
    | ok done =>
      rw [isDone] at first firstStarts
      obtain ⟨writer, report, closed⟩ := done
      have offset : writer.offset = 0 := Option.some.inj firstStarts
      obtain ⟨middle, written, closes⟩ := runs_upload first (by rw [offset]; decide)
      exact .next .none (.closed written closes)
  have last : threeBytes.Attempted mediaFs ⟨"/x.part"⟩ ⟨"/x"⟩ cancelled.2 true renamedAfter.2 := by
    cases isDone : retried.1 with
    | error err =>
      rw [isDone] at secondEnds
      cases secondEnds
    | ok done =>
      rw [isDone] at second secondEnds
      obtain ⟨writer, ⟨stream, wrote⟩, ⟨left, closed⟩⟩ := done
      have ends := Option.some.inj secondEnds
      have offset : writer.offset = 0 := congrArg (fun facts => facts.1) ends
      have isWritten : wrote.toOption = some () := congrArg (fun facts => facts.2.1) ends
      have isClosed : closed.toOption = some () := congrArg (fun facts => facts.2.2) ends
      obtain ⟨middle, written, closes⟩ := runs_upload second (by rw [offset]; decide)
      cases wrote with
      | error err => cases isWritten
      | ok _ =>
        cases closed with
        | error err => cases isClosed
        | ok _ =>
          rw [← renames]
          exact .renamed written (by rw [offset]; decide) closes third
  refine ⟨cancelled.2, renamedAfter.2, attempts, last, by decide, ?_⟩
  have names : threeBytes.Names mediaFs ⟨"/x.part"⟩ ⟨"/x"⟩ "x.part" :=
    ⟨by decide, by decide, by decide⟩
  have fresh : threeBytes.Fresh noUploads :=
    ⟨fun stored member => absurd member List.not_mem_nil, rfl⟩
  exact uploaded_of_attempts names fresh attempts last

end Staged

end Porthmos
