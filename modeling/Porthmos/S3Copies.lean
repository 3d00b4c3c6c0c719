import Porthmos.S3Reach
import Porthmos.S3Service

/-!
# Copying objects

The service may fail any request, before or after it took effect, and it may leave an object of the
wrong size for a copy; what it tells about sizes and keys is right, and nobody else changes objects.
A copy that succeeds has the contents of its source, and no other object has changed in any case.
-/

namespace Porthmos

namespace S3Service

/-- The bytes from the first to the last one that is named. -/
def slice (contents : List UInt8) (first last : Nat) : List UInt8 :=
  (contents.drop first).take (last + 1 - first)

def withoutObjects (service : S3Service) (bucket : String) (keys : List String) : S3Service :=
  { service with objects := fun place name =>
      if place = bucket ∧ name ∈ keys then none else service.objects place name }

/-- A copy has the contents, or it has the wrong size. -/
def IsCopy (contents copied : List UInt8) : Prop :=
  copied = contents ∨ copied.length ≠ contents.length

def Copies (before after : S3Service) (bucket source target : String) : Prop :=
  ∃ contents copied, before.objects bucket source = some contents ∧ IsCopy contents copied ∧
    after = before.withObject bucket target copied

def CopiesPart (before after : S3Service) (bucket source target id : String)
    (number first last : Nat) (etag : String) : Prop :=
  ∃ contents, before.objects bucket source = some contents ∧
    before.Stores after bucket target id number (slice contents first last) etag

def Assembles (before after : S3Service) (bucket key id : String) (parts : List (Nat × String)) :
    Prop :=
  ∃ stored ∈ before.uploads, stored.Is bucket key id ∧
    ∃ contents copied, stored.assembled parts = some contents ∧ IsCopy contents copied ∧
      after = (before.withoutUpload bucket key id).withObject bucket key copied

/-- All objects with such a key, each once, with their sizes. -/
structure Lists (service : S3Service) (bucket below : String) (listing : S3Listing) : Prop where
  distinct : (listing.objects.map S3Object.key).Nodup
  all : ∀ key size, (∃ object ∈ listing.objects, object.key = key ∧ object.size = size) ↔
    (∃ rest, key = below ++ rest) ∧ ∃ contents, service.objects bucket key = some contents ∧
      contents.length = size

/-- How the service answers.  Some of the objects may be gone when a deletion of several fails, and
a part that is not confirmed may have been stored. -/
def serves : Program.Service S3Service S3Request ProtocolError
  | _, before, .buckets, _, after => after = before
  | _, before, .listing bucket below false, answer, after =>
    after = before ∧ ∀ listing, answer = .ok listing → before.Lists bucket below listing
  | _, before, .listing _ _ true, _, after => after = before
  | _, before, .peek bucket below, answer, after =>
    after = before ∧ ∀ page, answer = .ok page →
      ((page.objects ≠ [] ∨ page.prefixes ≠ []) ↔
        ∃ rest, (before.objects bucket (below ++ rest)).isSome)
  | _, before, .uploads bucket _ _, answer, after =>
    after = before ∧ ∀ listed, answer = .ok listed → ∀ upload ∈ listed,
      ∃ stored ∈ before.uploads, stored.bucket = bucket ∧ upload = stored.listed
  | _, before, .parts _ _ _, _, after => after = before
  | _, before, .createUpload bucket key, .ok id, after => before.Creates after bucket key id
  | _, before, .createUpload bucket key, .error _, after =>
    after = before ∨ ∃ id, before.Creates after bucket key id
  | _, before, .sendPart bucket key id number data, .ok etag, after =>
    before.Stores after bucket key id number data etag
  | _, before, .sendPart bucket key id number data, .error _, after =>
    after = before ∨ ∃ etag, before.Stores after bucket key id number data etag
  | _, before, .completeUpload bucket key id parts, .ok (), after =>
    before.Assembles after bucket key id parts
  | _, before, .completeUpload bucket key id parts, .error _, after =>
    after = before ∨ before.Assembles after bucket key id parts
  | _, before, .abortUpload bucket key id, .ok (), after =>
    after = before.withoutUpload bucket key id
  | _, before, .abortUpload bucket key id, .error _, after =>
    after = before ∨ after = before.withoutUpload bucket key id
  | _, before, .head bucket key, answer, after =>
    after = before ∧ ∀ found, answer = .ok found → ∃ modified,
      found = (before.objects bucket key).map fun contents => S3Fs.file contents.length modified
  | _, before, .get _ _ _, _, after => after = before
  | _, before, .put bucket key, .ok (), after => after = before.withObject bucket key []
  | _, before, .put bucket key, .error _, after =>
    after = before ∨ after = before.withObject bucket key []
  | _, before, .copyObject bucket source target, .ok (), after =>
    before.Copies after bucket source target
  | _, before, .copyObject bucket source target, .error _, after =>
    after = before ∨ before.Copies after bucket source target
  | _, before, .copyPart bucket source target id number first last, .ok (some etag), after =>
    before.CopiesPart after bucket source target id number first last etag
  | _, before, .copyPart bucket _ target id number _ _, _, after =>
    after = before ∨ ∃ part, after = before.withPart bucket target id number part
  | _, before, .delete bucket key, .ok (), after => after = before.withoutObjects bucket [key]
  | _, before, .delete bucket key, .error _, after =>
    after = before ∨ after = before.withoutObjects bucket [key]
  | _, before, .deleteKeys bucket keys, .ok (.done failures), after =>
    ∃ deleted, after = before.withoutObjects bucket deleted ∧ deleted ⊆ keys ∧
      ∀ key ∈ keys, key ∉ failures.map Prod.fst → key ∈ deleted
  | _, before, .deleteKeys _ _, .ok .notImplemented, after => after = before
  | _, before, .deleteKeys bucket keys, .error _, after =>
    ∃ deleted, after = before.withoutObjects bucket deleted ∧ deleted ⊆ keys
  | _, before, .started, answer, after => answer = .ok before.started ∧ after = before
  | _, before, .remember bucket key id, answer, after =>
    answer = .ok () ∧ after = before.remembering bucket key id
  | _, before, .forget id, answer, after => answer = .ok () ∧ after = before.forgetting id
  | _, before, .record id number etag size, answer, after =>
    answer = .ok () ∧ after = before.recording id number etag size

end S3Service

namespace S3Moves

open Program

/-! ### Copies -/

section Copies

variable {before after service : S3Service} {bucket source target id : String}
  {contents : List UInt8} {path : Path}

/-- No other object has changed. -/
def OnlyAt (before after : S3Service) (bucket key : String) : Prop :=
  ∀ place name, ¬(place = bucket ∧ name = key) →
    after.objects place name = before.objects place name

theorem onlyAt_of_objects (same : after.objects = before.objects) (bucket key : String) :
    OnlyAt before after bucket key := by
  intro place name _
  rw [same]

theorem onlyAt_withObject (same : service.objects = before.objects) (bucket key : String)
    (contents : List UInt8) : OnlyAt before (service.withObject bucket key contents) bucket key := by
  intro place name other
  change (if place = bucket ∧ name = key then _ else service.objects place name) = _
  rw [if_neg other, same]

theorem onlyAt_without (same : OnlyAt before after bucket target) :
    OnlyAt before (after.withoutObjects bucket [target]) bucket target := by
  intro place name other
  change (if place = bucket ∧ name ∈ [target] then _ else after.objects place name) = _
  rw [if_neg (by simpa using other), same place name other]

theorem objects_withObject_self (service : S3Service) (bucket key : String)
    (contents : List UInt8) : (service.withObject bucket key contents).objects bucket key =
      some contents :=
  if_pos ⟨rfl, rfl⟩

/-- What a copy does, whether or not it is looked at. -/
structure Copied (before : S3Service) (bucket target : String) (contents : List UInt8)
    (result : Except ProtocolError Unit) (after : S3Service) : Prop where
  only : OnlyAt before after bucket target
  copied : result = .ok () → ∃ copied, after.objects bucket target = some copied ∧
    S3Service.IsCopy contents copied

theorem copied_failed (only : OnlyAt before after bucket target) (err : ProtocolError) :
    Copied before bucket target contents (.error err) after := ⟨only, nofun⟩

theorem copied_of_copies (isSource : before.objects bucket source = some contents)
    (copies : before.Copies after bucket source target) (result : Except ProtocolError Unit) :
    Copied before bucket target contents result after := by
  obtain ⟨found, copied, isFound, isCopy, rfl⟩ := copies
  rw [isSource] at isFound
  cases isFound
  exact ⟨onlyAt_withObject rfl _ _ _, fun _ => ⟨copied, objects_withObject_self _ _ _ _, isCopy⟩⟩

theorem copyObject_spec (isSource : before.objects bucket source = some contents) :
    Ensures S3Service.serves (fun state => state = before)
      (send (.copyObject bucket source target)) (Copied before bucket target contents) := by
  apply ensures_send
  rintro _ answer after rfl served
  cases answer with
  | ok _ => exact copied_of_copies isSource served _
  | error err =>
    rcases served with rfl | copies
    · exact copied_failed (onlyAt_of_objects rfl _ _) err
    · exact copied_of_copies isSource copies _

/-! ### Copies in parts -/

/-- The parts of a copy that are stored, which are so many bytes together. -/
structure Copying (before : S3Service) (bucket target id : String) (contents : List UInt8)
    (parts : List (Nat × String)) (index size : Nat) (service : S3Service) : Prop where
  objects : service.objects = before.objects
  numbers : ∀ part ∈ parts, part.1 ≤ index
  assembled : ∀ stored ∈ service.uploads, stored.Is bucket target id →
    stored.assembled parts = some (contents.take size)

/-- One more part is put behind the others. -/
theorem assembled_put {stored : StoredUpload} {parts : List (Nat × String)} {number : Nat}
    {known : List UInt8} (part : StoredPart) (fresh : ∀ other ∈ parts, other.1 ≠ number)
    (assembled : stored.assembled parts = some known) :
    (stored.put number part).assembled (parts ++ [(number, part.etag)]) =
      some (known ++ part.data) := by
  induction parts generalizing known with
  | nil =>
    cases assembled
    simp [StoredUpload.assembled, StoredUpload.put, OrderedMap.get?_insert]
  | cons first parts ih =>
    obtain ⟨other, etag⟩ := first
    obtain ⟨notNumber, fresh⟩ := List.forall_mem_cons.mp fresh
    have isKept : (stored.put number part).parts.get? other = stored.parts.get? other := by
      rw [StoredUpload.put, OrderedMap.get?_insert, if_neg notNumber]
    rw [StoredUpload.assembled] at assembled
    rw [List.cons_append, StoredUpload.assembled, isKept]
    cases isFound : stored.parts.get? other with
    | none =>
      rw [isFound] at assembled
      cases assembled
    | some found =>
      rw [isFound] at assembled
      simp only [Option.bind_eq_bind, Option.bind_some] at assembled ⊢
      split_ifs at assembled ⊢ with sameTag
      obtain ⟨rest, isRest, rfl⟩ := Option.map_eq_some_iff.mp assembled
      rw [ih fresh isRest, Option.map_some, List.append_assoc]

/-- What a copied part adds. -/
theorem Copying.add {parts : List (Nat × String)} {index first last number : Nat} {etag : String}
    (copying : Copying before bucket target id contents parts index first service)
    (isSource : before.objects bucket source = some contents) (inside : first ≤ last + 1)
    (isNumber : number = index + 1)
    (copies : service.CopiesPart after bucket source target id number first last etag) :
    Copying before bucket target id contents (parts ++ [(number, etag)]) number (last + 1) after := by
  obtain ⟨found, isFound, _, modified, rfl⟩ := copies
  rw [copying.objects, isSource] at isFound
  cases isFound
  refine ⟨copying.objects, ?_, ?_⟩
  · intro part isPart
    rcases List.mem_append.mp isPart with isBefore | isLast
    · have := copying.numbers part isBefore
      omega
    · rw [List.mem_singleton.mp isLast]
  · intro stored isStored named
    obtain ⟨old, isOld, rfl⟩ := List.mem_map.mp isStored
    by_cases wasNamed : old.Is bucket target id
    · rw [if_pos wasNamed, assembled_put _ _ (copying.assembled old isOld wasNamed)]
      · rw [S3Service.slice, ← List.take_add, Nat.add_sub_cancel' inside]
      · intro other isOther
        have := copying.numbers other isOther
        omega
    · rw [if_neg wasNamed] at named
      exact absurd named wasNamed

theorem copyPart_spec {parts : List (Nat × String)} {index first last number : Nat}
    (isSource : before.objects bucket source = some contents) (inside : first ≤ last + 1)
    (isNumber : number = index + 1) :
    Ensures S3Service.serves (Copying before bucket target id contents parts index first)
      (send (.copyPart bucket source target id number first last)) fun result after =>
        after.objects = before.objects ∧ ∀ etag, result = .ok (some etag) →
          Copying before bucket target id contents (parts ++ [(number, etag)]) number (last + 1)
            after := by
  apply ensures_send
  intro state answer after copying served
  have unconfirmed (stores : after = state ∨ ∃ part, after = state.withPart bucket target id number
      part) : after.objects = before.objects := by
    rcases stores with rfl | ⟨part, rfl⟩
    · exact copying.objects
    · exact copying.objects
  match answer, served with
  | .ok (some etag), served =>
    have copied := copying.add isSource inside isNumber served
    refine ⟨copied.objects, fun other same => ?_⟩
    cases same
    exact copied
  | .ok none, served => exact ⟨unconfirmed served, nofun⟩
  | .error err, served => exact ⟨unconfirmed served, nofun⟩

theorem completeWith_spec {parts : List (Nat × String)} {index size : Nat}
    (isWhole : contents.length ≤ size) :
    Ensures S3Service.serves (Copying before bucket target id contents parts index size)
      (S3Fs.completeWith bucket target id parts) (Copied before bucket target contents) := by
  apply ensures_bind (Copied before bucket target contents)
  · apply ensures_send
    intro state answer after copying served
    have assembles (result : Except ProtocolError Unit)
        (assembles : state.Assembles after bucket target id parts) :
        Copied before bucket target contents result after := by
      obtain ⟨stored, isStored, named, found, copied, assembled, isCopy, rfl⟩ := assembles
      rw [copying.assembled stored isStored named, List.take_of_length_le isWhole] at assembled
      cases assembled
      exact ⟨onlyAt_withObject copying.objects _ _ _,
        fun _ => ⟨copied, objects_withObject_self _ _ _ _, isCopy⟩⟩
    cases answer with
    | ok _ => exact assembles _ served
    | error err =>
      rcases served with rfl | isDone
      · exact copied_failed (onlyAt_of_objects copying.objects _ _) err
      · exact assembles _ isDone
  · intro _
    apply ensures_send
    rintro state answer after copied ⟨rfl, rfl⟩
    exact ⟨copied.only, fun _ => copied.copied rfl⟩
  · intro err state copied
    exact copied

/-- The parts from one of them on, with their numbers. -/
def rangesFrom (size part index count : Nat) : List ((Nat × Nat) × Nat) :=
  (List.range' index count).map fun index =>
    ((index * part, min ((index + 1) * part) size - 1), index)

theorem zipIdx_copyRanges (size part : Nat) : (S3Fs.copyRanges size part).zipIdx =
    rangesFrom size part 0 ((size + part - 1) / part) := by
  unfold S3Fs.copyRanges rangesFrom
  apply List.ext_getElem
  · simp
  · intro index _ _
    simp

theorem copyRangesOf_spec {size part : Nat} (isSource : before.objects bucket source = some contents)
    (isSize : contents.length = size) (positive : 0 < part) (count : Nat) {index : Nat}
    (parts : List (Nat × String)) (isCount : index + count = (size + part - 1) / part) :
    Ensures S3Service.serves (Copying before bucket target id contents parts index
        (min (index * part) size))
      (S3Fs.copyRangesOf bucket source target id path parts (rangesFrom size part index count))
      (Copied before bucket target contents) := by
  induction count generalizing index parts with
  | zero =>
    have isWhole : contents.length ≤ min (index * part) size := by
      have isLast := Nat.lt_mul_div_succ (size + part - 1) positive
      rw [Nat.add_zero] at isCount
      rw [← isCount] at isLast
      have distributes : part * (index + 1) = index * part + part := by
        rw [Nat.mul_add_one, Nat.mul_comm]
      omega
    exact completeWith_spec isWhole
  | succ count ih =>
    have begins : index * part < size := by
      have isLast : (index + 1) * part ≤ size + part - 1 :=
        (Nat.le_div_iff_mul_le positive).mp (by omega)
      have distributes := Nat.add_one_mul index part
      omega
    have further := Nat.add_one_mul index part
    rw [Nat.min_eq_left begins.le, rangesFrom, List.range'_succ, List.map_cons, S3Fs.copyRangesOf]
    apply ensures_bind _ (copyPart_spec isSource (by omega) rfl)
    · intro etag
      cases etag with
      | none =>
        apply ensures_done
        intro state sent
        exact copied_failed (onlyAt_of_objects sent.1 _ _) _
      | some etag =>
        have isNext : min ((index + 1) * part) size - 1 + 1 =
            min ((index + 1) * part) size := by omega
        apply (ih (parts ++ [(index + 1, etag)]) (by omega)).strengthen
        intro state sent
        rw [← isNext]
        exact sent.2 etag rfl
    · intro err state sent
      exact copied_failed (onlyAt_of_objects sent.1 _ _) err

theorem createUpload_copying (contents : List UInt8) :
    Ensures S3Service.serves (fun state => state = before) (S3Fs.createUpload bucket target)
      fun result after => after.objects = before.objects ∧ ∀ id, result = .ok id →
        Copying before bucket target id contents [] 0 0 after := by
  have starts {after : S3Service} (same : after.objects = before.objects) (id : String) :
      Copying before bucket target id contents [] 0 0 after := by
    refine ⟨same, ?_, ?_⟩
    · intro part isPart
      cases isPart
    · intro stored _ _
      rfl
  apply ensures_bind fun _ after => after.objects = before.objects
  · apply ensures_send
    rintro _ answer after rfl served
    cases answer with
    | ok id =>
      obtain ⟨_, _, rfl⟩ := served
      rfl
    | error err =>
      rcases served with rfl | ⟨_, _, _, rfl⟩
      · rfl
      · rfl
  · intro id
    apply ensures_bind fun _ after => after.objects = before.objects
    · apply ensures_send
      rintro state answer after same ⟨_, rfl⟩
      exact same
    · intro _
      apply ensures_done
      intro state same
      exact ⟨same, fun other _ => starts same other⟩
    · intro err state same
      exact ⟨same, nofun⟩
  · intro err state same
    exact ⟨same, nofun⟩

theorem abort_objects (holds : (String → String → Option (List UInt8)) → Prop)
    (upload : Upload) : Ensures S3Service.serves (fun state => holds state.objects)
      (S3Fs.abort bucket upload) fun _ after => holds after.objects := by
  apply ensures_bind fun _ after => holds after.objects
  · apply ensures_send
    intro state answer after isHeld served
    cases answer with
    | ok _ =>
      cases served
      exact isHeld
    | error err =>
      rcases served with rfl | rfl
      · exact isHeld
      · exact isHeld
  · intro _
    apply ensures_send
    rintro state answer after isHeld ⟨_, rfl⟩
    exact isHeld
  · intro err state isHeld
    exact isHeld

theorem copyLarge_spec (isSource : before.objects bucket source = some contents) :
    Ensures S3Service.serves (fun state => state = before)
      (S3Fs.copyLarge bucket source target contents.length path)
      (Copied before bucket target contents) := by
  apply ensures_bind _ (createUpload_copying contents)
  · intro id
    have copies : Ensures S3Service.serves (Copying before bucket target id contents [] 0 0)
        (S3Fs.copyParts bucket source target id contents.length path)
        (Copied before bucket target contents) := by
      have copies := @copyRangesOf_spec before bucket source target id contents path _ _ isSource
        rfl (by decide : 0 < S3Fs.copyPartSize) _ 0 [] (Nat.zero_add _)
      rw [Nat.zero_mul, Nat.zero_min, ← zipIdx_copyRanges] at copies
      exact copies
    apply ensures_attempt_bind _ (copies.strengthen fun state created => created.2 id rfl)
    intro result
    cases result with
    | ok _ => exact ensures_done fun state copied => copied
    | error err =>
      have aborts : Ensures S3Service.serves (Copied before bucket target contents (.error err))
          (S3Fs.abort bucket ⟨target, id, none⟩) fun _ after => OnlyAt before after bucket target :=
        (abort_objects (fun objects => ∀ place name, ¬(place = bucket ∧ name = target) →
          objects place name = before.objects place name) _).strengthen fun _ copied => copied.only
      apply ensures_attempt_bind _ aborts
      intro _
      apply ensures_done
      intro state only
      exact copied_failed only err
  · intro err state created
    exact copied_failed (onlyAt_of_objects created.1 _ _) err

/-- What a copy that was looked at does. -/
structure Confirmed (before : S3Service) (bucket target : String) (contents : List UInt8)
    (result : Except ProtocolError Unit) (after : S3Service) : Prop where
  only : OnlyAt before after bucket target
  isCopy : result = .ok () → after.objects bucket target = some contents

/-- The rest of `copy`, after the copy was made. -/
def confirm (bucket target : String) (size : Nat) (path : Path) : S3Program Unit := do
  let copied ← send (.head bucket target)
  if copied.any fun metadata => metadata.size = size then pure ()
  else
    let _ ← (send (.delete bucket target)).attempt
    fail ⟨.other, "the copy of " ++ path.text ++ " is incomplete"⟩

theorem delete_spec (pre : S3Service → Prop)
    (only : ∀ state, pre state → OnlyAt before state bucket target) :
    Ensures S3Service.serves pre (send (.delete bucket target)) fun result after =>
      OnlyAt before after bucket target ∧
        (result = .ok () → after.objects bucket target = none) := by
  apply ensures_send
  intro state answer after isPre served
  cases answer with
  | ok _ =>
    rw [show after = state.withoutObjects bucket [target] from served]
    refine ⟨onlyAt_without (only state isPre), fun _ => ?_⟩
    exact if_pos ⟨rfl, List.mem_singleton_self _⟩
  | error err =>
    rcases served with rfl | rfl
    · exact ⟨only _ isPre, nofun⟩
    · exact ⟨onlyAt_without (only state isPre), nofun⟩

theorem confirm_spec : Ensures S3Service.serves (Copied before bucket target contents (.ok ()))
    (confirm bucket target contents.length path) (Confirmed before bucket target contents) := by
  apply ensures_bind fun result after => OnlyAt before after bucket target ∧ ∀ found,
    result = .ok found → (found.any fun metadata => metadata.size = contents.length) = true →
      after.objects bucket target = some contents
  · apply ensures_send
    rintro state answer after copied ⟨rfl, tells⟩
    refine ⟨copied.only, ?_⟩
    intro found isFound sameSize
    obtain ⟨modified, rfl⟩ := tells found isFound
    obtain ⟨there, isThere, isCopy⟩ := copied.copied rfl
    rw [isThere] at sameSize ⊢
    rcases isCopy with rfl | otherSize
    · rfl
    · exact absurd (by simpa [S3Fs.file] using sameSize) otherSize
  · intro found
    split_ifs with sameSize
    · apply ensures_done
      intro state looked
      exact ⟨looked.1, fun _ => looked.2 found rfl sameSize⟩
    · apply ensures_attempt_bind _ (delete_spec _ fun state looked => looked.1)
      intro _
      apply ensures_done
      intro state deleted
      exact ⟨deleted.1, nofun⟩
  · intro err state looked
    exact ⟨looked.1, nofun⟩

theorem copy_spec (isSource : before.objects bucket source = some contents) :
    Ensures S3Service.serves (fun state => state = before)
      (S3Fs.copy bucket source target contents.length path)
      (Confirmed before bucket target contents) := by
  have fails (err : ProtocolError) (state : S3Service)
      (copied : Copied before bucket target contents (.error err) state) :
      Confirmed before bucket target contents (.error err) state := ⟨copied.only, nofun⟩
  unfold S3Fs.copy
  dsimp only
  split_ifs
  · exact (copyObject_spec isSource).bind (fun _ => confirm_spec) fails
  · exact (copyLarge_spec isSource).bind (fun _ => confirm_spec) fails

end Copies

end S3Moves

end Porthmos
