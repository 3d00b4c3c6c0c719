import Porthmos.S3Copies
import Porthmos.S3Items

/-!
# Moving objects

Objects are moved by copying them and deleting the originals when all copies are there.  Whatever
request fails, every object is still at its old key or at its new one.
-/

namespace Porthmos

namespace S3Moves

open Program

/-! ### Looking -/

section Looking

variable {α β : Type} {before : S3Service} {bucket key : String}

/-- A program that changes nothing; what is known of its result. -/
def Tells (before : S3Service) (program : S3Program α) (known : α → Prop) : Prop :=
  Ensures S3Service.serves (fun state => state = before) program fun result after =>
    after = before ∧ ∀ value, result = .ok value → known value

theorem tells_pure {known : α → Prop} {value : α} (isKnown : known value) :
    Tells before (pure value) known := by
  apply ensures_done
  rintro _ rfl
  refine ⟨rfl, ?_⟩
  rintro _ ⟨⟩
  exact isKnown

theorem tells_fail {known : α → Prop} (err : ProtocolError) :
    Tells before (fail err : S3Program α) known := by
  apply ensures_done
  rintro _ rfl
  exact ⟨rfl, nofun⟩

theorem tells_bind (known : α → Prop) {ends : β → Prop} {program : S3Program α}
    {next : α → S3Program β} (tells : Tells before program known)
    (rest : ∀ value, known value → Tells before (next value) ends) :
    Tells before (program.bind next) ends := by
  apply ensures_bind _ tells
  · intro value
    apply ensures_of_pre (known value) fun _ told => told.2 value rfl
    intro isKnown
    exact (rest value isKnown).strengthen fun _ told => told.1
  · rintro err state ⟨same, _⟩
    exact ⟨same, nofun⟩

theorem Tells.bind {known : α → Prop} {ends : β → Prop} {program : S3Program α}
    {next : α → S3Program β} (tells : Tells before program known)
    (rest : ∀ value, known value → Tells before (next value) ends) :
    Tells before (program.bind next) ends :=
  tells_bind known tells rest

theorem Tells.andThen {known : α → Prop} {program : S3Program α} {next : α → S3Program β}
    {ends : Except ProtocolError β → S3Service → Prop} (tells : Tells before program known)
    (rest : ∀ value, known value → Ensures S3Service.serves (fun state => state = before)
      (next value) ends) (fails : ∀ err, ends (.error err) before) :
    Ensures S3Service.serves (fun state => state = before) (program.bind next) ends := by
  apply ensures_bind _ tells
  · intro value
    apply ensures_of_pre (known value) fun _ told => told.2 value rfl
    intro isKnown
    exact (rest value isKnown).strengthen fun _ told => told.1
  · rintro err state ⟨rfl, _⟩
    exact fails err

theorem tells_send {known : α → Prop} {asked : S3Request α}
    (serves : ∀ answer after, S3Service.serves α before asked answer after →
      after = before ∧ ∀ value, answer = .ok value → known value) :
    Tells before (send asked) known := by
  apply ensures_send
  rintro _ answer after rfl served
  exact serves answer after served

theorem tells_attempt {known : α → Prop} {program : S3Program α}
    (tells : Tells before program known) :
    Tells before program.attempt fun result => ∀ value, result = .ok value → known value := by
  apply ensures_attempt _ tells
  rintro result state ⟨same, isKnown⟩
  refine ⟨same, ?_⟩
  rintro _ ⟨⟩
  exact isKnown

/-- An upload that the service or the client knows. -/
def HasUpload (before : S3Service) (bucket key : String) : Prop :=
  (∃ stored ∈ before.uploads, stored.bucket = bucket ∧ stored.key = key) ∨
    ∃ upload ∈ before.started, upload.bucket = bucket ∧ upload.key = key

theorem tells_startedUpload : Tells before (S3Fs.startedUpload bucket key) fun found =>
    found.isSome → HasUpload before bucket key := by
  apply tells_bind (fun started => started = before.started)
  · apply tells_send
    rintro answer after ⟨rfl, rfl⟩
    refine ⟨rfl, ?_⟩
    rintro _ ⟨⟩
    rfl
  · rintro _ rfl
    apply tells_pure
    intro isSome
    obtain ⟨upload, isFound⟩ := Option.isSome_iff_exists.mp isSome
    have isUpload : upload.bucket = bucket ∧ upload.key = key := by
      simpa using List.find?_some isFound
    exact .inr ⟨upload, List.mem_reverse.mp (List.mem_of_find?_eq_some isFound), isUpload⟩

theorem tells_latestUpload : Tells before (S3Fs.latestUpload bucket key) fun found =>
    found.isSome → HasUpload before bucket key := by
  apply tells_bind (fun listed => ∀ upload ∈ listed,
    ∃ stored ∈ before.uploads, stored.bucket = bucket ∧ upload = stored.listed)
  · apply tells_send
    rintro answer after ⟨rfl, lists⟩
    exact ⟨rfl, lists⟩
  · intro listed lists
    cases isNewest : newest listed key with
    | some upload =>
      apply tells_pure
      intro _
      obtain ⟨isListed, isKey⟩ := newest_mem isNewest
      obtain ⟨stored, isStored, isBucket, rfl⟩ := lists upload isListed
      exact .inl ⟨stored, isStored, isBucket, isKey⟩
    | none =>
      apply tells_startedUpload.bind
      intro started hasUpload
      apply tells_pure
      rw [Option.isSome_map]
      exact hasUpload

theorem tells_knownParts (id : String) :
    Tells before (S3Fs.knownParts bucket key id) fun _ => True := by
  have reads : Tells before (send (.parts bucket key id)) fun _ => True := by
    apply tells_send
    rintro answer after rfl
    exact ⟨rfl, fun _ _ => trivial⟩
  apply (tells_attempt reads).bind
  intro answer _
  cases answer with
  | ok parts => exact tells_pure trivial
  | error err =>
    dsimp only
    split_ifs
    · apply tells_bind (fun _ => True)
      · apply tells_send
        rintro answer after ⟨_, rfl⟩
        exact ⟨rfl, fun _ _ => trivial⟩
      · intro started _
        exact tells_pure trivial
    · exact tells_fail err

theorem tells_pending : Tells before (S3Fs.pending bucket key) fun found =>
    found.isSome → HasUpload before bucket key := by
  apply tells_latestUpload.bind
  intro found hasUpload
  cases found with
  | none => exact tells_pure nofun
  | some upload =>
    apply (tells_knownParts upload.id).bind
    intro parts _
    apply tells_pure
    intro _
    exact hasUpload rfl

/-- What there is at a key: an object, or else a folder, or nothing. -/
def IsFound (before : S3Service) (bucket key : String) : Option Metadata → Prop
  | some metadata => (metadata.isDir = false ∧ ∃ contents,
      before.objects bucket key = some contents ∧ metadata.size = contents.length) ∨
    (metadata.isDir = true ∧ before.objects bucket key = none)
  | none => before.objects bucket key = none ∧
      ∀ name, before.objects bucket (key ++ "/" ++ name) = none

theorem tells_isFolder : Tells before (S3Fs.isFolder bucket key) fun found =>
    found = false → ∀ name, before.objects bucket (key ++ "/" ++ name) = none := by
  apply tells_bind (fun page => (page.objects ≠ [] ∨ page.prefixes ≠ []) ↔
    ∃ rest, (before.objects bucket (key ++ "/" ++ rest)).isSome)
  · apply tells_send
    rintro answer after ⟨rfl, isPage⟩
    exact ⟨rfl, isPage⟩
  · intro page isPage
    apply tells_pure
    intro notFolder name
    by_contra isThere
    have isSome := Option.isSome_iff_ne_none.mpr isThere
    have notEmpty := isPage.mpr ⟨name, isSome⟩
    simp only [Bool.or_eq_false_iff, Bool.not_eq_false', List.isEmpty_iff] at notFolder
    exact notEmpty.elim (fun some => some notFolder.1) fun some => some notFolder.2

theorem tells_findObject : Tells before (S3Fs.findObject bucket key)
    (IsFound before bucket key) := by
  apply tells_bind (fun found => ∃ modified, found =
    (before.objects bucket key).map fun contents => S3Fs.file contents.length modified)
  · apply tells_send
    rintro answer after ⟨rfl, isHead⟩
    exact ⟨rfl, isHead⟩
  · rintro _ ⟨modified, rfl⟩
    cases isObject : before.objects bucket key with
    | some contents =>
      apply tells_pure
      exact .inl ⟨rfl, contents, isObject, rfl⟩
    | none =>
      apply tells_isFolder.bind
      intro found notFolder
      apply tells_pure
      cases found with
      | true => exact .inr ⟨rfl, isObject⟩
      | false => exact ⟨isObject, notFolder rfl⟩

/-- What is found at a path; of a staged upload only that there is one. -/
theorem tells_find {fs : S3Fs} {path : Path} (isLocated : fs.locate path = .object bucket key) :
    Tells before (fs.find path) fun found => IsFound before bucket key found ∨
      found.isSome ∧ ∃ staged, stagedKey key = some staged ∧ HasUpload before bucket staged := by
  have finds : Tells before (S3Fs.findObject bucket key) fun found =>
      IsFound before bucket key found ∨ found.isSome ∧ ∃ staged, stagedKey key = some staged ∧
        HasUpload before bucket staged :=
    tells_findObject.weaken fun _ _ told => ⟨told.1, fun value same => .inl (told.2 value same)⟩
  rw [S3Fs.find, isLocated]
  dsimp only
  cases isStaged : stagedKey key with
  | none =>
    rw [isStaged] at finds
    exact finds
  | some staged =>
    rw [isStaged] at finds
    apply tells_pending.bind
    intro found hasUpload
    cases found with
    | none => exact finds
    | some pending =>
      apply tells_pure
      exact .inr ⟨rfl, staged, rfl, hasUpload rfl⟩

end Looking

/-! ### Deleting -/

section Deleting

variable {before after service : S3Service} {bucket : String} {keys : List String} {path : Path}

/-- Nothing but some objects with these keys is gone. -/
def OnlyWithout (before : S3Service) (bucket : String) (keys : List String) (after : S3Service) :
    Prop :=
  ∀ place name, after.objects place name = before.objects place name ∨
    place = bucket ∧ name ∈ keys ∧ after.objects place name = none

theorem onlyWithout_refl (before : S3Service) (bucket : String) (keys : List String) :
    OnlyWithout before bucket keys before := fun _ _ => .inl rfl

theorem OnlyWithout.further (only : OnlyWithout before bucket keys service)
    {deleted : List String} (inside : deleted ⊆ keys) :
    OnlyWithout before bucket keys (service.withoutObjects bucket deleted) := by
  intro place name
  change (if place = bucket ∧ name ∈ deleted then none else service.objects place name) = _ ∨ _ ∧
    _ ∧ (if place = bucket ∧ name ∈ deleted then none else service.objects place name) = none
  split_ifs with isDeleted
  · exact .inr ⟨isDeleted.1, inside isDeleted.2, rfl⟩
  · exact only place name

theorem gone_further {name : String} (gone : service.objects bucket name = none)
    (deleted : List String) : (service.withoutObjects bucket deleted).objects bucket name = none := by
  change (if bucket = bucket ∧ name ∈ deleted then none else service.objects bucket name) = none
  split_ifs
  · rfl
  · exact gone

/-- What is left to delete. -/
structure Deleting (before : S3Service) (bucket : String) (keys left : List String)
    (service : S3Service) : Prop where
  only : OnlyWithout before bucket keys service
  gone : ∀ key ∈ keys, key ∉ left → service.objects bucket key = none

theorem Deleting.further {left deleted more : List String}
    (deleting : Deleting before bucket keys left service) (inside : deleted ⊆ keys)
    (isMore : ∀ key ∈ left, key ∉ more → key ∈ deleted) :
    Deleting before bucket keys more (service.withoutObjects bucket deleted) := by
  refine ⟨deleting.only.further inside, ?_⟩
  intro key isKey notMore
  by_cases isLeft : key ∈ left
  · exact if_pos ⟨rfl, isMore key isLeft notMore⟩
  · exact gone_further (deleting.gone key isKey isLeft) deleted

/-- What a deletion leaves: keys still to delete, or after a failure at most less objects. -/
def DeletedUpTo (before : S3Service) (bucket : String) (keys left : List String) :
    Except ProtocolError Unit → S3Service → Prop
  | .ok _, service => Deleting before bucket keys left service
  | .error _, service => OnlyWithout before bucket keys service

theorem deleteEach_spec (left more : List String) (inside : left ⊆ keys) :
    Ensures S3Service.serves (Deleting before bucket keys (left ++ more))
      (forEach (fun key => send (.delete bucket key)) left)
      (DeletedUpTo before bucket keys more) := by
  have each := @ensures_forEach S3Service S3Request ProtocolError String S3Service.serves
    (fun key => send (.delete bucket key))
    (fun left service => left ⊆ keys ∧ Deleting before bucket keys (left ++ more) service)
    (DeletedUpTo before bucket keys more)
  apply (each ?_ ?_ left).strengthen fun state deleting => ⟨inside, deleting⟩
  · intro key rest
    apply ensures_send
    rintro state answer after ⟨areKeys, deleting⟩ served
    have isKey : [key] ⊆ keys := by simpa using areKeys List.mem_cons_self
    cases answer with
    | ok _ =>
      cases served
      refine ⟨fun other isOther => areKeys (List.mem_cons_of_mem _ isOther), ?_⟩
      apply deleting.further isKey
      intro other isLeft notMore
      rcases List.mem_cons.mp isLeft with rfl | isRest
      · exact List.mem_singleton_self _
      · exact absurd isRest notMore
    | error err =>
      rcases served with rfl | rfl
      · exact deleting.only
      · exact deleting.only.further isKey
  · rintro state ⟨_, deleting⟩
    exact deleting

/-- What the answer to a batch leaves. -/
def AnsweredBatch (before : S3Service) (bucket : String) (keys left more : List String) :
    Except ProtocolError DeleteReply → S3Service → Prop
  | .ok .notImplemented, service => Deleting before bucket keys (left ++ more) service
  | .ok (.done []), service => Deleting before bucket keys more service
  | _, service => OnlyWithout before bucket keys service

theorem deleteBatchOf_spec (left more : List String) (inside : left ⊆ keys) :
    Ensures S3Service.serves (Deleting before bucket keys (left ++ more))
      (S3Fs.deleteBatchOf bucket path left) (DeletedUpTo before bucket keys more) := by
  apply ensures_bind (AnsweredBatch before bucket keys left more)
  · apply ensures_send
    intro state answer after deleting served
    rcases answer with err | reply
    · obtain ⟨deleted, rfl, areLeft⟩ := served
      exact deleting.only.further fun key isKey => inside (areLeft isKey)
    · rcases reply with _ | errors
      · cases served
        exact deleting
      · rcases errors with _ | ⟨failed, rest⟩
        · obtain ⟨deleted, rfl, areLeft, all⟩ := served
          apply deleting.further fun key isKey => inside (areLeft isKey)
          intro key isKey notMore
          exact all key ((List.mem_append.mp isKey).resolve_right notMore) nofun
        · obtain ⟨deleted, rfl, areLeft, _⟩ := served
          exact deleting.only.further fun key isKey => inside (areLeft isKey)
  · intro reply
    rcases reply with _ | errors
    · exact deleteEach_spec left more inside
    · rcases errors with _ | ⟨failed, rest⟩
      · exact ensures_done fun state deleting => deleting
      · exact ensures_done fun state only => only
  · intro err state only
    exact only

theorem deleteBatch_pos : 0 < S3Fs.deleteBatch := by decide

theorem flatten_batchesFrom (keys : List String) (count : Nat) {index : Nat}
    (isCount : index + count = (keys.length + S3Fs.deleteBatch - 1) / S3Fs.deleteBatch) :
    ((List.range' index count).map fun index =>
      (keys.drop (index * S3Fs.deleteBatch)).take S3Fs.deleteBatch).flatten =
        keys.drop (index * S3Fs.deleteBatch) := by
  induction count generalizing index with
  | zero =>
    have isLast := Nat.lt_mul_div_succ (keys.length + S3Fs.deleteBatch - 1) deleteBatch_pos
    rw [Nat.add_zero] at isCount
    rw [← isCount, Nat.mul_add_one, Nat.mul_comm] at isLast
    have beyond : keys.length ≤ index * S3Fs.deleteBatch := by omega
    rw [List.drop_eq_nil_of_le beyond]
    rfl
  | succ count ih =>
    rw [List.range'_succ, List.map_cons, List.flatten_cons, ih (by omega), Nat.add_one_mul,
      ← List.drop_drop, List.take_append_drop]

theorem flatten_batches (keys : List String) : (S3Fs.batches keys).flatten = keys := by
  have batches := @flatten_batchesFrom keys _ 0 (Nat.zero_add _)
  rw [Nat.zero_mul, List.drop_zero, ← List.range_eq_range'] at batches
  exact batches

theorem deleteKeys_spec : Ensures S3Service.serves (fun state => state = before)
    (S3Fs.deleteKeys bucket keys path) fun result after =>
      OnlyWithout before bucket keys after ∧
        (result = .ok () → ∀ key ∈ keys, after.objects bucket key = none) := by
  have each := @ensures_forEach S3Service S3Request ProtocolError (List String) S3Service.serves
    (S3Fs.deleteBatchOf bucket path)
    (fun left service => left.flatten ⊆ keys ∧ Deleting before bucket keys left.flatten service)
    (fun result after => OnlyWithout before bucket keys after ∧
      (result = .ok () → ∀ key ∈ keys, after.objects bucket key = none))
  apply (each ?_ ?_ (S3Fs.batches keys)).strengthen
  · rintro _ rfl
    rw [flatten_batches]
    exact ⟨List.Subset.refl _, onlyWithout_refl _ _ _, fun key isKey notKey => absurd isKey notKey⟩
  · intro batch rest
    apply ensures_of_pre (batch ⊆ keys ∧ rest.flatten ⊆ keys)
    · rintro state ⟨inside, _⟩
      rw [List.flatten_cons] at inside
      exact List.append_subset.mp inside
    · rintro ⟨inside, restInside⟩
      have deletes := @deleteBatchOf_spec before bucket keys path batch rest.flatten inside
      rw [← List.flatten_cons] at deletes
      apply (deletes.strengthen fun state deleting => deleting.2).weaken
      intro result state ended
      cases result with
      | ok _ => exact ⟨restInside, ended⟩
      | error err => exact ⟨ended, nofun⟩
  · rintro state ⟨_, deleting⟩
    exact ⟨deleting.only, fun _ key isKey => deleting.gone key isKey nofun⟩

end Deleting

/-! ### Moving a folder -/

section Folders

variable {before after service : S3Service} {bucket source target : String} {path : Path}

/-- All objects are there, and those that are not left have their copies. -/
structure Moving (before : S3Service) (bucket source target : String) (left : List S3Object)
    (service : S3Service) : Prop where
  kept : ∀ place key contents, before.objects place key = some contents →
    service.objects place key = some contents
  copied : ∀ name contents, before.objects bucket (source ++ "/" ++ name) = some contents →
    source ++ "/" ++ name ∉ left.map S3Object.key →
      service.objects bucket (target ++ "/" ++ name) = some contents

theorem moveObject_spec {name : String} {object : S3Object} (left : List S3Object)
    {contents : List UInt8} (isKey : object.key = source ++ "/" ++ name)
    (isObject : before.objects bucket object.key = some contents)
    (isSize : contents.length = object.size)
    (free : ∀ other, before.objects bucket (target ++ "/" ++ other) = none) :
    Ensures S3Service.serves (Moving before bucket source target (object :: left))
      (S3Fs.moveObject bucket source target path object) fun result after => match result with
        | .ok _ => Moving before bucket source target left after
        | .error _ => ∀ place key contents, before.objects place key = some contents →
            after.objects place key = some contents := by
  constructor
  intro state result after moving run
  have newKey : target ++ afterKeys object.key source = target ++ "/" ++ name := by
    rw [isKey, String.append_assoc, afterKeys_append, String.append_assoc]
  have kept {copied : Except ProtocolError Unit} {after : S3Service}
      (confirmed : Confirmed state bucket (target ++ "/" ++ name) contents copied after) :
      ∀ place key contents, before.objects place key = some contents →
        after.objects place key = some contents := by
    intro place key other isOther
    rw [confirmed.only, moving.kept place key other isOther]
    rintro ⟨rfl, rfl⟩
    rw [free name] at isOther
    cases isOther
  have copies := @copy_spec state bucket object.key (target ++ "/" ++ name) contents path
    (moving.kept bucket object.key contents isObject)
  rw [isSize] at copies
  have moves : Ensures S3Service.serves (fun other => other = state)
      (S3Fs.moveObject bucket source target path object) fun result after => match result with
        | .ok _ => Moving before bucket source target left after
        | .error _ => ∀ place key contents, before.objects place key = some contents →
            after.objects place key = some contents := by
    rw [S3Fs.moveObject, newKey]
    apply ensures_attempt_bind _ copies
    intro result
    cases result with
    | ok _ =>
      apply ensures_done
      intro after confirmed
      refine ⟨kept confirmed, ?_⟩
      intro other otherContents isOther notLeft
      by_cases same : other = name
      · subst same
        rw [← isKey, isObject] at isOther
        cases isOther
        exact confirmed.isCopy rfl
      · rw [confirmed.only]
        · apply moving.copied other otherContents isOther
          rw [List.map_cons, List.mem_cons, not_or]
          refine ⟨?_, notLeft⟩
          rw [isKey, String.append_right_inj]
          exact same
        · rintro ⟨_, sameKey⟩
          exact same ((String.append_right_inj _).mp sameKey)
    | error err =>
      apply ensures_done
      intro after confirmed
      exact kept confirmed
  exact moves.of_run state result after rfl run

/-- What a folder's move does to objects. -/
structure MovedFolder (before : S3Service) (bucket source target : String)
    (result : Except ProtocolError Unit) (after : S3Service) : Prop where
  kept : ∀ name contents, before.objects bucket (source ++ "/" ++ name) = some contents →
    after.objects bucket (source ++ "/" ++ name) = some contents ∨
      after.objects bucket (target ++ "/" ++ name) = some contents
  others : ∀ place key contents, before.objects place key = some contents →
    (place = bucket → ∀ name, key ≠ source ++ "/" ++ name) →
      after.objects place key = some contents
  done : result = .ok () → ∀ name contents,
    before.objects bucket (source ++ "/" ++ name) = some contents →
      after.objects bucket (target ++ "/" ++ name) = some contents ∧
        after.objects bucket (source ++ "/" ++ name) = none

theorem movedFolder_failed (kept : ∀ place key contents,
      before.objects place key = some contents → after.objects place key = some contents)
    (err : ProtocolError) : MovedFolder before bucket source target (.error err) after :=
  ⟨fun _ contents isObject => .inl (kept bucket _ contents isObject),
    fun place key contents isObject _ => kept place key contents isObject, nofun⟩

theorem movedFolder_of_deleted {listing : S3Listing}
    (lists : before.Lists bucket (source ++ "/") listing)
    (free : ∀ other, before.objects bucket (target ++ "/" ++ other) = none)
    (moving : Moving before bucket source target [] service)
    (only : OnlyWithout service bucket (listing.objects.map S3Object.key) after)
    {result : Except ProtocolError Unit} (gone : result = .ok () →
      ∀ key ∈ listing.objects.map S3Object.key, after.objects bucket key = none) :
    MovedFolder before bucket source target result after := by
  have isListed {key : String} : key ∈ listing.objects.map S3Object.key ↔
      (∃ rest, key = source ++ "/" ++ rest) ∧ ∃ contents,
        before.objects bucket key = some contents := by
    rw [List.mem_map]
    constructor
    · rintro ⟨object, isIn, rfl⟩
      obtain ⟨below, contents, isObject, _⟩ := (lists.all object.key object.size).mp
        ⟨object, isIn, rfl, rfl⟩
      exact ⟨below, contents, isObject⟩
    · rintro ⟨below, contents, isObject⟩
      obtain ⟨object, isIn, isKey, _⟩ := (lists.all key contents.length).mpr
        ⟨below, contents, isObject, rfl⟩
      exact ⟨object, isIn, isKey⟩
  have arrived (name : String) (contents : List UInt8)
      (isObject : before.objects bucket (source ++ "/" ++ name) = some contents) :
      after.objects bucket (target ++ "/" ++ name) = some contents := by
    rcases only bucket (target ++ "/" ++ name) with same | ⟨_, isIn, _⟩
    · rw [same]
      exact moving.copied name contents isObject nofun
    · obtain ⟨_, other, isOther⟩ := isListed.mp isIn
      rw [free name] at isOther
      cases isOther
  refine ⟨fun name contents isObject => .inr (arrived name contents isObject), ?_, ?_⟩
  · intro place key contents isObject notBelow
    rcases only place key with same | ⟨isPlace, isIn, _⟩
    · rw [same]
      exact moving.kept place key contents isObject
    · obtain ⟨⟨rest, isKey⟩, _⟩ := isListed.mp isIn
      exact absurd isKey (notBelow isPlace rest)
  · intro isOk name contents isObject
    refine ⟨arrived name contents isObject, gone isOk _ ?_⟩
    exact isListed.mpr ⟨⟨name, rfl⟩, contents, isObject⟩

theorem abortUploads_spec (holds : (String → String → Option (List UInt8)) → Prop)
    (below : String) : Ensures S3Service.serves (fun state => holds state.objects)
      ((send (.uploads bucket below false)).bind fun uploads =>
        forEach (S3Fs.abort bucket) uploads) fun _ after => holds after.objects := by
  apply ensures_bind fun _ after => holds after.objects
  · apply ensures_send
    rintro state answer after isHeld ⟨rfl, _⟩
    exact isHeld
  · intro uploads
    apply ensures_forEach fun _ (state : S3Service) => holds state.objects
    · intro upload rest
      apply (abort_objects holds upload).weaken
      intro result state isHeld
      cases result with
      | ok _ => exact isHeld
      | error err => exact isHeld
    · intro state isHeld
      exact isHeld
  · intro err state isHeld
    exact isHeld

theorem moveFolder_spec (free : ∀ other, before.objects bucket (target ++ "/" ++ other) = none) :
    Ensures S3Service.serves (fun state => state = before)
      (S3Fs.moveFolder bucket source target path) (MovedFolder before bucket source target) := by
  apply ensures_bind fun result after => after = before ∧ ∀ listing, result = .ok listing →
    before.Lists bucket (source ++ "/") listing
  · apply ensures_send
    rintro _ answer after rfl served
    exact served
  · intro listing
    apply ensures_of_pre (before.Lists bucket (source ++ "/") listing)
    · rintro state ⟨_, lists⟩
      exact lists listing rfl
    · intro lists
      apply ensures_bind fun result after => match result with
        | .ok _ => Moving before bucket source target [] after
        | .error _ => ∀ place key contents, before.objects place key = some contents →
            after.objects place key = some contents
      · have each := @ensures_forEach S3Service S3Request ProtocolError S3Object
          S3Service.serves (S3Fs.moveObject bucket source target path)
          (fun left service => left ⊆ listing.objects ∧
            Moving before bucket source target left service)
          (fun result after => match result with
            | .ok _ => Moving before bucket source target [] after
            | .error _ => ∀ place key contents, before.objects place key = some contents →
                after.objects place key = some contents)
        apply (each ?_ ?_ listing.objects).strengthen
        · rintro _ ⟨rfl, _⟩
          refine ⟨List.Subset.refl _, fun place key contents isObject => isObject, ?_⟩
          intro name contents isObject notListed
          have ⟨object, isIn, isKey, _⟩ := (lists.all _ contents.length).mpr
            ⟨⟨name, rfl⟩, contents, isObject, rfl⟩
          exact absurd (List.mem_map.mpr ⟨object, isIn, isKey⟩) notListed
        · intro object rest
          apply ensures_of_pre (object :: rest ⊆ listing.objects) fun state moving => moving.1
          intro inside
          obtain ⟨⟨name, isKey⟩, contents, isObject, isSize⟩ :=
            (lists.all object.key object.size).mp ⟨object, inside List.mem_cons_self, rfl, rfl⟩
          have moves := @moveObject_spec before bucket source target path name object rest contents
            isKey isObject isSize free
          apply (moves.strengthen fun state moving => moving.2).weaken
          intro result state ended
          cases result with
          | ok _ => exact ⟨fun other isIn => inside (List.mem_cons_of_mem _ isIn), ended⟩
          | error err => exact ended
        · rintro state ⟨_, moving⟩
          exact moving
      · intro _
        have deletes : Ensures S3Service.serves (Moving before bucket source target [])
            (S3Fs.deleteKeys bucket (listing.objects.map S3Object.key) path)
            (MovedFolder before bucket source target) := by
          constructor
          intro service result after moving run
          have ended := deleteKeys_spec.of_run service result after rfl run
          exact movedFolder_of_deleted lists free moving ended.1 ended.2
        apply deletes.bind
        · intro _
          have aborts := @abortUploads_spec bucket (fun objects => ∀ after : S3Service,
            after.objects = objects → MovedFolder before bucket source target (.ok ()) after)
              (source ++ "/")
          apply (aborts.strengthen _).weaken
          · intro result state moved
            have isMoved := moved state rfl
            exact ⟨isMoved.kept, isMoved.others, fun _ => isMoved.done rfl⟩
          · intro state moved after same
            refine ⟨?_, ?_, ?_⟩
            · rw [same]
              exact moved.kept
            · rw [same]
              exact moved.others
            · rw [same]
              exact moved.done
        · intro err state moved
          exact moved
      · intro err state kept
        exact movedFolder_failed kept err
  · rintro err state ⟨rfl, _⟩
    exact movedFolder_failed (fun _ _ _ isObject => isObject) err

end Folders

/-! ### Renaming -/

section Renaming

variable {fs : S3Fs} {before after : S3Service} {bucket source target : String}
  {sourcePath targetPath : Path} {result : Except ProtocolError Unit}

/-- What is renamed: the object at the place if there is one, else what is below it. -/
def IsRenamed (before : S3Service) (bucket source rest : String) : Prop :=
  if (before.objects bucket source).isSome then rest = "" else ∃ name, rest = "/" ++ name

/-- No object is lost, and all that are renamed arrive if it succeeds. -/
structure KeepsObjects (before : S3Service) (bucket source target : String)
    (result : Except ProtocolError Unit) (after : S3Service) : Prop where
  kept : ∀ rest contents, IsRenamed before bucket source rest →
    before.objects bucket (source ++ rest) = some contents →
      after.objects bucket (source ++ rest) = some contents ∨
        after.objects bucket (target ++ rest) = some contents
  others : ∀ place key contents, before.objects place key = some contents →
    (place = bucket → ∀ rest, IsRenamed before bucket source rest → key ≠ source ++ rest) →
      ((before.objects bucket source).isSome → ¬(place = bucket ∧ key = target)) →
        after.objects place key = some contents
  done : result = .ok () → source ≠ target → ∀ rest contents,
    IsRenamed before bucket source rest → before.objects bucket (source ++ rest) = some contents →
      after.objects bucket (target ++ rest) = some contents ∧
        after.objects bucket (source ++ rest) = none

theorem keepsObjects_same (same : after.objects = before.objects)
    (failed : result = .ok () → source = target) :
    KeepsObjects before bucket source target result after := by
  refine ⟨?_, ?_, fun isOk other => absurd (failed isOk) other⟩
  · intro rest contents _ isObject
    rw [same]
    exact .inl isObject
  · intro place key contents isObject _ _
    rw [same]
    exact isObject

theorem isRenamed_file (isFile : (before.objects bucket source).isSome) (rest : String) :
    IsRenamed before bucket source rest ↔ rest = "" := by
  rw [IsRenamed, if_pos isFile]

theorem isRenamed_folder (noFile : before.objects bucket source = none) (rest : String) :
    IsRenamed before bucket source rest ↔ ∃ name, rest = "/" ++ name := by
  rw [IsRenamed, noFile]
  rfl

theorem keepsObjects_folder (noFile : before.objects bucket source = none)
    (moved : MovedFolder before bucket source target result after) :
    KeepsObjects before bucket source target result after := by
  refine ⟨?_, ?_, ?_⟩
  · intro rest contents isRenamed isObject
    obtain ⟨name, rfl⟩ := (isRenamed_folder noFile rest).mp isRenamed
    rw [← String.append_assoc, ← String.append_assoc]
    rw [← String.append_assoc] at isObject
    exact moved.kept name contents isObject
  · intro place key contents isObject notRenamed _
    apply moved.others place key contents isObject
    intro isPlace name
    rw [String.append_assoc]
    exact notRenamed isPlace _ ((isRenamed_folder noFile _).mpr ⟨name, rfl⟩)
  · intro isOk _ rest contents isRenamed isObject
    obtain ⟨name, rfl⟩ := (isRenamed_folder noFile rest).mp isRenamed
    rw [← String.append_assoc, ← String.append_assoc]
    rw [← String.append_assoc] at isObject
    exact moved.done isOk name contents isObject

theorem renameFile_spec {contents : List UInt8}
    (isFile : before.objects bucket source = some contents) (apart : source ≠ target)
    (path : Path) : Ensures S3Service.serves (fun state => state = before)
      ((S3Fs.copy bucket source target contents.length path).bind fun _ =>
        send (.delete bucket source)) (KeepsObjects before bucket source target) := by
  have isSome : (before.objects bucket source).isSome := by simp [isFile]
  -- the object at the target is all that a copy may replace
  have others {state : S3Service} (only : OnlyAt before state bucket target) (place key : String)
      (other : List UInt8) (isObject : before.objects place key = some other)
      (notTarget : ¬(place = bucket ∧ key = target)) :
      state.objects place key = some other := by
    rw [only place key notTarget]
    exact isObject
  apply ensures_bind _ (copy_spec isFile)
  · intro _
    constructor
    intro state result after confirmed run
    have deletes := @delete_spec state bucket source (fun other => other = state)
      fun other same place name _ => by rw [same]
    have deleted := deletes.of_run state result after rfl run
    have isTarget : after.objects bucket target = some contents := by
      rw [deleted.1 bucket target fun same => apart same.2.symm]
      exact confirmed.isCopy rfl
    refine ⟨?_, ?_, ?_⟩
    · intro rest other isRenamed isObject
      rw [(isRenamed_file isSome rest).mp isRenamed] at isObject ⊢
      simp only [String.append_empty] at isObject ⊢
      rw [isFile] at isObject
      cases isObject
      exact .inr isTarget
    · intro place key other isObject notRenamed notTarget
      have notSource : ¬(place = bucket ∧ key = source) := by
        rintro ⟨isPlace, rfl⟩
        exact notRenamed isPlace "" ((isRenamed_file isSome "").mpr rfl) String.append_empty.symm
      rw [deleted.1 place key notSource]
      exact others confirmed.only place key other isObject (notTarget isSome)
    · intro isOk _ rest other isRenamed isObject
      rw [(isRenamed_file isSome rest).mp isRenamed] at isObject ⊢
      simp only [String.append_empty] at isObject ⊢
      rw [isFile] at isObject
      cases isObject
      exact ⟨isTarget, deleted.2 isOk⟩
  · intro err state confirmed
    refine ⟨?_, ?_, nofun⟩
    · intro rest other isRenamed isObject
      rw [(isRenamed_file isSome rest).mp isRenamed] at isObject ⊢
      simp only [String.append_empty] at isObject ⊢
      exact .inl (others confirmed.only bucket source other isObject fun same => apart same.2)
    · intro place key other isObject _ notTarget
      exact others confirmed.only place key other isObject (notTarget isSome)

theorem tells_stat (isLocated : fs.locate sourcePath = .object bucket source)
    (notStaged : ∀ staged, stagedKey source = some staged → ¬HasUpload before bucket staged) :
    Tells before (fs.stat sourcePath) fun metadata =>
      IsFound before bucket source (some metadata) := by
  apply (tells_find isLocated).bind
  intro found isFound
  cases found with
  | none => exact tells_fail _
  | some metadata =>
    apply tells_pure
    rcases isFound with isFound | ⟨_, staged, isStaged, hasUpload⟩
    · exact isFound
    · exact absurd hasUpload (notStaged staged isStaged)

theorem renameObject_spec (sourceLocated : fs.locate sourcePath = .object bucket source)
    (targetLocated : fs.locate targetPath = .object bucket target) (apart : source ≠ target)
    (notStaged : ∀ staged, stagedKey source = some staged → ¬HasUpload before bucket staged) :
    Ensures S3Service.serves (fun state => state = before)
      (fs.renameObject sourcePath targetPath bucket source target)
      (KeepsObjects before bucket source target) := by
  have failed (err : ProtocolError) :
      KeepsObjects before bucket source target (.error err) before := keepsObjects_same rfl nofun
  have fails (err : ProtocolError) : Ensures S3Service.serves (fun state => state = before)
      (fail err) (KeepsObjects before bucket source target) := by
    apply ensures_done
    rintro state rfl
    exact failed err
  apply (tells_stat sourceLocated notStaged).andThen
  · intro metadata isFound
    apply (tells_find targetLocated).andThen
    · intro existing isExisting
      rcases isFound with ⟨isFile, contents, isObject, isSize⟩ | ⟨isFolder, noFile⟩
      · rw [isFile, isSize]
        simp only [Bool.false_eq_true, if_false]
        split_ifs
        · exact fails _
        · exact renameFile_spec isObject apart sourcePath
      · rw [isFolder]
        simp only [if_true]
        cases existing with
        | some other => exact fails _
        | none =>
          have isFree : IsFound before bucket target none :=
            isExisting.resolve_right fun staged => absurd staged.1 nofun
          exact (moveFolder_spec isFree.2).weaken fun result after moved =>
            keepsObjects_folder noFile moved
    · exact failed
  · exact failed

/-- What a renaming does, wherever the paths lead to. -/
def RenameKeeps (fs : S3Fs) (sourcePath targetPath : Path) (before : S3Service)
    (result : Except ProtocolError Unit) (after : S3Service) : Prop :=
  (∀ bucket source target, fs.locate sourcePath = .object bucket source →
    fs.locate targetPath = .object bucket target →
      KeepsObjects before bucket source target result after) ∧
  ((∀ bucket source target, fs.locate sourcePath = .object bucket source →
    fs.locate targetPath ≠ .object bucket target) →
      (∃ err, result = .error err) ∧ after.objects = before.objects)

theorem rename_located (sourceLocated : fs.locate sourcePath = .object bucket source)
    (targetLocated : fs.locate targetPath = .object bucket target) :
    fs.rename sourcePath targetPath =
      if source = target then pure ()
      else match (stagedKey source).filter fun staged => staged = target with
        | none => fs.renameObject sourcePath targetPath bucket source target
        | some staged => (S3Fs.pending bucket staged).bind fun
            | some (upload, _, _) => S3Fs.complete bucket staged upload.id
            | none => fs.renameObject sourcePath targetPath bucket source target := by
  rw [S3Fs.rename, sourceLocated, targetLocated]
  change (if bucket ≠ bucket then _ else _) = _
  rw [if_neg (not_not_intro rfl)]
  rfl

theorem rename_spec (sourceLocated : fs.locate sourcePath = .object bucket source)
    (targetLocated : fs.locate targetPath = .object bucket target)
    (notStaged : ∀ staged, stagedKey source = some staged → ¬HasUpload before bucket staged) :
    Ensures S3Service.serves (fun state => state = before) (fs.rename sourcePath targetPath)
      (KeepsObjects before bucket source target) := by
  rw [rename_located sourceLocated targetLocated]
  split_ifs with same
  · apply ensures_done
    rintro state rfl
    exact keepsObjects_same rfl fun _ => same
  · have renames := renameObject_spec sourceLocated targetLocated same notStaged
    cases isStaged : (stagedKey source).filter fun staged => staged = target with
    | none => exact renames
    | some staged =>
      have isKey : stagedKey source = some staged := (Option.filter_eq_some_iff.mp isStaged).1
      apply tells_pending.andThen
      · intro found hasUpload
        cases found with
        | none => exact renames
        | some pending => exact absurd (hasUpload rfl) (notStaged staged isKey)
      · intro err
        exact keepsObjects_same rfl nofun

theorem rename_elsewhere (elsewhere : ∀ bucket source target,
      fs.locate sourcePath = .object bucket source → fs.locate targetPath ≠ .object bucket target)
    (run : (fs.rename sourcePath targetPath).Runs S3Service.serves before result after) :
    (∃ err, result = .error err) ∧ after.objects = before.objects := by
  unfold S3Fs.rename at run
  cases sourceLocated : fs.locate sourcePath with
  | root =>
    rw [sourceLocated] at run
    obtain ⟨rfl, rfl⟩ := run
    exact ⟨⟨_, rfl⟩, rfl⟩
  | bucket _ =>
    rw [sourceLocated] at run
    obtain ⟨rfl, rfl⟩ := run
    exact ⟨⟨_, rfl⟩, rfl⟩
  | object bucket source =>
    rw [sourceLocated] at run
    cases targetLocated : fs.locate targetPath with
    | root =>
      rw [targetLocated] at run
      obtain ⟨rfl, rfl⟩ := run
      exact ⟨⟨_, rfl⟩, rfl⟩
    | bucket _ =>
      rw [targetLocated] at run
      obtain ⟨rfl, rfl⟩ := run
      exact ⟨⟨_, rfl⟩, rfl⟩
    | object other target =>
      rw [targetLocated] at run
      have apart : bucket ≠ other := by
        rintro rfl
        exact elsewhere bucket source target sourceLocated targetLocated
      change Program.Runs _ (if bucket ≠ other then _ else _) _ _ _ at run
      rw [if_pos apart] at run
      obtain ⟨rfl, rfl⟩ := run
      exact ⟨⟨_, rfl⟩, rfl⟩

/-- Every renaming of something that is no staged upload. -/
theorem rename_keeps (notStaged : ∀ bucket source staged,
      fs.locate sourcePath = .object bucket source → stagedKey source = some staged →
        ¬HasUpload before bucket staged)
    (run : (fs.rename sourcePath targetPath).Runs S3Service.serves before result after) :
    RenameKeeps fs sourcePath targetPath before result after := by
  constructor
  · intro bucket source target sourceLocated targetLocated
    have renames := rename_spec sourceLocated targetLocated fun staged =>
      notStaged bucket source staged sourceLocated
    exact renames.of_run before result after rfl run
  · intro elsewhere
    exact rename_elsewhere elsewhere run

/-- A key that is a file and a folder. -/
def bothService : S3Service where
  uploads := []
  started := []
  objects place key :=
    if place = "media" ∧ key = "a" then some [1]
    else if place = "media" ∧ key = "a/x" then some [2] else none

def bothMoved : S3Service :=
  (bothService.withObject "media" "b" [1]).withoutObjects "media" ["a"]

theorem notStaged_both (bucket source staged : String)
    (_ : S3Fs.mediaFs.locate ⟨"/a"⟩ = .object bucket source)
    (_ : stagedKey source = some staged) : ¬HasUpload bothService bucket staged := by
  rintro (⟨_, isIn, _⟩ | ⟨_, isIn, _⟩)
  · cases isIn
  · cases isIn

theorem both_below_b (rest : String) : bothService.objects "media" ("b" ++ "/" ++ rest) = none := by
  have notKey (key : String) (begins : key.toList.head? = some 'a') : "b" ++ "/" ++ rest ≠ key := by
    rintro rfl
    rw [String.toList_append, String.toList_append] at begins
    cases begins
  unfold bothService
  dsimp only
  rw [if_neg fun same => notKey "a" rfl same.2, if_neg fun same => notKey "a/x" rfl same.2]

theorem runs_both : (S3Fs.mediaFs.rename ⟨"/a"⟩ ⟨"/b"⟩).Runs S3Service.serves bothService (.ok ())
    bothMoved := by
  have sourceLocated : S3Fs.mediaFs.locate ⟨"/a"⟩ = .object "media" "a" := by decide
  have targetLocated : S3Fs.mediaFs.locate ⟨"/b"⟩ = .object "media" "b" := by decide
  have sourceKey : stagedKey "a" = none := by decide
  have targetKey : stagedKey "b" = none := by decide
  rw [rename_located sourceLocated targetLocated, if_neg (by decide), sourceKey]
  change Runs _ (S3Fs.mediaFs.renameObject ⟨"/a"⟩ ⟨"/b"⟩ "media" "a" "b") _ _ _
  unfold S3Fs.renameObject S3Fs.stat S3Fs.find
  rw [sourceLocated, targetLocated]
  dsimp only
  rw [sourceKey, targetKey]
  refine ⟨.ok (some (S3Fs.file 1 none)), bothService, ⟨rfl, ?_⟩, ?_⟩
  · rintro _ ⟨⟩
    exact ⟨none, rfl⟩
  refine ⟨.ok none, bothService, ⟨rfl, ?_⟩, ?_⟩
  · rintro _ ⟨⟩
    exact ⟨none, rfl⟩
  refine ⟨.ok ⟨[], []⟩, bothService, ⟨rfl, ?_⟩, ?_⟩
  · rintro _ ⟨⟩
    constructor
    · rintro (notEmpty | notEmpty)
      · exact absurd rfl notEmpty
      · exact absurd rfl notEmpty
    · rintro ⟨rest, isThere⟩
      rw [both_below_b] at isThere
      cases isThere
  refine ⟨.ok (), bothService.withObject "media" "b" [1], ⟨[1], [1], rfl, .inl rfl, rfl⟩, ?_⟩
  refine ⟨.ok (some (S3Fs.file 1 none)), bothService.withObject "media" "b" [1], ⟨rfl, ?_⟩, ?_⟩
  · rintro _ ⟨⟩
    exact ⟨none, rfl⟩
  exact ⟨.ok (), bothMoved, rfl, rfl, rfl⟩

theorem rename_keeps_both :
    RenameKeeps S3Fs.mediaFs ⟨"/a"⟩ ⟨"/b"⟩ bothService (.ok ()) bothMoved :=
  rename_keeps notStaged_both runs_both

/-- The folder of this name stays where it was. -/
theorem rename_leaves_folder :
    (S3Fs.mediaFs.rename ⟨"/a"⟩ ⟨"/b"⟩).Runs S3Service.serves bothService (.ok ()) bothMoved ∧
      S3Fs.mediaFs.locate ⟨"/a"⟩ = .object "media" "a" ∧ S3Fs.mediaFs.locate ⟨"/b"⟩ = .object "media" "b" ∧
      bothService.objects "media" "a/x" = some [2] ∧ bothMoved.objects "media" "a/x" = some [2] ∧
      bothMoved.objects "media" "b/x" = none :=
  ⟨runs_both, by decide, by decide, rfl, rfl, rfl⟩

end Renaming

end S3Moves

end Porthmos
