import Porthmos.S3Fs
import Mathlib.Data.List.Dedup

/-!
# What an operation reaches

The keys below a folder begin with its key and a slash.  An operation on a path asks for nothing
but the key of the path and the keys below it, whatever the service answers, as long as a listing
has only keys that begin as it asked for.
-/

namespace Porthmos

/-- The objects of each bucket. -/
abbrev S3Store := String → List S3Object

namespace S3Listing

/-- A listing with the delimiter: the keys without one after the prefix, and for the others the
prefix up to the delimiter. -/
structure Grouped (listing : S3Listing) (objects : List S3Object) (below : String) : Prop where
  hasObject : ∀ object : S3Object, object ∈ listing.objects ↔ object ∈ objects ∧
    ∃ rest, object.key = below ++ rest ∧ '/' ∉ rest.toList
  distinctKeys : (listing.objects.map S3Object.key).Nodup
  hasKeys : ∀ keys, keys ∈ listing.prefixes ↔ ∃ object ∈ objects, ∃ name rest,
    object.key = below ++ name ++ "/" ++ rest ∧ '/' ∉ name.toList ∧ keys = below ++ name ++ "/"
  distinctPrefixes : listing.prefixes.Nodup

/-- A listing without the delimiter. -/
def Flat (listing : S3Listing) (objects : List S3Object) (below : String) : Prop :=
  ∀ object, object ∈ listing.objects ↔ object ∈ objects ∧ ∃ rest, object.key = below ++ rest

end S3Listing

/-- Bucket names are no path and no dots, as the service has them. -/
def BucketNames (buckets : List S3Bucket) : Prop :=
  (∀ bucket ∈ buckets, PlainName bucket.name) ∧ (buckets.map S3Bucket.name).Nodup

/-- What the service documents of its answers. -/
def S3Request.Fits (store : S3Store) : {β : Type} → S3Request β → β → Prop
  | _, .buckets, listed => BucketNames listed
  | _, .listing bucket below true, found => found.Grouped (store bucket) below
  | _, .listing bucket below false, found => found.Flat (store bucket) below
  | _, .uploads _ below _, listed => ∀ upload ∈ listed, ∃ rest, upload.key = below ++ rest
  | _, _, _ => True

/-- The keys of each bucket. -/
abbrev Reach := String → String → Prop

/-- The request is about reached keys.  The uploads of a key are reached with the key itself or
with the `.part` file that stands for them. -/
def S3Request.Within (reach : Reach) : {β : Type} → S3Request β → Prop
  | _, .listing bucket below _ => ∀ rest, reach bucket (below ++ rest)
  | _, .peek bucket below => ∀ rest, reach bucket (below ++ rest)
  | _, .head bucket key => reach bucket key
  | _, .get bucket key _ => reach bucket key
  | _, .put bucket key => reach bucket key
  | _, .delete bucket key => reach bucket key
  | _, .deleteKeys bucket keys => ∀ key ∈ keys, reach bucket key
  | _, .copyObject bucket source target => reach bucket source ∧ reach bucket target
  | _, .copyPart bucket source target _ _ _ _ => reach bucket source ∧ reach bucket target
  | _, .parts bucket key _ => reach bucket key ∨ reach bucket (key ++ partSuffix)
  | _, .createUpload bucket key => reach bucket key ∨ reach bucket (key ++ partSuffix)
  | _, .sendPart bucket key _ _ _ => reach bucket key ∨ reach bucket (key ++ partSuffix)
  | _, .completeUpload bucket key _ _ => reach bucket key
  | _, .abortUpload bucket key _ => reach bucket key ∨ reach bucket (key ++ partSuffix)
  | _, .buckets => True
  | _, .uploads _ _ _ => True
  | _, .started => True
  | _, .remember _ _ _ => True
  | _, .forget _ => True
  | _, .record _ _ _ _ => True

/-- The key itself and the keys below it. -/
def Under (key other : String) : Prop := other = key ∨ ∃ rest, other = key ++ "/" ++ rest

namespace S3Location

/-- The objects at and below a place. -/
def Covers : S3Location → Reach
  | .root, _, _ => True
  | .bucket name, place, _ => place = name
  | .object name key, place, other => place = name ∧ Under key other

end S3Location

theorem stagedKey_eq_some {key staged : String} (isStaged : stagedKey key = some staged) :
    key = staged ++ partSuffix := by
  unfold stagedKey at isStaged
  dsimp only at isStaged
  split_ifs at isStaged with isSuffix blank
  have suffix := List.isSuffixOf_iff_suffix.mp isSuffix
  obtain ⟨before, isKey⟩ := suffix
  have isName : staged.toList = before := by
    have named := congrArg String.toList (Option.some.inj isStaged)
    rw [String.toList_ofList, ← isKey] at named
    rw [← named]
    simp
  apply String.toList_inj.mp
  rw [String.toList_append, isName, isKey]

/-! ### A service -/

/-- The keys that a listing groups under one name. -/
def groupKey (below : String) (object : S3Object) : Option String :=
  let rest := afterKeys object.key below
  if '/' ∈ rest.toList then
    some (below ++ String.ofList (rest.toList.takeWhile (· ≠ '/')) ++ "/")
  else none

def beginningWith (below : String) (objects : List S3Object) : List S3Object :=
  objects.filter fun object => below.toList.isPrefixOf object.key.toList

def groupListing (objects : List S3Object) (below : String) : S3Listing where
  objects := (beginningWith below objects).filter fun object =>
    '/' ∉ (afterKeys object.key below).toList
  prefixes := ((beginningWith below objects).filterMap (groupKey below)).dedup

/-- A service that only lists: buckets, keys, and no uploads. -/
def serve (buckets : List S3Bucket) (store : S3Store) :
    {β : Type} → S3Request β → Except ProtocolError β
  | _, .buckets => .ok buckets
  | _, .listing bucket below true => .ok (groupListing (store bucket) below)
  | _, .listing bucket below false => .ok ⟨beginningWith below (store bucket), []⟩
  | _, .uploads _ _ _ => .ok []
  | _, .started => .ok []
  | _, _ => .error ⟨.other, "not served"⟩

theorem afterKeys_append (below rest : String) : afterKeys (below ++ rest) below = rest := by
  unfold afterKeys
  rw [String.toList_append, List.drop_left, String.ofList_toList]

theorem mem_beginningWith {below : String} {objects : List S3Object} {object : S3Object} :
    object ∈ beginningWith below objects ↔
      object ∈ objects ∧ ∃ rest, object.key = below ++ rest := by
  unfold beginningWith
  rw [List.mem_filter, List.isPrefixOf_iff_prefix]
  apply and_congr_right
  intro _
  constructor
  · rintro ⟨rest, isKey⟩
    refine ⟨String.ofList rest, String.toList_inj.mp ?_⟩
    rw [String.toList_append, String.toList_ofList, isKey]
  · rintro ⟨rest, isKey⟩
    rw [isKey, String.toList_append]
    exact List.prefix_append _ _

theorem takeWhile_of_ends {name rest : List Char} (noSeparator : '/' ∉ name)
    (ends : rest = [] ∨ ∃ more, rest = '/' :: more) :
    (name ++ rest).takeWhile (· ≠ '/') = name := by
  rw [List.takeWhile_append_of_pos]
  · rcases ends with rfl | ⟨more, rfl⟩ <;> simp
  · intro char member
    rw [decide_eq_true_eq]
    rintro rfl
    exact noSeparator member

theorem toList_slash_append (name more : String) :
    (name ++ "/" ++ more).toList = name.toList ++ '/' :: more.toList := by
  have separator : "/".toList = ['/'] := rfl
  rw [String.toList_append, String.toList_append, separator, List.append_assoc,
    List.singleton_append]

theorem split_of_mem_slash {rest : String} (separator : '/' ∈ rest.toList) :
    ∃ name more, rest = name ++ "/" ++ more ∧ '/' ∉ name.toList := by
  obtain ⟨before, after, split, noSeparator⟩ := List.eq_append_cons_of_mem separator
  refine ⟨String.ofList before, String.ofList after, ?_, ?_⟩
  · apply String.toList_inj.mp
    rw [toList_slash_append, String.toList_ofList, String.toList_ofList, split]
  · rw [String.toList_ofList]
    exact noSeparator

theorem grouped_groupListing {objects : List S3Object} (distinct : (objects.map S3Object.key).Nodup)
    (below : String) : (groupListing objects below).Grouped objects below where
  hasObject := by
    intro object
    unfold groupListing
    rw [List.mem_filter, mem_beginningWith, decide_eq_true_eq, and_assoc]
    apply and_congr_right
    intro _
    constructor
    · rintro ⟨⟨rest, isKey⟩, noSeparator⟩
      rw [isKey, afterKeys_append] at noSeparator
      exact ⟨rest, isKey, noSeparator⟩
    · rintro ⟨rest, isKey, noSeparator⟩
      refine ⟨⟨rest, isKey⟩, ?_⟩
      rw [isKey, afterKeys_append]
      exact noSeparator
  distinctKeys := by
    apply List.Nodup.sublist _ distinct
    apply List.Sublist.map
    exact List.filter_sublist.trans List.filter_sublist
  hasKeys := by
    intro keys
    unfold groupListing
    rw [List.mem_dedup, List.mem_filterMap]
    constructor
    · rintro ⟨object, member, isKeys⟩
      obtain ⟨inside, rest, isKey⟩ := mem_beginningWith.mp member
      unfold groupKey at isKeys
      rw [isKey, afterKeys_append] at isKeys
      dsimp only at isKeys
      split_ifs at isKeys with separator
      obtain ⟨name, more, rfl, noSeparator⟩ := split_of_mem_slash separator
      rw [toList_slash_append, takeWhile_of_ends noSeparator (Or.inr ⟨_, rfl⟩),
        String.ofList_toList] at isKeys
      refine ⟨object, inside, name, more, ?_, noSeparator, (Option.some.inj isKeys).symm⟩
      rw [isKey]
      simp only [String.append_assoc]
    · rintro ⟨object, inside, name, more, isKey, noSeparator, rfl⟩
      refine ⟨object, mem_beginningWith.mpr ⟨inside, name ++ "/" ++ more, ?_⟩, ?_⟩
      · rw [isKey]
        simp only [String.append_assoc]
      · have isRest : afterKeys object.key below = name ++ "/" ++ more := by
          rw [isKey, String.append_assoc, String.append_assoc, afterKeys_append,
            String.append_assoc]
        unfold groupKey
        dsimp only
        rw [isRest, toList_slash_append, takeWhile_of_ends noSeparator (Or.inr ⟨_, rfl⟩),
          String.ofList_toList, if_pos (by simp)]
  distinctPrefixes := List.nodup_dedup _

namespace S3Fs

open Program

variable {fs : S3Fs} {store : S3Store} {reach : Reach}

/-- The program asks for nothing outside. -/
abbrev Stays {α : Type} (store : S3Store) (reach : Reach) (program : S3Program α)
    (known : α → Prop) : Prop :=
  program.Meets (S3Request.Within reach) (S3Request.Fits store) (onOk known)

theorem stays_send {β : Type} (asked : S3Request β) (within : asked.Within reach) :
    Stays store reach (send asked) (asked.Fits store) :=
  meets_send within

theorem Stays.weaken {α : Type} {program : S3Program α} {known other : α → Prop}
    (stays : Stays store reach program known) (weaker : ∀ value, known value → other value) :
    Stays store reach program other := by
  apply stays.mono
  intro result isKnown
  cases result with
  | ok value => exact weaker value isKnown
  | error err => trivial

theorem stays_pure {α : Type} {known : α → Prop} {value : α} (isKnown : known value) :
    Stays store reach (pure value) known :=
  isKnown

theorem stays_fail {α : Type} {known : α → Prop} {err : ProtocolError} :
    Stays store reach (fail err) known :=
  trivial

theorem Stays.bind {α β : Type} {program : S3Program α} {next : α → S3Program β}
    {known : α → Prop} {ends : β → Prop} (stays : Stays store reach program known)
    (rest : ∀ value, known value → Stays store reach (next value) ends) :
    Stays store reach (program >>= next) ends :=
  stays.andThen rest

theorem Stays.seq {α β : Type} {program : S3Program α} {next : α → S3Program β} {ends : β → Prop}
    (stays : Stays store reach program fun _ => True)
    (rest : ∀ value, Stays store reach (next value) ends) :
    Stays store reach (program >>= next) ends :=
  stays.bind fun value _ => rest value

theorem Stays.attempt {α : Type} {program : S3Program α} {known : α → Prop}
    (stays : Stays store reach program known) :
    Stays store reach program.attempt fun _ => True :=
  Stays.weaken (Meets.attempt stays) fun _ _ => trivial

theorem stays_object (location : S3Location) :
    Stays store reach (object location) fun found => location = .object found.1 found.2 := by
  cases location with
  | root => exact stays_fail
  | bucket name => exact stays_fail
  | object bucket key => exact stays_pure rfl

theorem stays_knownParts {bucket key id : String}
    (inside : reach bucket key ∨ reach bucket (key ++ partSuffix)) :
    Stays store reach (knownParts bucket key id) fun _ => True := by
  unfold knownParts
  apply (stays_send (.parts bucket key id) inside).attempt.bind
  intro answer _
  cases answer with
  | error err =>
    dsimp only
    split_ifs
    · apply (stays_send .started trivial).bind
      intro started _
      exact stays_pure trivial
    · exact stays_fail
  | ok parts => exact stays_pure trivial

theorem stays_startedUpload {bucket key : String} :
    Stays store reach (startedUpload bucket key) fun found =>
      ∀ upload, found = some upload → upload.key = key := by
  unfold startedUpload
  apply (stays_send .started trivial).bind
  intro started _
  apply stays_pure
  intro upload isFound
  have isOne := List.find?_some isFound
  exact (of_decide_eq_true isOne).2

theorem stays_latestUpload {bucket key : String} :
    Stays store reach (latestUpload bucket key) fun found =>
      ∀ upload, found = some upload → upload.key = key := by
  unfold latestUpload
  apply (stays_send (.uploads bucket key false) trivial).bind
  intro uploads _
  cases latest : newest uploads key with
  | some upload =>
    apply stays_pure
    rintro found ⟨⟩
    exact (newest_mem latest).2
  | none =>
    apply stays_startedUpload.bind
    intro found isFound
    apply stays_pure
    intro upload isUpload
    obtain ⟨started, isStarted, rfl⟩ := Option.map_eq_some_iff.mp isUpload
    exact isFound started isStarted

theorem stays_pending {bucket key : String}
    (inside : reach bucket key ∨ reach bucket (key ++ partSuffix)) :
    Stays store reach (pending bucket key) fun _ => True := by
  unfold pending
  apply stays_latestUpload.bind
  intro found isFound
  cases found with
  | none => exact stays_pure trivial
  | some upload =>
    apply (stays_knownParts inside).bind
    intro parts _
    exact stays_pure trivial

theorem stays_abort {bucket : String} (upload : Upload)
    (inside : reach bucket upload.key ∨ reach bucket (upload.key ++ partSuffix)) :
    Stays store reach (abort bucket upload) fun _ => True := by
  unfold abort
  apply (stays_send (.abortUpload bucket upload.key upload.id) inside).bind
  intro _ _
  exact (stays_send (.forget upload.id) trivial).weaken fun _ _ => trivial

theorem stays_complete {bucket key id : String} (inside : reach bucket key) :
    Stays store reach (complete bucket key id) fun _ => True := by
  unfold complete
  apply (stays_knownParts (Or.inl inside)).bind
  intro parts _
  unfold completeWith
  apply (stays_send (.completeUpload bucket key id (completed parts)) inside).bind
  intro _ _
  exact (stays_send (.forget id) trivial).weaken fun _ _ => trivial

theorem stays_forEach {α : Type} {work : α → S3Program Unit} {values : List α}
    (each : ∀ value ∈ values, Stays store reach (work value) fun _ => True) :
    Stays store reach (forEach work values) fun _ => True :=
  meets_forEach each

theorem stays_abortAll {bucket key : String}
    (inside : reach bucket key ∨ reach bucket (key ++ partSuffix)) :
    Stays store reach (abortAll bucket key) fun _ => True := by
  unfold abortAll
  apply (stays_send (.uploads bucket key false) trivial).bind
  intro listed _
  apply (stays_send .started trivial).bind
  intro started _
  apply stays_forEach
  intro upload member
  apply stays_abort upload
  -- Both the listed uploads and those of this client are chosen by their key.
  have isKey : ∀ upload ∈ uploadsOf bucket key listed started, upload.key = key := by
    unfold uploadsOf
    apply List.foldlRecOn (motive := fun uploads : List Upload =>
      ∀ upload ∈ uploads, upload.key = key)
    · intro upload member
      exact of_decide_eq_true (List.mem_filter.mp member).2
    · intro uploads known upload member
      split_ifs
      · exact known
      · intro other isOther
        rcases List.mem_append.mp isOther with before | new
        · exact known other before
        · rw [List.mem_singleton.mp new]
          obtain ⟨started, own, rfl⟩ := List.mem_map.mp member
          exact (of_decide_eq_true (List.mem_filter.mp own).2).2
  rw [isKey upload member]
  exact inside

theorem stays_deleteKeys {bucket : String} {keys : List String} {path : Path}
    (inside : ∀ key ∈ keys, reach bucket key) :
    Stays store reach (deleteKeys bucket keys path) fun _ => True := by
  unfold deleteKeys
  apply stays_forEach
  intro batch isBatch
  have insideBatch : ∀ key ∈ batch, reach bucket key := by
    intro key member
    apply inside
    obtain ⟨index, -, rfl⟩ := List.mem_map.mp isBatch
    exact List.mem_of_mem_drop (List.mem_of_mem_take member)
  unfold deleteBatchOf
  apply (stays_send (.deleteKeys bucket batch) insideBatch).bind
  intro reply _
  cases reply with
  | notImplemented =>
    apply stays_forEach
    intro key member
    exact (stays_send (.delete bucket key) (insideBatch key member)).weaken fun _ _ => trivial
  | done failures =>
    cases failures with
    | nil => exact stays_pure trivial
    | cons failure failures => exact stays_fail

/-- Everything that begins with a prefix is deleted. -/
theorem stays_deleteFolder {bucket below : String} {path : Path}
    (inside : ∀ rest, reach bucket (below ++ rest)) :
    Stays store reach (deleteFolder bucket below path) fun _ => True := by
  unfold deleteFolder
  apply (stays_send (.listing bucket below false) inside).bind
  intro listing flat
  apply (stays_deleteKeys _).bind
  · intro _ _
    apply (stays_send (.uploads bucket below false) trivial).bind
    intro uploads begins
    apply stays_forEach
    intro upload member
    apply stays_abort upload
    left
    obtain ⟨rest, isKey⟩ := begins upload member
    rw [isKey]
    exact inside rest
  · intro key member
    obtain ⟨object, isListed, rfl⟩ := List.mem_map.mp member
    obtain ⟨-, rest, isKey⟩ := (flat object).mp isListed
    rw [isKey]
    exact inside rest

/-- The key and what is below it are reached. -/
def Reaches (reach : Reach) (bucket key : String) : Prop :=
  ∀ other, Under key other → reach bucket other

theorem Reaches.self {bucket key : String} (reaches : Reaches reach bucket key) :
    reach bucket key :=
  reaches key (Or.inl rfl)

theorem Reaches.below {bucket key : String} (reaches : Reaches reach bucket key) (rest : String) :
    reach bucket (key ++ "/" ++ rest) :=
  reaches _ (Or.inr ⟨rest, rfl⟩)

theorem stays_findObject {bucket key : String} (reaches : Reaches reach bucket key) :
    Stays store reach (findObject bucket key) fun _ => True := by
  unfold findObject
  apply (stays_send (.head bucket key) reaches.self).bind
  intro metadata _
  cases metadata with
  | some metadata => exact stays_pure trivial
  | none =>
    unfold isFolder
    apply Stays.seq
    · apply (stays_send (.peek bucket (key ++ "/")) reaches.below).bind
      intro page _
      exact stays_pure trivial
    · intro found
      exact stays_pure trivial

/-- The place of the path is reached, if it is in a bucket. -/
def ReachesPath (fs : S3Fs) (reach : Reach) (path : Path) : Prop :=
  ∀ bucket key, fs.locate path = .object bucket key → Reaches reach bucket key

theorem ReachesPath.staged {path : Path} (reaches : fs.ReachesPath reach path)
    {bucket key staged : String} (located : fs.locate path = .object bucket key)
    (isStaged : stagedKey key = some staged) :
    reach bucket staged ∨ reach bucket (staged ++ partSuffix) := by
  right
  rw [← stagedKey_eq_some isStaged]
  exact (reaches bucket key located).self

theorem stays_find {path : Path} (reaches : fs.ReachesPath reach path) :
    Stays store reach (fs.find path) fun _ => True := by
  unfold find
  cases located : fs.locate path with
  | root => exact stays_pure trivial
  | bucket name => exact stays_pure trivial
  | object bucket key =>
    dsimp only
    cases isStaged : stagedKey key with
    | none => exact stays_findObject (reaches bucket key located)
    | some staged =>
      apply (stays_pending (reaches.staged located isStaged)).bind
      intro found _
      cases found with
      | none => exact stays_findObject (reaches bucket key located)
      | some found => exact stays_pure trivial

theorem stays_stat {path : Path} (reaches : fs.ReachesPath reach path) :
    Stays store reach (fs.stat path) fun _ => True := by
  unfold stat
  apply (stays_find reaches).bind
  intro metadata _
  cases metadata with
  | some metadata => exact stays_pure trivial
  | none => exact stays_fail

theorem stays_openRead {path : Path} (offset : Nat) (reaches : fs.ReachesPath reach path) :
    Stays store reach (fs.openRead path offset) fun _ => True := by
  unfold openRead
  apply (stays_object (fs.locate path)).bind
  rintro ⟨bucket, key⟩ located
  apply (stays_send (.get bucket key offset) (reaches bucket key located).self).bind
  intro reply _
  cases reply with
  | unsatisfiable => exact stays_pure trivial
  | ranged body => exact stays_pure trivial
  | whole body =>
    dsimp only
    split_ifs
    · exact stays_fail
    · exact stays_pure trivial

theorem stays_removeFile {path : Path} (reaches : fs.ReachesPath reach path) :
    Stays store reach (fs.removeFile path) fun _ => True := by
  unfold removeFile
  apply (stays_object (fs.locate path)).bind
  rintro ⟨bucket, key⟩ located
  have deletes : Stays store reach (send (.delete bucket key)) fun _ => True :=
    (stays_send (.delete bucket key) (reaches bucket key located).self).weaken fun _ _ => trivial
  dsimp only
  cases isStaged : stagedKey key with
  | none => exact deletes
  | some staged =>
    apply (stays_pending (reaches.staged located isStaged)).bind
    intro found _
    split_ifs
    · exact stays_abortAll (reaches.staged located isStaged)
    · exact deletes

theorem stays_delete {path : Path} (reaches : fs.ReachesPath reach path) :
    Stays store reach (fs.delete path) fun _ => True := by
  unfold delete
  apply (stays_object (fs.locate path)).bind
  rintro ⟨bucket, key⟩ located
  apply (stays_stat reaches).bind
  intro metadata _
  split_ifs
  · exact stays_deleteFolder (reaches bucket key located).below
  · exact stays_removeFile reaches

theorem stays_copyRangesOf {bucket source target id : String} {path : Path}
    {copied : List (Nat × String)} {ranges : List ((Nat × Nat) × Nat)}
    (insideSource : reach bucket source) (insideTarget : reach bucket target) :
    Stays store reach (copyRangesOf bucket source target id path copied ranges) fun _ => True := by
  induction ranges generalizing copied with
  | nil =>
    unfold copyRangesOf completeWith
    apply (stays_send (.completeUpload bucket target id copied) insideTarget).bind
    intro _ _
    exact (stays_send (.forget id) trivial).weaken fun _ _ => trivial
  | cons range ranges ih =>
    obtain ⟨⟨first, last⟩, index⟩ := range
    have both : (S3Request.copyPart bucket source target id (index + 1) first last).Within
        reach := ⟨insideSource, insideTarget⟩
    unfold copyRangesOf
    apply (stays_send (.copyPart bucket source target id (index + 1) first last) both).bind
    intro etag _
    cases etag with
    | none => exact stays_fail
    | some etag => exact ih

theorem stays_copyLarge {bucket source target : String} {size : Nat} {path : Path}
    (insideSource : reach bucket source) (insideTarget : reach bucket target) :
    Stays store reach (copyLarge bucket source target size path) fun _ => True := by
  unfold copyLarge createUpload
  apply Stays.seq
  · apply (stays_send (.createUpload bucket target) (Or.inl insideTarget)).bind
    intro id _
    apply (stays_send (.remember bucket target id) trivial).bind
    intro _ _
    exact stays_pure trivial
  · intro id
    apply (stays_copyRangesOf insideSource insideTarget).attempt.bind
    intro outcome _
    cases outcome with
    | ok done => exact stays_pure trivial
    | error err =>
      apply (stays_abort ⟨target, id, none⟩ (Or.inl insideTarget)).attempt.bind
      intro _ _
      exact stays_fail

theorem stays_copy {bucket source target : String} {size : Nat} {path : Path}
    (insideSource : reach bucket source) (insideTarget : reach bucket target) :
    Stays store reach (copy bucket source target size path) fun _ => True := by
  have both : (S3Request.copyObject bucket source target).Within reach :=
    ⟨insideSource, insideTarget⟩
  have checked : Stays store reach (do
      let copied ← send (.head bucket target)
      if copied.any fun metadata => metadata.size = size then pure ()
      else
        let _ ← (send (.delete bucket target)).attempt
        fail ⟨.other, "the copy of " ++ path.text ++ " is incomplete"⟩ : S3Program Unit)
      fun _ => True := by
    apply (stays_send (.head bucket target) insideTarget).bind
    intro copied _
    split_ifs
    · exact stays_pure trivial
    · apply (stays_send (.delete bucket target) insideTarget).attempt.bind
      intro _ _
      exact stays_fail
  unfold copy
  split_ifs
  · apply (stays_send (.copyObject bucket source target) both).bind
    intro _ _
    exact checked
  · apply (stays_copyLarge insideSource insideTarget).bind
    intro _ _
    exact checked

/-- The objects below the source move to the same places below the target. -/
theorem stays_moveFolder {bucket source target : String} {path : Path}
    (fromSource : Reaches reach bucket source) (toTarget : Reaches reach bucket target) :
    Stays store reach (moveFolder bucket source target path) fun _ => True := by
  unfold moveFolder
  apply (stays_send (.listing bucket (source ++ "/") false) fromSource.below).bind
  intro listing flat
  have isBelow (object : S3Object) (member : object ∈ listing.objects) :
      ∃ rest, object.key = source ++ "/" ++ rest := ((flat object).mp member).2
  apply Stays.seq
  · apply stays_forEach
    intro object member
    obtain ⟨rest, isKey⟩ := isBelow object member
    unfold moveObject
    dsimp only
    rw [isKey, String.append_assoc, afterKeys_append, ← String.append_assoc, ← String.append_assoc]
    apply (stays_copy (fromSource.below rest) (toTarget.below rest)).attempt.bind
    intro outcome _
    cases outcome with
    | ok done => exact stays_pure trivial
    | error err => exact stays_fail
  · intro _
    apply (stays_deleteKeys _).bind
    · intro _ _
      apply (stays_send (.uploads bucket (source ++ "/") false) trivial).bind
      intro uploads begins
      apply stays_forEach
      intro upload member
      apply stays_abort upload
      left
      obtain ⟨rest, isKey⟩ := begins upload member
      rw [isKey]
      exact fromSource.below rest
    · intro key member
      obtain ⟨object, isListed, rfl⟩ := List.mem_map.mp member
      obtain ⟨rest, isKey⟩ := isBelow object isListed
      rw [isKey]
      exact fromSource.below rest

theorem stays_renameObject {source target : Path} {bucket sourceKey targetKey : String}
    (atSource : fs.locate source = .object bucket sourceKey)
    (atTarget : fs.locate target = .object bucket targetKey)
    (fromSource : fs.ReachesPath reach source) (toTarget : fs.ReachesPath reach target) :
    Stays store reach (fs.renameObject source target bucket sourceKey targetKey) fun _ => True := by
  have reachesSource := fromSource bucket sourceKey atSource
  have reachesTarget := toTarget bucket targetKey atTarget
  unfold renameObject
  apply (stays_stat fromSource).bind
  intro metadata _
  apply (stays_find toTarget).bind
  intro existing _
  split_ifs
  · exact stays_fail
  · exact stays_moveFolder reachesSource reachesTarget
  · exact stays_fail
  · apply (stays_copy reachesSource.self reachesTarget.self).bind
    intro _ _
    exact (stays_send (.delete bucket sourceKey) reachesSource.self).weaken fun _ _ => trivial

theorem stays_rename {source target : Path} (fromSource : fs.ReachesPath reach source)
    (toTarget : fs.ReachesPath reach target) :
    Stays store reach (fs.rename source target) fun _ => True := by
  unfold rename
  apply (stays_object (fs.locate source)).bind
  rintro ⟨bucket, sourceKey⟩ atSource
  apply (stays_object (fs.locate target)).bind
  rintro ⟨targetBucket, targetKey⟩ atTarget
  dsimp only at atSource atTarget ⊢
  split_ifs with differ same
  · exact stays_fail
  · exact stays_pure trivial
  · obtain rfl := not_not.mp differ
    have renames : Stays store reach (fs.renameObject source target bucket sourceKey targetKey)
        fun _ => True := stays_renameObject atSource atTarget fromSource toTarget
    cases isStaged : (stagedKey sourceKey).filter fun staged => decide (staged = targetKey) with
    | none => exact renames
    | some staged =>
      obtain ⟨staged', isTarget⟩ := Option.filter_eq_some_iff.mp isStaged
      obtain rfl := of_decide_eq_true isTarget
      apply (stays_pending (fromSource.staged atSource staged')).bind
      intro found _
      cases found with
      | none => exact renames
      | some found => exact stays_complete (toTarget bucket staged atTarget).self

/-- The service answers as it documents. -/
abbrev Answers (store : S3Store) (answer : {β : Type} → S3Request β → Except ProtocolError β) :
    Prop :=
  ∀ {β : Type} (asked : S3Request β) value, answer asked = .ok value → asked.Fits store value

theorem answers_serve {buckets : List S3Bucket} (names : BucketNames buckets)
    (distinct : ∀ bucket, ((store bucket).map S3Object.key).Nodup) :
    Answers store (serve buckets store) := by
  intro β asked value isAnswer
  cases asked with
  | buckets =>
    cases isAnswer
    exact names
  | listing bucket below folders =>
    cases folders with
    | true =>
      cases isAnswer
      exact grouped_groupListing (distinct bucket) below
    | false =>
      cases isAnswer
      intro object
      exact mem_beginningWith
  | uploads bucket below folders =>
    cases isAnswer
    exact fun upload member => nomatch member
  | _ => trivial

end S3Fs

end Porthmos
