import Porthmos.S3Items
import Porthmos.Discovery

/-!
# Discovery in a bucket

A walk lists a folder, joins the name of every folder in it to its path, and goes on there.  With
plain names each folder lies deeper than the one before, and keys are finite.  The names `.` and
`..` lead back, and the walk never ends.
-/

namespace Porthmos

/-- One of the folders of a key, from here up to the first without a name, is called `.` or
`..`. -/
def Dotted (rest : String) : Prop :=
  ∃ segment ∈ (rest.toList.splitOn '/').dropLast.takeWhile (· ≠ []),
    segment = ['.'] ∨ segment = ['.', '.']

/-- No key of the folder is dotted. -/
def Undotted (objects : List S3Object) (below : String) : Prop :=
  ∀ object ∈ objects, ∀ rest, object.key = below ++ rest → ¬Dotted rest

theorem not_dotted_of_not_mem {rest : String} (noSeparator : '/' ∉ rest.toList) : ¬Dotted rest := by
  rintro ⟨segment, member, -⟩
  rw [List.splitOn_eq_singleton noSeparator] at member
  cases member

theorem dotted_slash_iff {name more : String} (noSeparator : '/' ∉ name.toList) :
    Dotted (name ++ "/" ++ more) ↔ name ≠ "" ∧ (name = "." ∨ name = ".." ∨ Dotted more) := by
  have segments : ((name ++ "/" ++ more).toList.splitOn '/').dropLast =
      name.toList :: (more.toList.splitOn '/').dropLast := by
    rw [toList_slash_append, Path.splitOn_append_separator,
      List.splitOn_eq_singleton noSeparator, List.singleton_append,
      List.dropLast_cons_of_ne_nil (List.splitOn_ne_nil _ _)]
  have isText (text : String) : name.toList = text.toList ↔ name = text := String.toList_inj
  unfold Dotted
  rw [segments, List.takeWhile_cons]
  by_cases empty : name = ""
  · simp [empty]
  · have notNil : name.toList ≠ [] := fun nil => empty (String.toList_inj.mp nil)
    rw [if_pos (decide_eq_true notNil)]
    simp only [List.mem_cons, exists_eq_or_imp, ne_eq, empty, not_false_eq_true, true_and]
    rw [or_assoc]
    exact or_congr (isText ".") (or_congr (isText "..") Iff.rfl)

namespace S3Fs

open Program

variable {fs : S3Fs} {store : S3Store}

/-- The bucket as the source of a copy, or as one side of a comparison. -/
def source (fs : S3Fs) (answer : {β : Type} → S3Request β → Except ProtocolError β) :
    SourceFs ProtocolError where
  readDir dir := (fs.items dir).eval answer
  stat path := (fs.stat path).eval answer

/-! ### Where a walk is -/

theorem keySegments_walk {root relative : Path} (notEmpty : root.text ≠ "")
    (isRelative : relative.isAbsolute = false) {name : String} (noSeparator : '/' ∉ name.toList) :
    keySegments (root.join (relative.join ⟨name⟩)) =
      (Path.mk name).bodyComponents.foldl stepSegments (keySegments (root.join relative)) := by
  have nameRelative := Path.isAbsolute_of_not_mem noSeparator
  have joined : (relative.join ⟨name⟩).isAbsolute = false := by
    rw [Path.isAbsolute_join, nameRelative, isRelative]
    rfl
  rw [keySegments_join notEmpty joined, Path.bodyComponents_join nameRelative, List.foldl_append,
    keySegments_join notEmpty isRelative]

theorem locate_walk {root relative : Path} (notEmpty : root.text ≠ "")
    (isRelative : relative.isAbsolute = false) {name : String} (noSeparator : '/' ∉ name.toList) :
    fs.locate (root.join (relative.join ⟨name⟩)) =
      fs.locate ((panelPath (root.join relative)).join ⟨name⟩) := by
  apply locate_congr
  rw [keySegments_walk notEmpty isRelative noSeparator,
    keySegments_join (text_panelPath_ne_empty _) (Path.isAbsolute_of_not_mem noSeparator),
    keySegments_panelPath]

theorem isAbsolute_walk {relative : Path} (isRelative : relative.isAbsolute = false)
    {name : String} (noSeparator : '/' ∉ name.toList) :
    (relative.join ⟨name⟩).isAbsolute = false := by
  rw [Path.isAbsolute_join, Path.isAbsolute_of_not_mem noSeparator, isRelative]
  rfl

theorem locate_start {root : Path} (notEmpty : root.text ≠ "") :
    fs.locate (root.join ⟨""⟩) = fs.locate root := by
  apply locate_congr
  rw [keySegments_join notEmpty rfl]
  rfl

section Walk

variable {answer : {β : Type} → S3Request β → Except ProtocolError β} {root : Path}
  {bucket : String}

/-- What is listed in a folder of the bucket: its folders are what its keys go on with. -/
theorem folders_of_items (answers : Answers store answer) {dir : Path} {items : List DirItem}
    (inside : (fs.locate dir).bucketName = some bucket)
    (listed : (fs.items dir).eval answer = .ok items) (item : DirItem) :
    item ∈ items ∧ item.metadata.kind = .dir ↔
      (item.name ≠ "" ∧ '/' ∉ item.name.toList ∧ ∃ object ∈ store bucket, ∃ rest,
        object.key = (fs.locate dir).keysBelow ++ item.name ++ "/" ++ rest) ∧
      item = ⟨item.name, (panelPath dir).join ⟨item.name⟩, folder⟩ := by
  rw [items_of_bucketName inside] at listed
  obtain ⟨listing, extra, grouped, rfl, staged⟩ := folderItems_eval answers listed
  rw [← mem_listedFolders grouped]
  constructor
  · rintro ⟨member, isDir⟩
    rcases List.mem_append.mp member with isListed | isExtra
    · rcases List.mem_append.mp isListed with isFolder | isFile
      · exact isFolder
      · obtain ⟨object, -, -, isItem⟩ := (mem_listedFiles grouped item).mp isFile
        rw [isItem] at isDir
        cases isDir
    · rw [staged.isFile item isExtra] at isDir
      cases isDir
  · intro isFolder
    constructor
    · exact List.mem_append_left _ (List.mem_append_left _ isFolder)
    · rw [((mem_listedFolders grouped item).mp isFolder).2]
      rfl

theorem keysBelow_child {location : S3Location} (inside : location.bucketName = some bucket)
    (name : String) : (location.child name).keysBelow = location.keysBelow ++ name ++ "/" := by
  rw [S3Location.child_of_bucketName inside]
  rfl

theorem bucketName_child {location : S3Location} (inside : location.bucketName = some bucket)
    (name : String) : (location.child name).bucketName = some bucket := by
  rw [S3Location.child_of_bucketName inside]
  rfl

theorem exists_longest (objects : List S3Object) :
    ∃ longest, ∀ object ∈ objects, object.key.toList.length ≤ longest := by
  induction objects with
  | nil => exact ⟨0, fun object member => nomatch member⟩
  | cons first rest ih =>
    obtain ⟨longest, bound⟩ := ih
    refine ⟨max longest first.key.toList.length, ?_⟩
    intro object member
    rcases List.mem_cons.mp member with rfl | later
    · exact le_max_right _ _
    · exact (bound object later).trans (le_max_left _ _)

/-- Without dots every folder below lies deeper, up to the length of the longest key. -/
theorem listable_of_undotted (answers : Answers store answer)
    (lists : ∀ dir, ∃ items, (fs.items dir).eval answer = .ok items) (notEmpty : root.text ≠ "")
    {longest : Nat} (bound : ∀ object ∈ store bucket, object.key.toList.length ≤ longest)
    (left : Nat) {relative : Path} (isRelative : relative.isAbsolute = false)
    (inside : (fs.locate (root.join relative)).bucketName = some bucket)
    (deep : longest < (fs.locate (root.join relative)).keysBelow.toList.length + left)
    (undotted : Undotted (store bucket) (fs.locate (root.join relative)).keysBelow) :
    Listable (fs.source answer) root relative := by
  induction left generalizing relative with
  | zero =>
    obtain ⟨items, listed⟩ := lists (root.join relative)
    apply Listable.intro listed
    intro item member isDir
    obtain ⟨⟨-, -, object, isObject, rest, isKey⟩, -⟩ :=
      (folders_of_items answers inside listed item).mp ⟨member, isDir⟩
    have short := bound object isObject
    rw [isKey, toList_slash_append, String.toList_append, List.length_append,
      List.length_append] at short
    omega
  | succ left ih =>
    obtain ⟨items, listed⟩ := lists (root.join relative)
    apply Listable.intro listed
    intro item member isDir
    obtain ⟨⟨itemNotEmpty, noSeparator, object, isObject, rest, isKey⟩, -⟩ :=
      (folders_of_items answers inside listed item).mp ⟨member, isDir⟩
    have split : object.key = (fs.locate (root.join relative)).keysBelow ++
        (item.name ++ "/" ++ rest) := by
      rw [isKey]
      simp only [String.append_assoc]
    have clean := undotted object isObject _ split
    rw [dotted_slash_iff noSeparator] at clean
    have plain : PlainName item.name :=
      ⟨itemNotEmpty, noSeparator, fun here => clean ⟨itemNotEmpty, Or.inl here⟩,
        fun up => clean ⟨itemNotEmpty, Or.inr (Or.inl up)⟩⟩
    have located : fs.locate (root.join (relative.join ⟨item.name⟩)) =
        (fs.locate (root.join relative)).child item.name := by
      rw [locate_walk notEmpty isRelative noSeparator]
      exact locate_child inside plain
    apply ih (isAbsolute_walk isRelative noSeparator)
    · rw [located]
      exact bucketName_child inside item.name
    · rw [located, keysBelow_child inside, String.toList_append, String.toList_append,
        List.length_append, List.length_append]
      have separator : "/".toList.length = 1 := rfl
      omega
    · rw [located, keysBelow_child inside]
      intro other isOther more otherKey dotted
      have otherSplit : other.key = (fs.locate (root.join relative)).keysBelow ++
          (item.name ++ "/" ++ more) := by
        rw [otherKey]
        simp only [String.append_assoc]
      apply undotted other isOther _ otherSplit
      exact (dotted_slash_iff noSeparator).mpr ⟨itemNotEmpty, Or.inr (Or.inr dotted)⟩

/-! ### Going round in circles -/

/-- A place from which a walk comes back: a folder with a dotted key, or the list of the buckets
with such a bucket in it. -/
def Circles (fs : S3Fs) (store : S3Store) (bucket : String) (location : S3Location) : Prop :=
  (location.bucketName = some bucket ∧ ¬Undotted (store bucket) location.keysBelow) ∨
    (fs.bucket = none ∧ location = .root ∧ ¬Undotted (store bucket) "")

/-- Where `..` leads from a folder of the bucket. -/
theorem locate_dotDot {dir : Path} (inside : (fs.locate dir).bucketName = some bucket) :
    fs.locate ((panelPath dir).join ⟨".."⟩) = fs.locate dir ∨
    (fs.bucket = none ∧ fs.locate ((panelPath dir).join ⟨".."⟩) = .root ∧
      (fs.locate dir).keysBelow = "") ∨
    ((fs.locate ((panelPath dir).join ⟨".."⟩)).bucketName = some bucket ∧ ∃ last,
      PlainName last ∧ (fs.locate dir).keysBelow =
        (fs.locate ((panelPath dir).join ⟨".."⟩)).keysBelow ++ last ++ "/") := by
  have segments : keySegments ((panelPath dir).join ⟨".."⟩) = (keySegments dir).dropLast := by
    rw [keySegments_join_dotDot (text_panelPath_ne_empty dir), keySegments_panelPath]
  have plain (name : String) (member : name ∈ keySegments dir) : PlainName name :=
    plain_of_mem_keySegments member
  -- Below the first segments of a path one more is one place deeper.
  have deeper (outer last : String) (initial : List String) :
      (locateIn outer initial).bucketName = (locateIn outer (initial ++ [last])).bucketName ∧
        (locateIn outer (initial ++ [last])).keysBelow =
          (locateIn outer initial).keysBelow ++ last ++ "/" := by
    rw [locateIn_append]
    constructor
    · unfold locateIn
      split_ifs <;> rfl
    · rfl
  unfold S3Fs.locate Porthmos.locate at inside ⊢
  rw [segments]
  obtain ⟨configured, adjust⟩ := fs
  cases configured with
  | some configured =>
    dsimp only at inside ⊢
    rcases List.eq_nil_or_concat (keySegments dir) with empty | ⟨initial, last, split⟩
    · left
      rw [empty]
      rfl
    · right
      right
      rw [split, List.concat_eq_append] at inside plain ⊢
      rw [List.dropLast_concat]
      obtain ⟨sameBucket, keys⟩ := deeper configured last initial
      exact ⟨sameBucket.trans inside, last, plain last (by simp), keys⟩
  | none =>
    cases split : keySegments dir with
    | nil =>
      rw [split] at inside
      cases inside
    | cons first rest =>
      rw [split] at inside plain
      rcases List.eq_nil_or_concat rest with empty | ⟨initial, last, isRest⟩
      · right
        left
        rw [empty]
        exact ⟨rfl, rfl, rfl⟩
      · right
        right
        rw [isRest, List.concat_eq_append] at inside plain ⊢
        rw [← List.cons_append, List.dropLast_concat]
        obtain ⟨sameBucket, keys⟩ := deeper first last initial
        exact ⟨sameBucket.trans inside, last, plain last (by simp), keys⟩

/-- From such a place a listed folder leads to such a place again. -/
theorem circles_step (answers : Answers store answer)
    (hasBucket : fs.bucket = none → ∀ buckets, answer .buckets = .ok buckets →
      ∃ found ∈ buckets, found.name = bucket)
    {dir : Path} {items : List DirItem} (circles : Circles fs store bucket (fs.locate dir))
    (listed : (fs.items dir).eval answer = .ok items) :
    ∃ item ∈ items, item.metadata.kind = .dir ∧ '/' ∉ item.name.toList ∧
      Circles fs store bucket (fs.locate ((panelPath dir).join ⟨item.name⟩)) := by
  rcases circles with ⟨inside, dotted⟩ | ⟨unconfigured, located, dotted⟩
  · simp only [Undotted, not_forall, not_not, exists_prop] at dotted
    obtain ⟨object, isObject, rest, isKey, dotted⟩ := dotted
    have separator : '/' ∈ rest.toList := by
      by_contra noSeparator
      exact not_dotted_of_not_mem noSeparator dotted
    obtain ⟨name, more, rfl, noSeparator⟩ := split_of_mem_slash separator
    obtain ⟨notEmpty, leads⟩ := (dotted_slash_iff noSeparator).mp dotted
    have split : object.key = (fs.locate dir).keysBelow ++ name ++ "/" ++ more := by
      rw [isKey]
      simp only [String.append_assoc]
    have isDotted : ¬Undotted (store bucket) (fs.locate dir).keysBelow :=
      fun undotted => undotted object isObject _ isKey dotted
    obtain ⟨member, isDir⟩ := (folders_of_items answers inside listed
      ⟨name, (panelPath dir).join ⟨name⟩, folder⟩).mpr
        ⟨⟨notEmpty, noSeparator, object, isObject, more, split⟩, rfl⟩
    refine ⟨_, member, isDir, noSeparator, ?_⟩
    dsimp only
    by_cases here : name = "."
    · have same : fs.locate ((panelPath dir).join ⟨name⟩) = fs.locate dir := by
        rw [here, ← locate_panelPath dir]
        exact locate_congr fs.bucket (keySegments_join_dot (text_panelPath_ne_empty dir))
      rw [same]
      exact Or.inl ⟨inside, isDotted⟩
    · by_cases up : name = ".."
      · subst up
        rcases locate_dotDot inside with same | ⟨unconfigured, atRoot, below⟩ |
          ⟨inParent, last, plain, below⟩
        · rw [same]
          exact Or.inl ⟨inside, isDotted⟩
        · rw [below] at isDotted
          exact Or.inr ⟨unconfigured, atRoot, isDotted⟩
        · left
          constructor
          · exact inParent
          · intro undotted
            apply undotted object isObject (last ++ "/" ++ (".." ++ "/" ++ more))
            · rw [isKey, below]
              simp only [String.append_assoc]
            · exact (dotted_slash_iff plain.2.1).mpr ⟨plain.1, Or.inr (Or.inr dotted)⟩
      · have plain : PlainName name := ⟨notEmpty, noSeparator, here, up⟩
        rw [locate_child inside plain]
        left
        constructor
        · exact bucketName_child inside name
        · rw [keysBelow_child inside]
          intro undotted
          apply undotted object isObject more split
          exact (leads.resolve_left here).resolve_left up
  · obtain ⟨buckets, isAnswer, rfl⟩ := items_of_root located listed
    obtain ⟨found, isListed, isBucket⟩ := hasBucket unconfigured buckets isAnswer
    have names := answers .buckets buckets isAnswer
    have truthful : Truthful fs store dir _ := truthful_root located names
    have member : bucketItem (panelPath dir) found ∈ buckets.map (bucketItem (panelPath dir)) :=
      List.mem_map_of_mem isListed
    refine ⟨_, member, rfl, (names.1 found isListed).2.1, ?_⟩
    left
    have place : fs.locate ((panelPath dir).join ⟨found.name⟩) = .bucket bucket := by
      have atPath := truthful.located _ member
      rw [located] at atPath
      exact atPath.trans (congrArg S3Location.bucket isBucket)
    dsimp only [bucketItem]
    rw [place]
    exact ⟨rfl, dotted⟩

theorem not_circles_of_listable (answers : Answers store answer)
    (hasBucket : fs.bucket = none → ∀ buckets, answer .buckets = .ok buckets →
      ∃ found ∈ buckets, found.name = bucket)
    (notEmpty : root.text ≠ "") {relative : Path}
    (listable : Listable (fs.source answer) root relative)
    (isRelative : relative.isAbsolute = false) :
    ¬Circles fs store bucket (fs.locate (root.join relative)) := by
  induction listable with
  | @intro relative items listed below ih =>
    intro circles
    obtain ⟨item, member, isDir, noSeparator, again⟩ :=
      circles_step answers hasBucket circles listed
    apply ih item member isDir (isAbsolute_walk isRelative noSeparator)
    rw [locate_walk notEmpty isRelative noSeparator]
    exact again

/-- The walk through a folder of the bucket can be made to its end exactly when no key is
dotted. -/
theorem listable_iff (answers : Answers store answer)
    (lists : ∀ dir, ∃ items, (fs.items dir).eval answer = .ok items)
    (hasBucket : fs.bucket = none → ∀ buckets, answer .buckets = .ok buckets →
      ∃ found ∈ buckets, found.name = bucket)
    (notEmpty : root.text ≠ "") (inside : (fs.locate root).bucketName = some bucket) :
    Listable (fs.source answer) root ⟨""⟩ ↔ Undotted (store bucket) (fs.locate root).keysBelow := by
  have start : fs.locate (root.join ⟨""⟩) = fs.locate root := locate_start notEmpty
  constructor
  · intro listable
    by_contra dotted
    apply not_circles_of_listable answers hasBucket notEmpty listable rfl
    rw [start]
    exact Or.inl ⟨inside, dotted⟩
  · intro undotted
    obtain ⟨longest, bound⟩ := exists_longest (store bucket)
    rw [← start] at inside undotted
    apply listable_of_undotted answers lists notEmpty bound (longest + 1) rfl inside _ undotted
    omega

/-- Discovery of a folder in a bucket ends with its tree exactly when no key of the folder goes
through a folder called `.` or `..`. -/
theorem discover_ends_iff (answers : Answers store answer)
    (lists : ∀ dir, ∃ items, (fs.items dir).eval answer = .ok items)
    (hasBucket : fs.bucket = none → ∀ buckets, answer .buckets = .ok buckets →
      ∃ found ∈ buckets, found.name = bucket)
    (notEmpty : root.text ≠ "") (inside : (fs.locate root).bucketName = some bucket) :
    (∃ fuel, ∀ more, fuel ≤ more → ∃ walked,
      discover (fs.source answer) root true (fun _ => false) more 0 = .ok walked) ↔
      Undotted (store bucket) (fs.locate root).keysBelow := by
  rw [← listable_iff answers lists hasBucket notEmpty inside]
  constructor
  · rintro ⟨fuel, ends⟩
    obtain ⟨walked, isWalk⟩ := ends fuel (le_refl fuel)
    exact (discoverTreeInto_spec _ fuel _ _ _ isWalk).1
  · intro listable
    obtain ⟨fuel, enough⟩ := listable.completes
    exact ⟨fuel, fun more atLeast => enough more atLeast _⟩

end Walk

theorem lists_serve (buckets : List S3Bucket) (dir : Path) :
    ∃ items, (fs.items dir).eval (serve buckets store) = .ok items := by
  unfold items
  dsimp only
  cases fs.locate dir with
  | root => exact ⟨_, rfl⟩
  | bucket name => exact ⟨_, rfl⟩
  | object name key => exact ⟨_, rfl⟩

theorem discover_ends_iff_photos :
    (∃ fuel, ∀ more, fuel ≤ more → ∃ walked, discover (mediaFs.source (serve []
        (singleKey "photos/2024/x.jpg"))) ⟨"/photos"⟩ true (fun _ => false) more 0 = .ok walked) ↔
      Undotted (singleKey "photos/2024/x.jpg" "media")
        (mediaFs.locate ⟨"/photos"⟩).keysBelow :=
  discover_ends_iff (answers_singleKey _) (lists_serve []) (fun unconfigured => nomatch unconfigured)
    (by decide) (by decide)

/-- A walk through the folder of a dotted key does not end, however far it goes. -/
theorem discover_ends_fails :
    Answers (singleKey "photos/./x.jpg") (serve [] (singleKey "photos/./x.jpg")) ∧
    ∀ fuel walked, discover (mediaFs.source (serve [] (singleKey "photos/./x.jpg"))) ⟨"/photos"⟩
      true (fun _ => false) fuel 0 ≠ .ok walked := by
  refine ⟨answers_singleKey _, ?_⟩
  intro fuel walked ends
  have listable := (discoverTreeInto_spec _ fuel _ _ _ ends).1
  have comesBack : ¬Circles mediaFs (singleKey "photos/./x.jpg") "media"
      (mediaFs.locate ((Path.mk "/photos").join ⟨""⟩)) :=
    not_circles_of_listable (answers_singleKey _) (fun unconfigured => absurd unconfigured (by decide))
      (by decide) listable rfl
  apply comesBack
  left
  constructor
  · rfl
  · intro undotted
    exact undotted _ List.mem_cons_self "./x.jpg" rfl ⟨['.'], by decide, Or.inl rfl⟩

end S3Fs

end Porthmos
