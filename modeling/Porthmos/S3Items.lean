import Porthmos.S3Reach

/-!
# The items of a folder in a bucket

Every item of a listing has a path, and what happens to the item goes through the path alone.  The
path stands for the item unless its name is `.` or `..`, or an object and a folder have one name.
-/

namespace Porthmos

namespace S3Location

/-- The place of a name in a folder. -/
def child : S3Location → String → S3Location
  | .root, name => .bucket name
  | .bucket inside, name => .object inside name
  | .object inside key, name => .object inside (key ++ "/" ++ name)

theorem child_of_bucketName {location : S3Location} {bucket : String}
    (inside : location.bucketName = some bucket) (name : String) :
    location.child name = .object bucket (location.keysBelow ++ name) := by
  cases location with
  | root => cases inside
  | bucket other =>
    cases inside
    simp [child, keysBelow]
  | object other key =>
    cases inside
    simp [child, keysBelow]

end S3Location

/-- What keys make of the names in a folder: no dots, and no name of both an object and a
folder. -/
structure Unambiguous (objects : List S3Object) (below : String) : Prop where
  noDots : ∀ object ∈ objects, ∀ name rest,
    object.key = below ++ name ∨ object.key = below ++ name ++ "/" ++ rest →
      name ≠ "." ∧ name ≠ ".."
  noClash : ∀ object ∈ objects, ∀ other ∈ objects, ∀ name rest,
    name ≠ "" → '/' ∉ name.toList → object.key = below ++ name →
      other.key ≠ below ++ name ++ "/" ++ rest

/-- The condition for the folder at a place; bucket names never clash. -/
def S3Location.Unambiguous (store : S3Store) (location : S3Location) : Prop :=
  ∀ bucket, location.bucketName = some bucket →
    Porthmos.Unambiguous (store bucket) location.keysBelow

namespace S3Fs

open Program

variable {fs : S3Fs} {store : S3Store}

/-- Each item is addressed by its path: the path leads to its place, no other item has it, and
the operations on it reach nothing else. -/
structure Truthful (fs : S3Fs) (store : S3Store) (dir : Path) (items : List DirItem) : Prop where
  located : ∀ item ∈ items, fs.locate item.path = (fs.locate dir).child item.name
  distinct : items.Pairwise fun first second => first.path.components ≠ second.path.components
  apart : items.Pairwise fun first second => ∀ bucket key,
    ((fs.locate dir).child first.name).Covers bucket key →
      ¬((fs.locate dir).child second.name).Covers bucket key
  contained : ∀ item ∈ items,
    Stays store ((fs.locate dir).child item.name).Covers (fs.stat item.path) (fun _ => True) ∧
    Stays store ((fs.locate dir).child item.name).Covers (fs.delete item.path) (fun _ => True) ∧
    ∀ offset, Stays store ((fs.locate dir).child item.name).Covers
      (fs.openRead item.path offset) (fun _ => True)
  renamed : ∀ item ∈ items, ∀ target, Stays store
    (fun bucket key => ((fs.locate dir).child item.name).Covers bucket key ∨
      (fs.locate target).Covers bucket key)
    (fs.rename item.path target) (fun _ => True)

/-! ### What a listing has -/

theorem trimSlashes_append {name : String} (noSeparator : '/' ∉ name.toList) :
    trimSlashes (name ++ "/") = name := by
  have separator : "/".toList = ['/'] := rfl
  have stops : name.toList.reverse.dropWhile (· = '/') = name.toList.reverse := by
    cases reversed : name.toList.reverse with
    | nil => rfl
    | cons last rest =>
      have notSeparator : last ≠ '/' := by
        rintro rfl
        apply noSeparator
        rw [← List.mem_reverse, reversed]
        exact List.mem_cons_self
      simp [notSeparator]
  unfold trimSlashes
  rw [String.toList_append, separator, List.reverse_append, List.reverse_singleton,
    List.singleton_append, List.dropWhile_cons, if_pos (by simp), stops, List.reverse_reverse,
    String.ofList_toList]

theorem shown_iff {name : String} : shown name = true ↔ name ≠ "" ∧ '/' ∉ name.toList := by
  simp [shown]

section Listing

variable {listing : S3Listing} {objects : List S3Object} {below : String} {base : Path}

theorem mem_listedFolders (grouped : listing.Grouped objects below) (item : DirItem) :
    item ∈ listedFolders base below listing ↔ (item.name ≠ "" ∧ '/' ∉ item.name.toList ∧
        ∃ object ∈ objects, ∃ rest, object.key = below ++ item.name ++ "/" ++ rest) ∧
      item = ⟨item.name, base.join ⟨item.name⟩, folder⟩ := by
  constructor
  · intro member
    obtain ⟨name, isName, rfl⟩ := List.mem_map.mp member
    obtain ⟨isListed, isShown⟩ := List.mem_filter.mp isName
    obtain ⟨keys, isKeys, named⟩ := List.mem_map.mp isListed
    obtain ⟨object, inside, first, rest, isKey, noSeparator, rfl⟩ :=
      (grouped.hasKeys keys).mp isKeys
    rw [String.append_assoc, afterKeys_append, trimSlashes_append noSeparator] at named
    obtain ⟨notEmpty, -⟩ := shown_iff.mp isShown
    subst named
    exact ⟨⟨notEmpty, noSeparator, object, inside, rest, isKey⟩, rfl⟩
  · rintro ⟨⟨notEmpty, noSeparator, object, inside, rest, isKey⟩, isItem⟩
    rw [isItem]
    apply List.mem_map_of_mem (f := fun name => (⟨name, base.join ⟨name⟩, folder⟩ : DirItem))
    apply List.mem_filter.mpr
    constructor
    · apply List.mem_map.mpr
      refine ⟨below ++ item.name ++ "/", ?_, ?_⟩
      · exact (grouped.hasKeys _).mpr ⟨object, inside, item.name, rest, isKey, noSeparator, rfl⟩
      · rw [String.append_assoc, afterKeys_append, trimSlashes_append noSeparator]
    · exact shown_iff.mpr ⟨notEmpty, noSeparator⟩

theorem mem_listedFiles (grouped : listing.Grouped objects below) (item : DirItem) :
    item ∈ listedFiles base below listing ↔
      ∃ object ∈ objects, (item.name ≠ "" ∧ '/' ∉ item.name.toList ∧
        object.key = below ++ item.name) ∧
      item = ⟨item.name, base.join ⟨item.name⟩, file object.size object.modified⟩ := by
  constructor
  · intro member
    obtain ⟨⟨name, object⟩, isName, rfl⟩ := List.mem_map.mp member
    obtain ⟨isListed, isShown⟩ := List.mem_filter.mp isName
    obtain ⟨other, isObject, named⟩ := List.mem_map.mp isListed
    cases named
    obtain ⟨inside, rest, isKey, noSeparator⟩ := (grouped.hasObject object).mp isObject
    obtain ⟨notEmpty, -⟩ := shown_iff.mp isShown
    dsimp only at notEmpty ⊢
    rw [isKey, afterKeys_append] at notEmpty ⊢
    exact ⟨object, inside, ⟨notEmpty, noSeparator, isKey⟩, rfl⟩
  · rintro ⟨object, inside, ⟨notEmpty, noSeparator, isKey⟩, isItem⟩
    rw [isItem]
    apply List.mem_map_of_mem (f := fun (entry : String × S3Object) =>
      (⟨entry.1, base.join ⟨entry.1⟩, file entry.2.size entry.2.modified⟩ : DirItem))
      (a := (item.name, object))
    apply List.mem_filter.mpr
    constructor
    · apply List.mem_map.mpr
      refine ⟨object, ?_, ?_⟩
      · exact (grouped.hasObject object).mpr ⟨inside, item.name, isKey, noSeparator⟩
      · rw [isKey, afterKeys_append]
    · exact shown_iff.mpr ⟨notEmpty, noSeparator⟩

theorem distinct_listedFolders (grouped : listing.Grouped objects below) :
    (listedFolders base below listing).Pairwise fun first second => first.name ≠ second.name := by
  unfold listedFolders
  rw [List.pairwise_map]
  apply List.Pairwise.filter
  rw [List.pairwise_map]
  apply grouped.distinctPrefixes.imp_of_mem
  intro first second isFirst isSecond differ same
  obtain ⟨_, _, name, _, _, noSeparator, rfl⟩ := (grouped.hasKeys first).mp isFirst
  obtain ⟨_, _, other, _, _, noOther, rfl⟩ := (grouped.hasKeys second).mp isSecond
  rw [String.append_assoc, afterKeys_append, trimSlashes_append noSeparator,
    String.append_assoc, afterKeys_append, trimSlashes_append noOther] at same
  have sameName : name = other := same
  exact differ (by rw [sameName])

theorem distinct_listedFiles (grouped : listing.Grouped objects below) :
    (listedFiles base below listing).Pairwise fun first second => first.name ≠ second.name := by
  unfold listedFiles
  rw [List.pairwise_map]
  apply List.Pairwise.filter
  rw [List.pairwise_map]
  apply (List.pairwise_map.mp grouped.distinctKeys).imp_of_mem
  intro first second isFirst isSecond differ same
  obtain ⟨_, name, isKey, _⟩ := (grouped.hasObject first).mp isFirst
  obtain ⟨_, other, isOther, _⟩ := (grouped.hasObject second).mp isSecond
  dsimp only at same
  rw [isKey, isOther, afterKeys_append, afterKeys_append] at same
  exact differ (by rw [isKey, isOther, same])

end Listing

/-! ### The uploads of a folder -/

/-- The items that uploads add: each has a name of its own, which ends as staged files do. -/
structure Staged (base : Path) (items extra : List DirItem) : Prop where
  named : ∀ item ∈ extra, item.path = base.join ⟨item.name⟩ ∧ '/' ∉ item.name.toList ∧
    ∃ stem, item.name = stem ++ partSuffix
  isFile : ∀ item ∈ extra, item.metadata.kind = .file
  new : ∀ item ∈ items, ∀ other ∈ extra, item.name ≠ other.name
  distinct : extra.Pairwise fun first second => first.name ≠ second.name

theorem Staged.nil (base : Path) (items : List DirItem) : Staged base items [] where
  named _ member := nomatch member
  isFile _ member := nomatch member
  new _ _ _ member := nomatch member
  distinct := .nil

/-- Everything is reached. -/
abbrev everywhere : Reach := fun _ _ => True

theorem stays_uploadItems {base : Path} {bucket below : String} {uploads : List Upload}
    (seen : List String) (items : List DirItem) (rest : List Upload) :
    Stays store everywhere (fs.uploadItems base bucket below uploads seen items rest)
      fun result => ∃ extra, result = items ++ extra ∧ Staged base items extra := by
  induction rest generalizing seen items with
  | nil => exact stays_pure ⟨[], (List.append_nil items).symm, .nil base items⟩
  | cons upload rest ih =>
    unfold uploadItems
    split_ifs with wasSeen
    · exact ih seen items
    cases newest uploads upload.key with
    | none => exact ih _ items
    | some latest =>
      dsimp only
      obtain ⟨name, isName⟩ : ∃ name, name = afterKeys latest.key below ++ partSuffix :=
        ⟨_, rfl⟩
      rw [← isName]
      split_ifs with skipped
      · exact ih _ items
      obtain ⟨noSeparator, isNew⟩ := not_or.mp skipped
      have knows : Stays store everywhere (knownParts bucket latest.key latest.id)
          fun _ => True := stays_knownParts (Or.inl trivial)
      apply knows.seq
      intro parts
      apply (ih _ _).weaken
      rintro result ⟨extra, rfl, staged⟩
      have whole (item : DirItem) : items ++ [item] ++ extra = items ++ item :: extra := by
        rw [List.append_assoc, List.singleton_append]
      refine ⟨_ :: extra, whole _, ?_, ?_, ?_, ?_⟩
      · intro item member
        rcases List.mem_cons.mp member with isItem | later
        · rw [isItem]
          exact ⟨rfl, noSeparator, afterKeys latest.key below, isName⟩
        · exact staged.named item later
      · intro item member
        rcases List.mem_cons.mp member with isItem | later
        · rw [isItem]
          rfl
        · exact staged.isFile item later
      · intro item member other isOther same
        rcases List.mem_cons.mp isOther with isItem | later
        · apply isNew
          rw [isItem] at same
          exact List.any_eq_true.mpr ⟨item, member, decide_eq_true same⟩
        · exact staged.new item (List.mem_append_left _ member) other later same
      · apply List.pairwise_cons.mpr
        constructor
        · intro other later
          exact staged.new _ (List.mem_append_right _ List.mem_cons_self) other later
        · exact staged.distinct

theorem stays_folderItems (fs : S3Fs) (store : S3Store) (base : Path) (bucket below : String) :
    Stays store everywhere (fs.folderItems base bucket below) fun items =>
      ∃ listing : S3Listing, ∃ extra, listing.Grouped (store bucket) below ∧
        items = listedItems base below listing ++ extra ∧
        Staged base (listedItems base below listing) extra := by
  unfold folderItems
  apply (stays_send (.listing bucket below true) fun _ => trivial).bind
  intro listing grouped
  apply (stays_send (.uploads bucket below true) trivial).bind
  intro uploads _
  apply (stays_uploadItems _ _ _).weaken
  rintro items ⟨extra, isItems, staged⟩
  exact ⟨listing, extra, grouped, isItems, staged⟩

theorem folderItems_eval {answer : {β : Type} → S3Request β → Except ProtocolError β}
    (answers : Answers store answer) {base : Path} {bucket below : String} {items : List DirItem}
    (listed : (fs.folderItems base bucket below).eval answer = .ok items) :
    ∃ listing : S3Listing, ∃ extra, listing.Grouped (store bucket) below ∧
      items = listedItems base below listing ++ extra ∧
      Staged base (listedItems base below listing) extra := by
  have ends := (stays_folderItems fs store base bucket below).eval answers
  rw [listed] at ends
  exact ends

theorem items_of_bucketName {dir : Path} {bucket : String}
    (inside : (fs.locate dir).bucketName = some bucket) :
    fs.items dir = fs.folderItems (panelPath dir) bucket (fs.locate dir).keysBelow := by
  unfold items
  dsimp only
  cases located : fs.locate dir with
  | root =>
    rw [located] at inside
    cases inside
  | bucket other =>
    rw [located] at inside
    cases inside
    rfl
  | object other key =>
    rw [located] at inside
    cases inside
    rfl

/-! ### Paths and places -/

theorem plain_of_staged {name stem : String} (noSeparator : '/' ∉ name.toList)
    (isStaged : name = stem ++ partSuffix) : PlainName name := by
  have long : partSuffix.toList.length ≤ name.toList.length := by
    rw [isStaged, String.toList_append, List.length_append]
    omega
  have differs (short : String) (isShort : short.toList.length < partSuffix.toList.length) :
      name ≠ short := by
    rintro rfl
    omega
  exact ⟨differs "" (by decide), noSeparator, differs "." (by decide), differs ".." (by decide)⟩

theorem name_eq_of_under (below : String) {first second key : String} (noFirst : '/' ∉ first.toList)
    (noSecond : '/' ∉ second.toList) (underFirst : Under (below ++ first) key)
    (underSecond : Under (below ++ second) key) : first = second := by
  have cut (name : String) (noSeparator : '/' ∉ name.toList) (under : Under (below ++ name) key) :
      (key.toList.drop below.toList.length).takeWhile (· ≠ '/') = name.toList := by
    rcases under with rfl | ⟨rest, rfl⟩
    · rw [String.toList_append, List.drop_left]
      simpa using takeWhile_of_ends noSeparator (Or.inl rfl)
    · rw [toList_slash_append, String.toList_append, List.append_assoc, List.drop_left]
      exact takeWhile_of_ends noSeparator (Or.inr ⟨rest.toList, rfl⟩)
  apply String.toList_inj.mp
  rw [← cut first noFirst underFirst, ← cut second noSecond underSecond]

theorem locate_panelPath (dir : Path) : fs.locate (panelPath dir) = fs.locate dir :=
  locate_congr fs.bucket (keySegments_panelPath dir)

theorem locate_child {dir : Path} {bucket name : String}
    (inside : (fs.locate dir).bucketName = some bucket) (plain : PlainName name) :
    fs.locate ((panelPath dir).join ⟨name⟩) = (fs.locate dir).child name := by
  rw [S3Location.child_of_bucketName inside, ← locate_panelPath dir]
  apply locate_join_plain (text_panelPath_ne_empty dir) plain
  rw [← inside, ← locate_panelPath dir]
  rfl

theorem reachesPath_of_locate {path : Path} {reach : Reach}
    (covers : ∀ bucket key, (fs.locate path).Covers bucket key → reach bucket key) :
    fs.ReachesPath reach path := by
  intro bucket key located other under
  apply covers
  rw [located]
  exact ⟨rfl, under⟩

/-- Items with plain names of their own are addressed by their paths. -/
theorem truthful_of_plain {dir : Path} {items : List DirItem}
    (located : ∀ item ∈ items, fs.locate item.path = (fs.locate dir).child item.name)
    (named : ∀ item ∈ items, item.path = (panelPath dir).join ⟨item.name⟩ ∧ PlainName item.name)
    (distinct : items.Pairwise fun first second => first.name ≠ second.name) :
    Truthful fs store dir items where
  located := located
  distinct := by
    apply distinct.imp_of_mem
    intro first second isFirst isSecond differ same
    obtain ⟨firstPath, firstPlain⟩ := named first isFirst
    obtain ⟨secondPath, secondPlain⟩ := named second isSecond
    rw [firstPath, secondPath, components_join_plain firstPlain,
      components_join_plain secondPlain] at same
    simp [differ] at same
  apart := by
    apply distinct.imp_of_mem
    intro first second isFirst isSecond differ bucket key coversFirst coversSecond
    have noFirst := (named first isFirst).2.2.1
    have noSecond := (named second isSecond).2.2.1
    apply differ
    cases place : fs.locate dir with
    | root =>
      rw [place] at coversFirst coversSecond
      exact coversFirst.symm.trans coversSecond
    | bucket name =>
      rw [place] at coversFirst coversSecond
      apply name_eq_of_under "" noFirst noSecond
      · rw [String.empty_append]
        exact coversFirst.2
      · rw [String.empty_append]
        exact coversSecond.2
    | object name folder =>
      rw [place] at coversFirst coversSecond
      exact name_eq_of_under _ noFirst noSecond coversFirst.2 coversSecond.2
  contained := by
    intro item member
    have reaches : fs.ReachesPath ((fs.locate dir).child item.name).Covers item.path := by
      apply reachesPath_of_locate
      rw [located item member]
      exact fun bucket key covers => covers
    exact ⟨stays_stat reaches, stays_delete reaches, fun offset => stays_openRead offset reaches⟩
  renamed := by
    intro item member target
    apply stays_rename
    · apply reachesPath_of_locate
      rw [located item member]
      exact fun bucket key covers => Or.inl covers
    · apply reachesPath_of_locate
      exact fun bucket key covers => Or.inr covers

/-! ### When the items are addressed by their paths -/

section Folder

variable {dir : Path} {bucket : String} {listing : S3Listing} {extra : List DirItem}

theorem named_of_mem (grouped : listing.Grouped (store bucket) (fs.locate dir).keysBelow)
    {item : DirItem} (member : item ∈ listedItems (panelPath dir) (fs.locate dir).keysBelow
      listing) :
    item.path = (panelPath dir).join ⟨item.name⟩ ∧ item.name ≠ "" ∧ '/' ∉ item.name.toList ∧
      ∃ object ∈ store bucket, ∃ rest, object.key = (fs.locate dir).keysBelow ++ item.name ∨
        object.key = (fs.locate dir).keysBelow ++ item.name ++ "/" ++ rest := by
  rcases List.mem_append.mp member with isFolder | isFile
  · obtain ⟨⟨notEmpty, noSeparator, object, inside, rest, isKey⟩, isItem⟩ :=
      (mem_listedFolders grouped item).mp isFolder
    refine ⟨?_, notEmpty, noSeparator, object, inside, rest, Or.inr isKey⟩
    rw [isItem]
  · obtain ⟨object, inside, ⟨notEmpty, noSeparator, isKey⟩, isItem⟩ :=
      (mem_listedFiles grouped item).mp isFile
    refine ⟨?_, notEmpty, noSeparator, object, inside, "", Or.inl isKey⟩
    rw [isItem]

theorem distinct_listedItems (grouped : listing.Grouped (store bucket) (fs.locate dir).keysBelow)
    (unambiguous : Unambiguous (store bucket) (fs.locate dir).keysBelow) :
    (listedItems (panelPath dir) (fs.locate dir).keysBelow listing).Pairwise
      fun first second => first.name ≠ second.name := by
  apply List.pairwise_append.mpr
  refine ⟨distinct_listedFolders grouped, distinct_listedFiles grouped, ?_⟩
  intro first isFolder second isFile same
  obtain ⟨⟨notEmpty, noSeparator, other, isOther, rest, otherKey⟩, -⟩ :=
    (mem_listedFolders grouped first).mp isFolder
  obtain ⟨object, inside, ⟨-, -, isKey⟩, -⟩ := (mem_listedFiles grouped second).mp isFile
  rw [← same] at isKey
  exact unambiguous.noClash object inside other isOther first.name rest notEmpty noSeparator isKey
    otherKey

theorem truthful_folder (inside : (fs.locate dir).bucketName = some bucket)
    (grouped : listing.Grouped (store bucket) (fs.locate dir).keysBelow)
    (staged : Staged (panelPath dir)
      (listedItems (panelPath dir) (fs.locate dir).keysBelow listing) extra)
    (unambiguous : Unambiguous (store bucket) (fs.locate dir).keysBelow) :
    Truthful fs store dir
      (listedItems (panelPath dir) (fs.locate dir).keysBelow listing ++ extra) := by
  have named : ∀ item ∈ listedItems (panelPath dir) (fs.locate dir).keysBelow listing ++ extra,
      item.path = (panelPath dir).join ⟨item.name⟩ ∧ PlainName item.name := by
    intro item member
    rcases List.mem_append.mp member with isListed | isExtra
    · obtain ⟨path, notEmpty, noSeparator, object, isObject, rest, isKey⟩ :=
        named_of_mem grouped isListed
      obtain ⟨notHere, notUp⟩ := unambiguous.noDots object isObject item.name rest isKey
      exact ⟨path, notEmpty, noSeparator, notHere, notUp⟩
    · obtain ⟨path, noSeparator, stem, isStaged⟩ := staged.named item isExtra
      exact ⟨path, plain_of_staged noSeparator isStaged⟩
  apply truthful_of_plain _ named
  · apply List.pairwise_append.mpr
    refine ⟨distinct_listedItems grouped unambiguous, staged.distinct, ?_⟩
    intro first isListed second isExtra
    exact staged.new first isListed second isExtra
  · intro item member
    obtain ⟨path, plain⟩ := named item member
    rw [path]
    exact locate_child inside plain

/-! ### Names that lead elsewhere -/

theorem length_joinSegments_dropLast (segments : List String) :
    (joinSegments segments.dropLast).toList.length ≤ (joinSegments segments).toList.length := by
  by_cases empty : segments = []
  · rw [empty]
    exact le_refl _
  · conv_rhs => rw [← List.dropLast_append_getLast empty]
    by_cases single : segments.dropLast = []
    · rw [single]
      exact Nat.zero_le _
    · unfold joinSegments
      rw [String.intercalate_append_of_ne_nil single (by simp), String.toList_append,
        String.toList_append, List.length_append, List.length_append]
      omega

theorem child_ne (location : S3Location) (name : String) : location.child name ≠ location := by
  intro same
  cases location with
  | root => cases same
  | bucket inside => cases same
  | object inside key =>
    have longer := congrArg (fun location : S3Location => match location with
      | .object _ key => key.toList.length
      | _ => 0) same
    simp only [S3Location.child, String.toList_append, List.length_append] at longer
    have separator : "/".toList.length = 1 := rfl
    omega

theorem locateIn_dropLast_ne (bucket : String) (segments : List String) (name other : String) :
    locateIn bucket segments.dropLast ≠ (locateIn other segments).child name := by
  intro same
  have shorter := length_joinSegments_dropLast segments
  unfold locateIn at same
  split_ifs at same with above here here
  · cases same
  · cases same
  · rw [List.isEmpty_iff.mp here] at above
    exact above rfl
  · have longer := congrArg (fun location : S3Location => match location with
      | .object _ key => key.toList.length
      | _ => 0) same
    simp only [S3Location.child, String.toList_append, List.length_append] at longer
    have separator : "/".toList.length = 1 := rfl
    omega

theorem locate_dotDot_ne {base : Path} (notEmpty : base.text ≠ "")
    (inside : (fs.locate base).bucketName = some bucket) :
    fs.locate (base.join ⟨".."⟩) ≠ (fs.locate base).child ".." := by
  unfold S3Fs.locate Porthmos.locate at inside ⊢
  rw [keySegments_join_dotDot notEmpty]
  obtain ⟨configured, adjust⟩ := fs
  cases configured with
  | some configured => exact locateIn_dropLast_ne configured _ _ configured
  | none =>
    cases segments : keySegments base with
    | nil =>
      rw [segments] at inside
      cases inside
    | cons first rest =>
      cases rest with
      | nil =>
        intro same
        cases same
      | cons second rest => exact locateIn_dropLast_ne first _ _ first

theorem dots_not_located {name : String} (inside : (fs.locate dir).bucketName = some bucket)
    (dots : name = "." ∨ name = "..") :
    fs.locate ((panelPath dir).join ⟨name⟩) ≠ (fs.locate dir).child name := by
  rw [← locate_panelPath dir] at inside ⊢
  rcases dots with rfl | rfl
  · intro same
    apply child_ne (fs.locate (panelPath dir)) "."
    rw [← same]
    exact locate_congr fs.bucket (keySegments_join_dot (text_panelPath_ne_empty dir))
  · exact locate_dotDot_ne (text_panelPath_ne_empty dir) inside

theorem unambiguous_of_truthful (inside : (fs.locate dir).bucketName = some bucket)
    (grouped : listing.Grouped (store bucket) (fs.locate dir).keysBelow)
    (truthful : Truthful fs store dir
      (listedItems (panelPath dir) (fs.locate dir).keysBelow listing ++ extra)) :
    Unambiguous (store bucket) (fs.locate dir).keysBelow where
  noDots := by
    intro object isObject name rest isKey
    by_contra dots
    have isDots : name = "." ∨ name = ".." := by
      rcases not_and_or.mp dots with here | up
      · exact Or.inl (not_not.mp here)
      · exact Or.inr (not_not.mp up)
    have shownName : name ≠ "" ∧ '/' ∉ name.toList := by rcases isDots with rfl | rfl <;> decide
    obtain ⟨item, isListed, isName, path⟩ : ∃ item ∈ listedItems (panelPath dir)
        (fs.locate dir).keysBelow listing, item.name = name ∧
          item.path = (panelPath dir).join ⟨name⟩ := by
      rcases isKey with isFile | isFolder
      · refine ⟨_, List.mem_append_right _ ((mem_listedFiles grouped
          ⟨name, (panelPath dir).join ⟨name⟩, file object.size object.modified⟩).mpr
            ⟨object, isObject, ⟨shownName.1, shownName.2, isFile⟩, rfl⟩), rfl, rfl⟩
      · refine ⟨_, List.mem_append_left _ ((mem_listedFolders grouped
          ⟨name, (panelPath dir).join ⟨name⟩, folder⟩).mpr
            ⟨⟨shownName.1, shownName.2, object, isObject, rest, isFolder⟩, rfl⟩), rfl, rfl⟩
    have located := truthful.located item (List.mem_append_left _ isListed)
    rw [path, isName] at located
    exact dots_not_located inside isDots located
  noClash := by
    intro object isObject other isOther name rest notEmpty noSeparator isKey otherKey
    have isFolder : (⟨name, (panelPath dir).join ⟨name⟩, folder⟩ : DirItem) ∈
        listedFolders (panelPath dir) (fs.locate dir).keysBelow listing :=
      (mem_listedFolders grouped _).mpr
        ⟨⟨notEmpty, noSeparator, other, isOther, rest, otherKey⟩, rfl⟩
    have isFile : (⟨name, (panelPath dir).join ⟨name⟩, file object.size object.modified⟩ :
        DirItem) ∈ listedFiles (panelPath dir) (fs.locate dir).keysBelow listing :=
      (mem_listedFiles grouped _).mpr ⟨object, isObject, ⟨notEmpty, noSeparator, isKey⟩, rfl⟩
    have distinct := (List.pairwise_append.mp truthful.distinct).1
    exact (List.pairwise_append.mp distinct).2.2 _ isFolder _ isFile rfl

end Folder

/-- The buckets of the root are addressed by their paths. -/
theorem truthful_root {dir : Path} {buckets : List S3Bucket} (located : fs.locate dir = .root)
    (names : BucketNames buckets) :
    Truthful fs store dir (buckets.map (bucketItem (panelPath dir))) := by
  have atRoot : fs.bucket = none ∧ keySegments dir = [] := by
    unfold S3Fs.locate Porthmos.locate at located
    cases configured : fs.bucket with
    | some bucket =>
      rw [configured] at located
      dsimp only at located
      unfold locateIn at located
      split_ifs at located
    | none =>
      rw [configured] at located
      cases segments : keySegments dir with
      | nil => exact ⟨rfl, rfl⟩
      | cons first rest =>
        rw [segments] at located
        dsimp only at located
        unfold locateIn at located
        split_ifs at located
  have named : ∀ item ∈ buckets.map (bucketItem (panelPath dir)),
      item.path = (panelPath dir).join ⟨item.name⟩ ∧ PlainName item.name := by
    intro item member
    obtain ⟨bucket, isBucket, rfl⟩ := List.mem_map.mp member
    exact ⟨rfl, names.1 bucket isBucket⟩
  apply truthful_of_plain _ named
  · rw [List.pairwise_map]
    exact List.pairwise_map.mp names.2
  · intro item member
    obtain ⟨path, plain⟩ := named item member
    rw [path, located]
    unfold S3Fs.locate Porthmos.locate
    rw [atRoot.1, keySegments_join_plain (text_panelPath_ne_empty dir) plain,
      keySegments_panelPath, atRoot.2]
    rfl

theorem items_of_root {answer : {β : Type} → S3Request β → Except ProtocolError β}
    {dir : Path} {items : List DirItem} (located : fs.locate dir = .root)
    (listed : (fs.items dir).eval answer = .ok items) :
    ∃ buckets, answer .buckets = .ok buckets ∧
      items = buckets.map (bucketItem (panelPath dir)) := by
  unfold S3Fs.items at listed
  rw [located] at listed
  change ((Program.done (answer .buckets)).bind fun buckets =>
    (pure (buckets.map (bucketItem (panelPath dir))) : S3Program (List DirItem))).eval answer =
      .ok items at listed
  cases isAnswer : answer .buckets with
  | ok buckets =>
    rw [isAnswer] at listed
    exact ⟨buckets, rfl, (Except.ok.inj listed).symm⟩
  | error err =>
    rw [isAnswer] at listed
    cases listed

/-- The items that a folder lists are addressed by their paths exactly when no name in it is `.` or
`..`, and none is that of an object and of a folder. -/
theorem truthful_iff {answer : {β : Type} → S3Request β → Except ProtocolError β}
    (answers : Answers store answer) {dir : Path} {items : List DirItem}
    (listed : (fs.items dir).eval answer = .ok items) :
    Truthful fs store dir items ↔ (fs.locate dir).Unambiguous store := by
  cases inside : (fs.locate dir).bucketName with
  | some bucket =>
    rw [items_of_bucketName inside] at listed
    obtain ⟨listing, extra, grouped, rfl, staged⟩ := folderItems_eval answers listed
    constructor
    · intro truthful found isFound
      cases inside.symm.trans isFound
      exact unambiguous_of_truthful inside grouped truthful
    · intro unambiguous
      exact truthful_folder inside grouped staged (unambiguous bucket inside)
  | none =>
    have located : fs.locate dir = .root := by
      cases place : fs.locate dir with
      | root => rfl
      | bucket name =>
        rw [place] at inside
        cases inside
      | object name key =>
        rw [place] at inside
        cases inside
    constructor
    · intro _ found isFound
      rw [inside] at isFound
      cases isFound
    · intro _
      obtain ⟨buckets, isAnswer, rfl⟩ := items_of_root located listed
      exact truthful_root located (answers .buckets buckets isAnswer)

/-- A bucket with one object. -/
def singleKey (key : String) : S3Store := fun _ => [⟨key, 5, none⟩]

theorem answers_singleKey (key : String) : Answers (singleKey key) (serve [] (singleKey key)) := by
  apply answers_serve
  · exact ⟨fun bucket member => (nomatch member), List.nodup_nil⟩
  · intro bucket
    exact List.nodup_singleton key

def mediaFs : S3Fs := ⟨some "media", id⟩

theorem items_photos : (mediaFs.items ⟨"/photos"⟩).eval (serve [] (singleKey "photos/2024/x.jpg")) =
      .ok [⟨"2024", ⟨"/photos/2024"⟩, folder⟩] := by
  rfl

theorem truthful_iff_photos :
    Truthful mediaFs (singleKey "photos/2024/x.jpg") ⟨"/photos"⟩
        [⟨"2024", ⟨"/photos/2024"⟩, folder⟩] ↔
      (mediaFs.locate ⟨"/photos"⟩).Unambiguous (singleKey "photos/2024/x.jpg") :=
  truthful_iff (answers_singleKey _) items_photos

/-- The folder `.` of a key is shown, and its path is that of the folder it is in. -/
theorem truthful_fails :
    Answers (singleKey "photos/./x.jpg") (serve [] (singleKey "photos/./x.jpg")) ∧
    (mediaFs.items ⟨"/photos"⟩).eval (serve [] (singleKey "photos/./x.jpg")) =
      .ok [⟨".", ⟨"/photos/."⟩, folder⟩] ∧
    mediaFs.locate ⟨"/photos/."⟩ = mediaFs.locate ⟨"/photos"⟩ ∧
    ¬Truthful mediaFs (singleKey "photos/./x.jpg") ⟨"/photos"⟩
      [⟨".", ⟨"/photos/."⟩, folder⟩] := by
  refine ⟨answers_singleKey _, rfl, rfl, ?_⟩
  intro truthful
  have located := truthful.located _ List.mem_cons_self
  revert located
  decide

end S3Fs

end Porthmos
