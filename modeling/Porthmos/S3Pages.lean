import Mathlib.Data.Finset.Card
import Mathlib.Data.List.MinMax
import Porthmos.S3Fs

/-!
# The pages of a listing

A listing comes in pages, and a server that gives no token to continue with is asked to start after
the last key of a page, or after everything in its last folder.  Where that place is invented from
the text of the folder, it may be beyond keys that are in no folder before it.
-/

namespace Porthmos

/-! ### The order of keys -/

namespace KeyOrder

variable {α : Type} [LinearOrder α] {first second : List α}

theorem append_lt (before : first < second) (apart : ¬first <+: second) (rest : List α) :
    first ++ rest < second := by
  induction first generalizing second with
  | nil => exact absurd List.nil_prefix apart
  | cons head first ih =>
    cases second with
    | nil => cases before
    | cons other second =>
      rw [List.cons_lt_cons_iff] at before
      rw [List.cons_append, List.cons_lt_cons_iff]
      rcases before with less | ⟨rfl, further⟩
      · exact .inl less
      · have apartToo : ¬first <+: second := fun inside =>
          apart ((List.prefix_cons_inj head).mpr inside)
        exact .inr ⟨rfl, ih further apartToo⟩

theorem le_append (first rest : List α) : first ≤ first ++ rest := by
  rw [← not_lt]
  induction first with
  | nil => exact List.not_lt_nil rest
  | cons head first ih =>
    rw [List.cons_append, List.cons_lt_cons_iff]
    rintro (less | ⟨_, before⟩)
    · exact lt_irrefl _ less
    · exact ih before

theorem le_of_begins (inside : first <+: second) : first ≤ second := by
  obtain ⟨rest, rfl⟩ := inside
  exact le_append first rest

theorem append_lt_append (shared : List α) (before : first < second) :
    shared ++ first < shared ++ second := by
  induction shared with
  | nil => exact before
  | cons head shared ih =>
    rw [List.cons_append, List.cons_append, List.cons_lt_cons_iff]
    exact .inr ⟨rfl, ih⟩

end KeyOrder

/-! ### Pages -/

/-- `Cursor` -/
inductive Cursor
  | token (token : String)
  | startAfter (key : String)
  deriving DecidableEq, Repr

/-- `xml::Listing` -/
structure ListingPage where
  objects : List S3Object
  prefixes : List String
  next : Option String
  truncated : Bool
  deriving DecidableEq, Repr

namespace ListingPage

def noPlace : ProtocolError :=
  ⟨.other, "invalid S3 response: a truncated listing gave no place to continue"⟩

def repeated : ProtocolError :=
  ⟨.other, "invalid S3 response: the server repeated a listing page"⟩

def lastKey (page : ListingPage) : Option String :=
  (page.objects.map S3Object.key ++ page.prefixes).max?

/-- The place after the last key of a page. -/
def placeAfter (page : ListingPage) (key : String) : String :=
  if key ∈ page.prefixes then trimSlashes key ++ "0" else key

/-- Where `cursor` goes on, before it is compared with the page before. -/
def nextCursor (page : ListingPage) : Option Cursor :=
  match page.next, page.lastKey with
  | some token, _ => some (.token token)
  | none, some key => some (.startAfter (page.placeAfter key))
  | none, none => none

/-- `Listing::cursor` -/
def cursor (page : ListingPage) (previous : Option Cursor) : Except ProtocolError (Option Cursor) :=
  if page.truncated then
    match page.nextCursor with
    | some next => if previous = some next then .error repeated else .ok (some next)
    | none => .error noPlace
  else .ok none

end ListingPage

/-- A prefix that was listed before is not listed again. -/
def addPrefix (kept : List String) (folder : String) : List String :=
  if folder ∈ kept then kept else kept ++ [folder]

def addPage (all : S3Listing) (page : ListingPage) : S3Listing :=
  ⟨all.objects ++ page.objects, page.prefixes.foldl addPrefix all.prefixes⟩

/-- The loop of `listing`, as far as the fuel goes; `ask` answers its requests, by their number. -/
def listingLoop (ask : Nat → Option Cursor → Except ProtocolError ListingPage) :
    Nat → Nat → Option Cursor → S3Listing → Except ProtocolError S3Listing
  | 0, _, _, _ => .error ⟨.other, "out of fuel"⟩
  | fuel + 1, number, cursor, all => do
      let page ← ask number cursor
      match ← page.cursor cursor with
      | some next => listingLoop ask fuel (number + 1) (some next) (addPage all page)
      | none => .ok (addPage all page)

/-- `S3Fs::listing` -/
def listing (ask : Nat → Option Cursor → Except ProtocolError ListingPage) (fuel : Nat) :
    Except ProtocolError S3Listing :=
  listingLoop ask fuel 0 none ⟨[], []⟩

/-! ### What a server lists -/

section Folders

/-- A key that begins with the prefix of a listing. -/
def BeginsWith (below key : String) : Prop := below.toList <+: key.toList

instance (below key : String) : Decidable (BeginsWith below key) :=
  inferInstanceAs (Decidable (_ <+: _))

/-- The common prefix that a key is listed under, with the delimiter. -/
def folderOf (below : String) (folders : Bool) (key : String) : Option String :=
  let rest := key.toList.drop below.toList.length
  if folders ∧ '/' ∈ rest then
    some (String.ofList (below.toList ++ rest.takeWhile (· ≠ '/') ++ ['/']))
  else none

variable {below key other folder second : String} {folders : Bool}

theorem takeWhile_segment {segment : List Char} (noSlash : '/' ∉ segment) (rest : List Char) :
    (segment ++ '/' :: rest).takeWhile (· ≠ '/') = segment := by
  rw [List.takeWhile_append_of_pos]
  · simp
  · rintro char member
    have differs : char ≠ '/' := by
      rintro rfl
      exact noSlash member
    simpa using differs

theorem folderOf_eq_some (under : BeginsWith below key) : folderOf below folders key = some folder ↔
    folders = true ∧ ∃ segment rest, '/' ∉ segment ∧
      folder.toList = below.toList ++ segment ++ ['/'] ∧ key.toList = folder.toList ++ rest := by
  obtain ⟨rest, isKey⟩ := under
  unfold folderOf
  rw [← isKey, List.drop_left]
  constructor
  · intro isFolder
    dsimp only at isFolder
    split_ifs at isFolder with isSplit
    obtain ⟨segment, after, rfl, noSlash⟩ := List.eq_append_cons_of_mem isSplit.2
    rw [takeWhile_segment noSlash, Option.some_inj] at isFolder
    subst isFolder
    exact ⟨isSplit.1, segment, after, noSlash, by simp, by simp⟩
  · rintro ⟨isOn, segment, after, noSlash, isFolder, isText⟩
    rw [isFolder, List.append_assoc, List.append_assoc, List.append_cancel_left_eq] at isText
    subst isText
    dsimp only
    rw [if_pos ⟨isOn, by simp⟩, List.singleton_append, takeWhile_segment noSlash, Option.some_inj]
    apply String.toList_inj.mp
    rw [String.toList_ofList, isFolder]

theorem folderOf_inside (isFolder : folderOf below folders key = some folder)
    (under : BeginsWith below key) (inside : folder.toList <+: other.toList) :
    BeginsWith below other ∧ folderOf below folders other = some folder := by
  obtain ⟨isOn, segment, _, noSlash, isText, -⟩ := (folderOf_eq_some under).mp isFolder
  have isUnder : BeginsWith below other := by
    apply List.IsPrefix.trans _ inside
    rw [isText, List.append_assoc]
    exact List.prefix_append ..
  obtain ⟨rest, isOther⟩ := inside
  exact ⟨isUnder, (folderOf_eq_some isUnder).mpr ⟨isOn, segment, rest, noSlash, isText, isOther.symm⟩⟩

theorem prefix_of_folderOf (isFolder : folderOf below folders key = some folder)
    (under : BeginsWith below key) : folder.toList <+: key.toList := by
  obtain ⟨-, -, rest, -, -, isText⟩ := (folderOf_eq_some under).mp isFolder
  exact ⟨rest, isText.symm⟩

/-- Where a key is listed: as itself, or as its common prefix. -/
def place (below : String) (folders : Bool) (key : String) : String :=
  (folderOf below folders key).getD key

theorem place_le (under : BeginsWith below key) : place below folders key ≤ key := by
  unfold place
  cases isFolder : folderOf below folders key with
  | none => exact le_rfl
  | some folder =>
    rw [Option.getD_some, String.le_iff_toList_le]
    exact KeyOrder.le_of_begins (prefix_of_folderOf isFolder under)

theorem prefix_place (under : BeginsWith below key) :
    (place below folders key).toList <+: key.toList := by
  unfold place
  cases isFolder : folderOf below folders key with
  | none => exact List.prefix_refl _
  | some folder => exact prefix_of_folderOf isFolder under

theorem lt_of_place_lt (under : BeginsWith below key) (underToo : BeginsWith below other)
    (before : place below folders key < place below folders other) :
    key < place below folders other := by
  cases isFolder : folderOf below folders key with
  | none => simpa [place, isFolder] using before
  | some folder =>
    obtain ⟨-, -, rest, -, -, isText⟩ := (folderOf_eq_some under).mp isFolder
    have isPlace : place below folders key = folder := by simp [place, isFolder]
    rw [isPlace] at before
    rw [String.lt_iff_toList_lt] at before ⊢
    rw [isText]
    apply KeyOrder.append_lt before
    intro inside
    have same := (folderOf_inside isFolder under (inside.trans (prefix_place underToo))).2
    have isOther : place below folders other = folder := by simp [place, same]
    rw [isOther] at before
    exact lt_irrefl _ before

/-- Where a listing goes on after a folder: the sign after the slash takes its place. -/
def behind (folder : String) : String := trimSlashes folder ++ "0"

theorem exists_slashes (isFolder : folderOf below folders key = some folder)
    (under : BeginsWith below key) :
    ∃ slashes, folder.toList = (trimSlashes folder).toList ++ '/' :: slashes := by
  obtain ⟨-, segment, -, -, isText, -⟩ := (folderOf_eq_some under).mp isFolder
  let run := folder.toList.reverse.takeWhile fun char => decide (char = '/')
  have parts : run ++ folder.toList.reverse.dropWhile (fun char => decide (char = '/')) =
      folder.toList.reverse := List.takeWhile_append_dropWhile
  have isRun : run = List.replicate run.length '/' := by
    rw [List.eq_replicate_iff]
    exact ⟨rfl, fun char member => by simpa using List.mem_takeWhile_imp member⟩
  have notEmpty : run ≠ [] := by simp [run, isText]
  obtain ⟨count, isLength⟩ := Nat.exists_eq_succ_of_ne_zero (List.length_pos_of_ne_nil notEmpty).ne'
  have whole := congrArg List.reverse parts
  rw [List.reverse_append, List.reverse_reverse, isRun, List.reverse_replicate, isLength,
    List.replicate_succ] at whole
  exact ⟨List.replicate count '/', by rw [trimSlashes, String.toList_ofList, whole]⟩

theorem lt_behind (isFolder : folderOf below folders key = some folder) (under : BeginsWith below key)
    (inside : folder.toList <+: other.toList) : other < behind folder := by
  obtain ⟨slashes, isText⟩ := exists_slashes isFolder under
  obtain ⟨rest, isOther⟩ := inside
  rw [String.lt_iff_toList_lt, ← isOther, isText, behind, String.toList_append, List.append_assoc]
  apply KeyOrder.append_lt_append
  rw [List.cons_append]
  exact List.cons_lt_cons_iff.mpr (.inl (by decide))

theorem not_prefix_behind (isFolder : folderOf below folders key = some folder)
    (under : BeginsWith below key) (isSecond : folderOf below folders other = some second)
    (underToo : BeginsWith below other) (after : folder < second) :
    ¬second.toList <+: (behind folder).toList := by
  intro inside
  obtain ⟨slashes, isText⟩ := exists_slashes isFolder under
  obtain ⟨-, segment, -, -, isSecondText, -⟩ := (folderOf_eq_some underToo).mp isSecond
  have zero : ("0" : String).toList = ['0'] := by decide
  rw [behind, String.toList_append, zero, List.prefix_concat_iff] at inside
  rcases inside with same | within
  · have ends := congrArg List.getLast? (isSecondText.symm.trans same)
    simp at ends
  · have before : second.toList <+: folder.toList := by
      rw [isText]
      exact within.trans (List.prefix_append ..)
    rw [String.lt_iff_toList_lt] at after
    exact not_le_of_gt after (KeyOrder.le_of_begins before)

end Folders

/-- A request for a listing, and the objects that the bucket holds. -/
structure ListingRequest where
  stored : List S3Object
  below : String
  folders : Bool
  deriving DecidableEq, Repr

namespace ListingRequest

variable (request : ListingRequest)

/-- The objects that a listing is to tell of. -/
def Listable (object : S3Object) : Prop := object ∈ request.stored ∧ BeginsWith request.below object.key

instance (object : S3Object) : Decidable (request.Listable object) :=
  inferInstanceAs (Decidable (_ ∧ _))

def folder (object : S3Object) : Option String :=
  folderOf request.below request.folders object.key

def place (object : S3Object) : String :=
  Porthmos.place request.below request.folders object.key

/-- The key is beyond where a listing starts. -/
def After (start : Option String) (key : String) : Prop := ∀ last ∈ start, last < key

instance (start : Option String) (key : String) : Decidable (After start key) :=
  inferInstanceAs (Decidable (∀ last ∈ start, _))

/-- An object is on a page, or its folder is. -/
def Lists (page : ListingPage) (object : S3Object) : Prop :=
  match request.folder object with
  | some folder => folder ∈ page.prefixes
  | none => object ∈ page.objects

/-- A page of a server that goes through the keys in their order from a start on, lists one thing
at least if it does not list everything, and gives no token. -/
structure PageOf (start : Option String) (page : ListingPage) : Prop where
  noToken : page.next = none
  objects : ∀ object ∈ page.objects, request.Listable object ∧ After start object.key ∧
    request.folder object = none
  objectsOnce : page.objects.Nodup
  prefixes : ∀ folder ∈ page.prefixes, ∃ object, request.Listable object ∧
    After start object.key ∧ request.folder object = some folder
  prefixesOnce : page.prefixes.Nodup
  inOrder : ∀ first, request.Listable first → After start first.key →
    ∀ second, request.Listable second → After start second.key → request.Lists page second →
      request.place first ≤ request.place second → request.Lists page first
  whole : page.truncated = false → ∀ object, request.Listable object → After start object.key →
    request.Lists page object
  part : page.truncated = true → (page.objects ≠ [] ∨ page.prefixes ≠ []) ∧
    ∃ object, request.Listable object ∧ After start object.key ∧ ¬request.Lists page object

/-- A listing that tells of everything, once. -/
structure Complete (all : S3Listing) : Prop where
  objectsOnce : all.objects.Nodup
  objects : ∀ object, object ∈ all.objects ↔ request.Listable object ∧ request.folder object = none
  prefixesOnce : all.prefixes.Nodup
  prefixes : ∀ folder, folder ∈ all.prefixes ↔ ∃ object, request.Listable object ∧
    request.folder object = some folder

/-- What a listing has told of when it has passed some of the keys. -/
structure ToldOf (passed : String → Prop) (all : S3Listing) : Prop where
  objectsOnce : all.objects.Nodup
  objects : ∀ object, object ∈ all.objects ↔
    request.Listable object ∧ passed object.key ∧ request.folder object = none
  prefixesOnce : all.prefixes.Nodup
  prefixes : ∀ folder, folder ∈ all.prefixes ↔ ∃ object, request.Listable object ∧
    passed object.key ∧ request.folder object = some folder

/-- No key that follows a folder is at or before the place behind it. -/
def NoneBehind : Prop :=
  ∀ first, request.Listable first → ∀ folder, request.folder first = some folder →
    ∀ object, request.Listable object → folder < object.key →
      ¬folder.toList <+: object.key.toList → behind folder < object.key

variable {request} {start : Option String} {page : ListingPage} {all : S3Listing}

theorem mem_addPrefixes (kept folders : List String) (folder : String) :
    folder ∈ folders.foldl addPrefix kept ↔ folder ∈ kept ∨ folder ∈ folders := by
  induction folders generalizing kept with
  | nil => simp
  | cons other folders ih =>
    rw [List.foldl_cons, ih, addPrefix]
    split_ifs with isKept
    · rw [List.mem_cons]
      constructor
      · rintro (isIn | isIn)
        · exact .inl isIn
        · exact .inr (.inr isIn)
      · rintro (isIn | rfl | isIn)
        · exact .inl isIn
        · exact .inl isKept
        · exact .inr isIn
    · simp only [List.mem_append, List.mem_cons]
      tauto

theorem nodup_addPrefixes {kept : List String} (once : kept.Nodup) (folders : List String) :
    (folders.foldl addPrefix kept).Nodup := by
  induction folders generalizing kept with
  | nil => exact once
  | cons other folders ih =>
    rw [List.foldl_cons]
    apply ih
    unfold addPrefix
    split_ifs with isKept
    · exact once
    · refine List.nodup_append.mpr ⟨once, List.nodup_singleton other, ?_⟩
      rintro first isOld second isOther rfl
      exact isKept (List.mem_singleton.mp isOther ▸ isOld)

/-- A page adds what is listed on it. -/
theorem ToldOf.addPage (told : request.ToldOf (fun key => ¬After start key) all)
    (isPage : request.PageOf start page) {passed : String → Prop}
    (moves : ∀ object, request.Listable object → (passed object.key ↔
      ¬After start object.key ∨ After start object.key ∧ request.Lists page object)) :
    request.ToldOf passed (addPage all page) where
  objectsOnce := by
    rw [Porthmos.addPage, List.nodup_append]
    refine ⟨told.objectsOnce, isPage.objectsOnce, ?_⟩
    rintro object isOld _ isNew rfl
    exact ((told.objects object).mp isOld).2.1 (isPage.objects object isNew).2.1
  objects := by
    intro object
    rw [Porthmos.addPage, List.mem_append, told.objects object]
    constructor
    · rintro (⟨listable, isPassed, isObject⟩ | isNew)
      · exact ⟨listable, (moves object listable).mpr (.inl isPassed), isObject⟩
      · obtain ⟨listable, isAfter, isObject⟩ := isPage.objects object isNew
        have lists : request.Lists page object := by simpa [Lists, isObject] using isNew
        exact ⟨listable, (moves object listable).mpr (.inr ⟨isAfter, lists⟩), isObject⟩
    · rintro ⟨listable, isPassed, isObject⟩
      rcases (moves object listable).mp isPassed with before | ⟨-, lists⟩
      · exact .inl ⟨listable, before, isObject⟩
      · exact .inr (by simpa [Lists, isObject] using lists)
  prefixesOnce := nodup_addPrefixes told.prefixesOnce page.prefixes
  prefixes := by
    intro folder
    rw [Porthmos.addPage, mem_addPrefixes, told.prefixes folder]
    constructor
    · rintro (⟨object, listable, isPassed, isFolder⟩ | isNew)
      · exact ⟨object, listable, (moves object listable).mpr (.inl isPassed), isFolder⟩
      · obtain ⟨object, listable, isAfter, isFolder⟩ := isPage.prefixes folder isNew
        have lists : request.Lists page object := by simpa [Lists, isFolder] using isNew
        exact ⟨object, listable, (moves object listable).mpr (.inr ⟨isAfter, lists⟩), isFolder⟩
    · rintro ⟨object, listable, isPassed, isFolder⟩
      rcases (moves object listable).mp isPassed with before | ⟨-, lists⟩
      · exact .inl ⟨object, listable, before, isFolder⟩
      · exact .inr (by simpa [Lists, isFolder] using lists)

theorem ToldOf.complete (told : request.ToldOf (fun key => ¬After start key) all)
    (isPage : request.PageOf start page) (ended : page.truncated = false) :
    request.Complete (Porthmos.addPage all page) := by
  have everything : request.ToldOf (fun _ => True) (Porthmos.addPage all page) := by
    apply told.addPage isPage
    intro object listable
    simp only [true_iff]
    by_cases isAfter : After start object.key
    · exact .inr ⟨isAfter, isPage.whole ended object listable isAfter⟩
    · exact .inl isAfter
  exact ⟨everything.objectsOnce, by simpa using everything.objects, everything.prefixesOnce,
    by simpa using everything.prefixes⟩

theorem place_eq (object : S3Object) :
    request.place object = (request.folder object).getD object.key := rfl

theorem place_mem {object : S3Object} (lists : request.Lists page object) :
    request.place object ∈ page.objects.map S3Object.key ++ page.prefixes := by
  rw [place_eq]
  unfold Lists at lists
  cases isFolder : request.folder object with
  | none =>
    rw [isFolder] at lists
    exact List.mem_append_left _ (List.mem_map_of_mem lists)
  | some folder =>
    rw [isFolder] at lists
    exact List.mem_append_right _ lists

theorem exists_last (isPage : request.PageOf start page) (isPart : page.truncated = true) :
    ∃ object, request.Listable object ∧ After start object.key ∧ request.Lists page object ∧
      page.lastKey = some (request.place object) := by
  have notEmpty : page.objects.map S3Object.key ++ page.prefixes ≠ [] := by
    have some := (isPage.part isPart).1
    simpa [List.append_eq_nil_iff, ← not_and_or] using some
  obtain ⟨last, isLast⟩ := Option.ne_none_iff_exists'.mp (mt List.max?_eq_none_iff.mp notEmpty)
  unfold ListingPage.lastKey
  rw [isLast]
  rcases List.mem_append.mp (List.max?_eq_some_iff.mp isLast).1 with isObject | isPrefix
  · obtain ⟨object, isOn, rfl⟩ := List.mem_map.mp isObject
    obtain ⟨listable, isAfter, isNone⟩ := isPage.objects object isOn
    exact ⟨object, listable, isAfter, by simpa [Lists, isNone] using isOn, by simp [place_eq, isNone]⟩
  · obtain ⟨object, listable, isAfter, isFolder⟩ := isPage.prefixes last isPrefix
    exact ⟨object, listable, isAfter, by simpa [Lists, isFolder] using isPrefix,
      by simp [place_eq, isFolder]⟩

theorem place_le_last {first last : S3Object} (lists : request.Lists page first)
    (isMax : page.lastKey = some (request.place last)) :
    request.place first ≤ request.place last :=
  (List.max?_eq_some_iff.mp isMax).2 _ (place_mem lists)

theorem not_prefix_of_object {first last : S3Object} {folder : String}
    (listable : request.Listable first) (isFolder : request.folder first = some folder)
    (isObject : request.folder last = none) : ¬folder.toList <+: last.key.toList := by
  intro inside
  have same := (folderOf_inside isFolder listable.2 inside).2
  rw [show request.folder last = _ from same] at isObject
  cases isObject

theorem le_of_not_after {key last : String} (passed : ¬After start key) (isAfter : After start last) :
    key < last := by
  unfold After at passed
  push Not at passed
  obtain ⟨place, isStart, before⟩ := passed
  exact lt_of_le_of_lt before (isAfter place isStart)

section Passing

variable {last object : S3Object}

/-- A page that ends in an object is passed up to its key. -/
theorem passed_iff_object (isPage : request.PageOf start page) (isLast : request.Listable last)
    (isAfter : After start last.key) (lists : request.Lists page last)
    (isMax : page.lastKey = some (request.place last)) (isObject : request.folder last = none)
    (listable : request.Listable object) :
    object.key ≤ last.key ↔
      ¬After start object.key ∨ After start object.key ∧ request.Lists page object := by
  have isPlace : request.place last = last.key := by simp [place_eq, isObject]
  constructor
  · intro passed
    by_cases isAfterToo : After start object.key
    · refine .inr ⟨isAfterToo, isPage.inOrder object listable isAfterToo last isLast isAfter lists ?_⟩
      rw [isPlace]
      exact (place_le listable.2).trans passed
    · exact .inl isAfterToo
  · rintro (before | ⟨-, listed⟩)
    · exact (le_of_not_after before isAfter).le
    · rcases (place_le_last listed isMax).lt_or_eq with before | same
      · have whole := lt_of_place_lt listable.2 isLast.2 before
        rw [← isPlace]
        exact whole.le
      · cases isFolder : request.folder object with
        | none =>
          rw [isPlace, place_eq, isFolder] at same
          exact same.le
        | some folder =>
          rw [isPlace, place_eq, isFolder, Option.getD_some] at same
          exact absurd (same ▸ List.prefix_refl _) (not_prefix_of_object listable isFolder isObject)

/-- A page that ends in a folder is passed up to the place behind it. -/
theorem passed_iff_folder (isPage : request.PageOf start page) (noneBehind : request.NoneBehind)
    (isLast : request.Listable last) (isAfter : After start last.key)
    (lists : request.Lists page last) (isMax : page.lastKey = some (request.place last))
    {folder : String} (isFolder : request.folder last = some folder)
    (listable : request.Listable object) :
    object.key ≤ behind folder ↔
      ¬After start object.key ∨ After start object.key ∧ request.Lists page object := by
  have isPlace : request.place last = folder := by simp [place_eq, isFolder]
  constructor
  · intro passed
    by_cases isAfterToo : After start object.key
    · refine .inr ⟨isAfterToo, ?_⟩
      by_cases inside : folder.toList <+: object.key.toList
      · have same : request.folder object = some folder :=
          (folderOf_inside isFolder isLast.2 inside).2
        rw [Lists, isFolder] at lists
        rw [Lists, same]
        exact lists
      · apply isPage.inOrder object listable isAfterToo last isLast isAfter lists
        rw [isPlace]
        apply (place_le listable.2).trans
        by_contra after
        exact absurd (noneBehind last isLast folder isFolder object listable (not_le.mp after) inside)
          (not_lt.mpr passed)
    · exact .inl isAfterToo
  · rintro (before | ⟨-, listed⟩)
    · have isBehind := lt_behind isFolder isLast.2 (prefix_of_folderOf isFolder isLast.2)
      exact ((le_of_not_after before isAfter).trans isBehind).le
    · rcases (place_le_last listed isMax).lt_or_eq with before | same
      · have whole := lt_of_place_lt listable.2 isLast.2 before
        rw [show Porthmos.place _ _ last.key = folder from isPlace] at whole
        have isBehind := lt_behind isFolder isLast.2 (List.prefix_refl folder.toList)
        exact (whole.trans isBehind).le
      · have inside : (request.place object).toList <+: object.key.toList := prefix_place listable.2
        rw [same, isPlace] at inside
        exact (lt_behind isFolder isLast.2 inside).le

/-- Where a listing goes on, everything up to the last thing on the page is passed, and nothing
else. -/
theorem passed_iff (isPage : request.PageOf start page) (noneBehind : request.NoneBehind)
    (isLast : request.Listable last) (isAfter : After start last.key)
    (lists : request.Lists page last) (isMax : page.lastKey = some (request.place last))
    (listable : request.Listable object) :
    object.key ≤ page.placeAfter (request.place last) ↔
      ¬After start object.key ∨ After start object.key ∧ request.Lists page object := by
  cases isFolder : request.folder last with
  | none =>
    have isPlace : request.place last = last.key := by simp [place_eq, isFolder]
    have isNew : last.key ∉ page.prefixes := by
      intro isPrefix
      obtain ⟨first, isFirst, _, isSame⟩ := isPage.prefixes last.key isPrefix
      exact not_prefix_of_object isFirst isSame isFolder (List.prefix_refl _)
    rw [ListingPage.placeAfter, isPlace, if_neg isNew]
    exact passed_iff_object isPage isLast isAfter lists isMax isFolder listable
  | some folder =>
    have isPlace : request.place last = folder := by simp [place_eq, isFolder]
    have isOld : folder ∈ page.prefixes := by simpa [Lists, isFolder] using lists
    rw [ListingPage.placeAfter, isPlace, if_pos isOld]
    exact passed_iff_folder isPage noneBehind isLast isAfter lists isMax isFolder listable

end Passing

/-! ### The whole listing -/

/-- Where a request starts. -/
def startOf : Option Cursor → Option String
  | some (.startAfter key) => some key
  | _ => none

/-- Every request is answered with a page of some size. -/
def Serves (request : ListingRequest)
    (ask : Nat → Option Cursor → Except ProtocolError ListingPage) : Prop :=
  ∀ number cursor, ∃ page, ask number cursor = .ok page ∧ request.PageOf (startOf cursor) page

/-- With enough fuel the listing is complete. -/
def ListsAll (request : ListingRequest)
    (ask : Nat → Option Cursor → Except ProtocolError ListingPage) : Prop :=
  ∃ enough, ∀ fuel ≥ enough, ∃ all, listing ask fuel = .ok all ∧ request.Complete all

/-- The objects that are beyond a start. -/
def beyond (request : ListingRequest) (start : Option String) : Finset S3Object :=
  request.stored.toFinset.filter fun object => request.Listable object ∧ After start object.key

theorem mem_beyond {object : S3Object} :
    object ∈ request.beyond start ↔ request.Listable object ∧ After start object.key := by
  simp only [beyond, Finset.mem_filter, List.mem_toFinset]
  exact ⟨fun isIn => isIn.2, fun isIn => ⟨isIn.1.1, isIn⟩⟩

section Loop

variable {ask : Nat → Option Cursor → Except ProtocolError ListingPage}

theorem listingLoop_complete (serves : request.Serves ask) (noneBehind : request.NoneBehind)
    {fuel number : Nat} {cursor : Option Cursor} {all : S3Listing}
    (told : request.ToldOf (fun key => ¬After (startOf cursor) key) all)
    (enough : (request.beyond (startOf cursor)).card < fuel) :
    ∃ result, listingLoop ask fuel number cursor all = .ok result ∧ request.Complete result := by
  induction fuel generalizing number cursor all with
  | zero => omega
  | succ fuel ih =>
    obtain ⟨page, isAnswer, isPage⟩ := serves number cursor
    cases isPart : page.truncated with
    | false =>
      refine ⟨addPage all page, ?_, told.complete isPage isPart⟩
      simp [listingLoop, isAnswer, ListingPage.cursor, isPart, Bind.bind, Except.bind]
    | true =>
      obtain ⟨last, isLast, isAfter, lists, isMax⟩ := exists_last isPage isPart
      have passed (object : S3Object) (listable : request.Listable object) :=
        passed_iff isPage noneBehind isLast isAfter lists isMax listable
      have isNext : page.nextCursor =
          some (.startAfter (page.placeAfter (request.place last))) := by
        simp [ListingPage.nextCursor, isPage.noToken, isMax]
      generalize page.placeAfter (request.place last) = place at passed isNext
      have lastPassed : last.key ≤ place := (passed last isLast).mpr (.inr ⟨isAfter, lists⟩)
      have isNew : cursor ≠ some (.startAfter place) := by
        rintro rfl
        exact absurd lastPassed (not_le.mpr (isAfter place rfl))
      have goesOn : page.cursor cursor = .ok (some (.startAfter place)) := by
        simp [ListingPage.cursor, isPart, isNext, isNew]
      have step : listingLoop ask (fuel + 1) number cursor all = listingLoop ask fuel (number + 1)
          (some (.startAfter place)) (addPage all page) := by
        simp [listingLoop, isAnswer, goesOn, Bind.bind, Except.bind]
      have passedIff (key : String) : ¬After (some place) key ↔ key ≤ place := by
        simp only [After, Option.mem_some_iff, forall_eq', not_lt]
      rw [step]
      apply ih
      · apply told.addPage isPage
        intro object listable
        rw [startOf, passedIff]
        exact passed object listable
      · have fewer : request.beyond (some place) ⊂ request.beyond (startOf cursor) := by
          rw [Finset.ssubset_iff_of_subset]
          · refine ⟨last, mem_beyond.mpr ⟨isLast, isAfter⟩, fun isIn => ?_⟩
            exact (passedIff last.key).mpr lastPassed (mem_beyond.mp isIn).2
          · intro object isIn
            obtain ⟨listable, isBeyond⟩ := mem_beyond.mp isIn
            refine mem_beyond.mpr ⟨listable, ?_⟩
            by_contra before
            exact (passedIff object.key).mpr ((passed object listable).mpr (.inl before)) isBeyond
        have smaller := Finset.card_lt_card fewer
        rw [startOf]
        omega

theorem listsAll_of_noneBehind (serves : request.Serves ask) (noneBehind : request.NoneBehind) :
    request.ListsAll ask := by
  refine ⟨(request.beyond none).card + 1, fun fuel enough => ?_⟩
  have told : request.ToldOf (fun key => ¬After none key) ⟨[], []⟩ := by
    constructor <;> simp [After]
  exact listingLoop_complete serves noneBehind told enough

end Loop

/-! ### A server that stops at a folder -/

/-- Something that is shown on a page with a bound. -/
def Shown (request : ListingRequest) (start bound : Option String) (object : S3Object) : Prop :=
  request.Listable object ∧ After start object.key ∧ ∀ last ∈ bound, request.place object ≤ last

instance (start bound : Option String) (object : S3Object) :
    Decidable (request.Shown start bound object) := inferInstanceAs (Decidable (_ ∧ _ ∧ _))

/-- The page of everything after a start that is listed up to a bound. -/
def pageFrom (request : ListingRequest) (start bound : Option String) : ListingPage where
  objects := request.stored.dedup.filter fun object =>
    request.Shown start bound object ∧ request.folder object = none
  prefixes := ((request.stored.filter fun object =>
    request.Shown start bound object).filterMap request.folder).dedup
  next := none
  truncated := request.stored.any fun object =>
    request.Listable object ∧ After start object.key ∧ ¬request.Shown start bound object

theorem lists_pageFrom {bound : Option String} {object : S3Object}
    (shown : request.Shown start bound object) :
    request.Lists (request.pageFrom start bound) object := by
  unfold Lists
  have isStored := shown.1.1
  cases isFolder : request.folder object with
  | none => simp [pageFrom, shown, isFolder, isStored]
  | some folder =>
    simp only [pageFrom, List.mem_dedup, List.mem_filterMap, List.mem_filter, decide_eq_true_eq]
    exact ⟨object, ⟨isStored, shown⟩, isFolder⟩

theorem exists_shown {bound : Option String} {object : S3Object}
    (lists : request.Lists (request.pageFrom start bound) object) :
    ∃ other, request.Shown start bound other ∧ request.folder other = request.folder object ∧
      request.place other = request.place object := by
  unfold Lists at lists
  cases isFolder : request.folder object with
  | none =>
    rw [isFolder] at lists
    simp only [pageFrom, List.mem_filter, decide_eq_true_eq] at lists
    exact ⟨object, lists.2.1, isFolder, rfl⟩
  | some folder =>
    rw [isFolder] at lists
    simp only [pageFrom, List.mem_dedup, List.mem_filterMap, List.mem_filter,
      decide_eq_true_eq] at lists
    obtain ⟨other, ⟨_, shown⟩, isSame⟩ := lists
    exact ⟨other, shown, isSame, by simp [place_eq, isFolder, isSame]⟩

theorem pageOf_pageFrom {bound : Option String} (some : ∀ last ∈ bound, ∃ object,
    request.Shown start bound object) : request.PageOf start (request.pageFrom start bound) where
  noToken := rfl
  objects := by
    intro object isOn
    simp only [pageFrom, List.mem_filter, decide_eq_true_eq] at isOn
    exact ⟨isOn.2.1.1, isOn.2.1.2.1, isOn.2.2⟩
  objectsOnce := (List.nodup_dedup _).filter _
  prefixes := by
    intro folder isOn
    simp only [pageFrom, List.mem_dedup, List.mem_filterMap, List.mem_filter,
      decide_eq_true_eq] at isOn
    obtain ⟨object, ⟨_, shown⟩, isFolder⟩ := isOn
    exact ⟨object, shown.1, shown.2.1, isFolder⟩
  prefixesOnce := List.nodup_dedup _
  inOrder := by
    intro first isFirst isAfter second _ _ lists before
    obtain ⟨other, shown, _, same⟩ := exists_shown lists
    apply lists_pageFrom
    refine ⟨isFirst, isAfter, fun last isBound => ?_⟩
    exact before.trans (same ▸ shown.2.2 last isBound)
  whole := by
    intro ended object listable isAfter
    apply lists_pageFrom
    simp only [pageFrom, List.any_eq_false, decide_eq_true_eq, not_and, not_not] at ended
    exact ended object listable.1 listable isAfter
  part := by
    intro isPart
    simp only [pageFrom, List.any_eq_true, decide_eq_true_eq] at isPart
    obtain ⟨object, _, listable, isAfter, notShown⟩ := isPart
    constructor
    · have isBound : bound ≠ none := by
        rintro rfl
        exact notShown ⟨listable, isAfter, by simp⟩
      obtain ⟨last, rfl⟩ := Option.ne_none_iff_exists'.mp isBound
      obtain ⟨first, shown⟩ := some last rfl
      have lists := place_mem (lists_pageFrom shown)
      rw [← not_and_or]
      rintro ⟨noObject, noPrefix⟩
      simp [noObject, noPrefix] at lists
    · refine ⟨object, listable, isAfter, fun lists => ?_⟩
      obtain ⟨other, shown, _, same⟩ := exists_shown lists
      exact notShown ⟨listable, isAfter, fun last isLast => same ▸ shown.2.2 last isLast⟩

/-- A server whose first page ends in a folder, and whose second one is the last. -/
def stopAt (request : ListingRequest) (folder : String) (number : Nat) (cursor : Option Cursor) :
    Except ProtocolError ListingPage :=
  .ok (request.pageFrom (startOf cursor) (if number = 0 ∧ cursor = none then some folder else none))

section Hidden

variable {first object : S3Object} {folder : String}

theorem serves_stopAt (listable : request.Listable first)
    (isFolder : request.folder first = some folder) : request.Serves (request.stopAt folder) := by
  intro number cursor
  refine ⟨_, rfl, pageOf_pageFrom ?_⟩
  split_ifs with isFirst
  · obtain ⟨-, rfl⟩ := isFirst
    rintro last ⟨⟩
    exact ⟨first, listable, by simp [After, startOf], by simp [place_eq, isFolder]⟩
  · rintro last ⟨⟩

theorem place_gt (isFirst : request.Listable first) (isFolder : request.folder first = some folder)
    (listable : request.Listable object) (after : folder < object.key)
    (apart : ¬folder.toList <+: object.key.toList) : folder < request.place object := by
  have isPlace : request.place first = folder := by simp [place_eq, isFolder]
  by_contra notAfter
  rcases (not_lt.mp notAfter).lt_or_eq with before | same
  · rw [← isPlace] at before
    have whole := lt_of_place_lt listable.2 isFirst.2 before
    rw [show Porthmos.place _ _ first.key = folder from isPlace] at whole
    exact lt_asymm after whole
  · have inside : (request.place object).toList <+: object.key.toList := prefix_place listable.2
    rw [same] at inside
    exact apart inside

/-- A key before the place behind a folder, and after the folder, is beyond no start there. -/
theorem key_le_behind (isFirst : request.Listable first)
    (isFolder : request.folder first = some folder) (listable : request.Listable object)
    (after : folder < request.place object) (hidden : object.key ≤ behind folder) {other : S3Object}
    (listableToo : request.Listable other) (sameFolder : request.folder other = request.folder object)
    (samePlace : request.place other = request.place object) : other.key ≤ behind folder := by
  cases isSecond : request.folder object with
  | none =>
    rw [place_eq, place_eq, sameFolder, isSecond] at samePlace
    rw [show other.key = object.key from samePlace]
    exact hidden
  | some second =>
    have isPlace : request.place object = second := by simp [place_eq, isSecond]
    rw [isPlace] at after
    have apart := not_prefix_behind isFolder isFirst.2 isSecond listable.2 after
    have before : second ≤ behind folder := by
      apply le_trans _ hidden
      rw [← isPlace]
      exact place_le listable.2
    have notSame : second ≠ behind folder := by
      rintro rfl
      exact apart (List.prefix_refl _)
    have isLess := lt_of_le_of_ne before notSame
    obtain ⟨rest, isText⟩ := prefix_of_folderOf (sameFolder.trans isSecond) listableToo.2
    rw [String.lt_iff_toList_lt] at isLess
    apply le_of_lt
    rw [String.lt_iff_toList_lt, ← isText]
    exact KeyOrder.append_lt isLess apart rest

/-- The first page of that server ends in the folder. -/
theorem nextCursor_pageFrom (isFirst : request.Listable first)
    (isFolder : request.folder first = some folder) :
    (request.pageFrom none (some folder)).nextCursor = some (.startAfter (behind folder)) := by
  have isPlace : request.place first = folder := by simp [place_eq, isFolder]
  have shown : request.Shown none (some folder) first :=
    ⟨isFirst, by simp [After], by simp [isPlace]⟩
  have lists := lists_pageFrom shown
  have isOn : folder ∈ (request.pageFrom none (some folder)).prefixes := by
    simpa [Lists, isFolder] using lists
  have isLast : (request.pageFrom none (some folder)).lastKey = some folder := by
    apply List.max?_eq_some_iff.mpr
    refine ⟨List.mem_append_right _ isOn, fun key isKey => ?_⟩
    rcases List.mem_append.mp isKey with isObject | isPrefix
    · obtain ⟨object, isOnPage, rfl⟩ := List.mem_map.mp isObject
      simp only [pageFrom, List.mem_filter, decide_eq_true_eq] at isOnPage
      have isKey : request.place object = object.key := by simp [place_eq, isOnPage.2.2]
      exact isKey ▸ isOnPage.2.1.2.2 folder rfl
    · simp only [pageFrom, List.mem_dedup, List.mem_filterMap, List.mem_filter,
        decide_eq_true_eq] at isPrefix
      obtain ⟨object, ⟨_, isShown⟩, isFolder⟩ := isPrefix
      have isKey : request.place object = key := by simp [place_eq, isFolder]
      exact isKey ▸ isShown.2.2 folder rfl
  have noToken : (request.pageFrom none (some folder)).next = none := rfl
  simp only [ListingPage.nextCursor, isLast, noToken, ListingPage.placeAfter, if_pos isOn, behind]

/-- What that server tells of in all. -/
theorem listing_stopAt (isFirst : request.Listable first)
    (isFolder : request.folder first = some folder) {object : S3Object}
    (listable : request.Listable object) (after : folder < request.place object) {fuel : Nat}
    (enough : 2 ≤ fuel) :
    listing (request.stopAt folder) fuel =
      .ok (addPage (addPage ⟨[], []⟩ (request.pageFrom none (some folder)))
        (request.pageFrom (some (behind folder)) none)) := by
  obtain ⟨fuel, rfl⟩ := Nat.exists_eq_add_of_le' enough
  have isPart : (request.pageFrom none (some folder)).truncated = true := by
    simp only [pageFrom, List.any_eq_true, decide_eq_true_eq]
    refine ⟨object, listable.1, listable, by simp [After], fun shown => ?_⟩
    exact absurd (shown.2.2 folder rfl) (not_le.mpr after)
  have ended : (request.pageFrom (some (behind folder)) none).truncated = false := by
    simp only [pageFrom, List.any_eq_false, decide_eq_true_eq, not_and, not_not]
    intro other _ isListable isAfter
    exact ⟨isListable, isAfter, by simp⟩
  have goesOn := nextCursor_pageFrom isFirst isFolder
  have first : request.stopAt folder 0 none = .ok (request.pageFrom none (some folder)) := by
    simp [stopAt, startOf]
  have second : request.stopAt folder 1 (some (.startAfter (behind folder))) =
      .ok (request.pageFrom (some (behind folder)) none) := by
    simp [stopAt, startOf]
  simp [listing, listingLoop, first, second, ListingPage.cursor, isPart, goesOn, ended, Bind.bind,
    Except.bind]

/-- What is at or before the place behind a folder is never listed. -/
theorem not_listsAll (isFirst : request.Listable first)
    (isFolder : request.folder first = some folder) (listable : request.Listable object)
    (after : folder < object.key) (apart : ¬folder.toList <+: object.key.toList)
    (hidden : object.key ≤ behind folder) : ¬request.ListsAll (request.stopAt folder) := by
  rintro ⟨enough, lists⟩
  have isAfter := place_gt isFirst isFolder listable after apart
  obtain ⟨all, isResult, complete⟩ := lists (max enough 2) (le_max_left ..)
  rw [listing_stopAt isFirst isFolder listable isAfter (le_max_right ..), Except.ok.injEq]
    at isResult
  subst isResult
  -- on the first page stands only what is listed up to the folder, on the second what is behind it
  have notFirst : ¬request.Lists (request.pageFrom none (some folder)) object := by
    intro onPage
    obtain ⟨other, shown, -, same⟩ := exists_shown onPage
    exact absurd (shown.2.2 folder rfl) (not_le.mpr (same ▸ isAfter))
  have notSecond : ¬request.Lists (request.pageFrom (some (behind folder)) none) object := by
    intro onPage
    obtain ⟨other, shown, sameFolder, samePlace⟩ := exists_shown onPage
    have before := key_le_behind isFirst isFolder listable isAfter hidden shown.1 sameFolder samePlace
    exact absurd (shown.2.1 _ rfl) (not_lt.mpr before)
  unfold Lists at notFirst notSecond
  cases isSecond : request.folder object with
  | none =>
    rw [isSecond] at notFirst notSecond
    have listed := (complete.objects object).mpr ⟨listable, isSecond⟩
    simp only [addPage, List.nil_append, List.mem_append] at listed
    exact listed.elim notFirst notSecond
  | some second =>
    rw [isSecond] at notFirst notSecond
    have listed := (complete.prefixes second).mpr ⟨object, listable, isSecond⟩
    rw [addPage, addPage, mem_addPrefixes, mem_addPrefixes] at listed
    rcases listed with (isNil | onFirst) | onSecond
    · simp at isNil
    · exact notFirst onFirst
    · exact notSecond onSecond

end Hidden

/-- A listing is complete with every server and all sizes of pages if no key is at or before the
place behind a folder before it, and only then. -/
theorem listsAll_iff (request : ListingRequest) :
    (∀ ask, request.Serves ask → request.ListsAll ask) ↔ request.NoneBehind := by
  constructor
  · intro listsAll first isFirst folder isFolder object listable after apart
    by_contra hidden
    exact not_listsAll isFirst isFolder listable after apart (not_lt.mp hidden)
      (listsAll _ (serves_stopAt isFirst isFolder))
  · intro noneBehind ask serves
    exact listsAll_of_noneBehind serves noneBehind

/-- Two requests for a listing that hides something: `a0` is behind the folder `a/`, and what is
in a folder without a name comes before its siblings. -/
def hidesZero : ListingRequest := ⟨[⟨"a/x", 1, none⟩, ⟨"a0", 1, none⟩], "", true⟩

def hidesSibling : ListingRequest := ⟨[⟨"a//x", 1, none⟩, ⟨"a/b", 1, none⟩], "a/", true⟩

theorem listing_hides :
    (¬∀ ask, hidesZero.Serves ask → hidesZero.ListsAll ask) ∧
      ¬∀ ask, hidesSibling.Serves ask → hidesSibling.ListsAll ask := by
  constructor
  · intro listsAll
    have isFirst : hidesZero.Listable ⟨"a/x", 1, none⟩ := by decide
    have isFolder : hidesZero.folder ⟨"a/x", 1, none⟩ = some "a/" := by decide
    have listable : hidesZero.Listable ⟨"a0", 1, none⟩ := by decide
    have hides := not_listsAll isFirst isFolder listable (by decide) (by decide)
      (by decide)
    exact hides (listsAll _ (serves_stopAt isFirst isFolder))
  · intro listsAll
    have isFirst : hidesSibling.Listable ⟨"a//x", 1, none⟩ := by decide
    have isFolder : hidesSibling.folder ⟨"a//x", 1, none⟩ = some "a//" := by decide
    have listable : hidesSibling.Listable ⟨"a/b", 1, none⟩ := by decide
    have hides := not_listsAll isFirst isFolder listable (by decide) (by decide)
      (by decide)
    exact hides (listsAll _ (serves_stopAt isFirst isFolder))

end ListingRequest

end Porthmos
