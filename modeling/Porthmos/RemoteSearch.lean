import Porthmos.FtpFs
import Porthmos.OutputLines
import Porthmos.WalkSearch

/-!
# Searching a server

A search over SFTP has the server run `find` where it can, and reads the folders itself where it
cannot.  The two count levels from different places, match with different patterns, and one of them
reads names from the lines of an output.
-/

namespace Porthmos

/-! ### Lines of an output -/

namespace OutputLines

/-- What a program prints that ends each text with a line feed. -/
def printed (texts : List String) : List Char := texts.flatMap fun text => text.toList ++ ['\n']

/-- The lines that `run_find` takes from an output. -/
def readLines (output : List Char) : List String :=
  ((linesFrom [] output).filter fun line => line ≠ []).map String.ofList

/-- A text that is read as it was printed. -/
def IsLine (text : String) : Prop :=
  text ≠ "" ∧ '\n' ∉ text.toList ∧ text.toList.getLast? ≠ some '\r'

instance (text : String) : Decidable (IsLine text) := inferInstanceAs (Decidable (_ ∧ _ ∧ _))

theorem mem_readLines {texts : List String} {line : String} :
    line ∈ readLines (printed texts) ↔ ∃ text ∈ texts, line ∈ readLines (printed [text]) := by
  induction texts with
  | nil => simp [printed, readLines, linesFrom]
  | cons text texts ih =>
    have split : readLines (printed (text :: texts)) =
        readLines (printed [text]) ++ readLines (printed texts) := by
      have isPrinted : printed (text :: texts) = text.toList ++ '\n' :: printed texts := by
        simp [printed]
      have isOne : printed [text] = text.toList ++ ['\n'] := by simp [printed]
      rw [readLines, isPrinted, linesFrom_append, ← isOne, List.filter_append, List.map_append]
      rfl
    rw [split, List.mem_append, ih]
    simp

theorem readLines_of_isLine {text : String} (isLine : IsLine text) :
    readLines (printed [text]) = [text] := by
  obtain ⟨notEmpty, noBreak, noReturn⟩ := isLine
  have isOne : printed [text] = text.toList ++ ['\n'] := by simp [printed]
  have isText : text.toList ≠ [] := by simpa using notEmpty
  rw [readLines, isOne, linesFrom_of_not_mem noBreak, List.nil_append, chomp, if_neg noReturn]
  simp [isText]

end OutputLines

/-! ### A server's files -/

/-- Files and folders that can be read, without links. -/
structure RemoteTree where
  list : String → Option (List (String × Metadata))
  names : ∀ dir items, list dir = some items → ∀ item ∈ items, item.1 ≠ "" ∧ '/' ∉ item.1.toList
  kinds : ∀ dir items, list dir = some items → ∀ item ∈ items,
    item.2.kind = .dir ∧ list (joinRemote dir item.1) ≠ none ∨
      item.2.kind = .file ∧ list (joinRemote dir item.1) = none

/-- What a search takes from the entries of a folder. -/
def remoteItems (dir : String) (entries : List (String × Metadata)) : List DirItem :=
  entries.map fun entry => ⟨entry.1, ⟨joinRemote dir entry.1⟩, entry.2⟩

/-- `search_remote_walk`; no folder that cannot be read makes it fail. -/
def searchRemoteWalk (lowercase : String → String) (query : SearchQuery)
    (readDir : String → Except String (List (String × Metadata))) : List SearchEvent :=
  SearchWalk.loop lowercase query
    (fun dir => (readDir dir.toRemote).map (remoteItems dir.toRemote)) false (.start query)

namespace RemoteTree

variable (tree : RemoteTree)

def readDir (dir : String) : Except String (List (String × Metadata)) :=
  match tree.list dir with
  | some entries => .ok entries
  | none => .error "not a folder"

def items (dir : Path) : Option (List DirItem) :=
  (tree.list dir.text).map (remoteItems dir.text)

theorem listed_readDir :
    SearchWalk.listed (fun dir => (tree.readDir dir.toRemote).map (remoteItems dir.toRemote)) =
      tree.items := by
  funext dir
  simp only [SearchWalk.listed, items, readDir, Path.toRemote]
  cases tree.list dir.text <;> rfl

/-- The last name in a path. -/
def baseName (path : String) : String :=
  match ((path.toList.splitOn '/').filter fun segment => segment ≠ []).getLast? with
  | some segment => String.ofList segment
  | none => "/"

/-- `find`, with the paths that it prints from a path with some name on; `iname` tells whether a
pattern matches a name. -/
def findFrom (iname : String → String → Bool) (pattern : String) :
    Nat → Path → String → List String
  | 0, path, name => if iname pattern name then [path.text] else []
  | levels + 1, path, name =>
    (if iname pattern name then [path.text] else []) ++
      match tree.items path with
      | some items => items.flatMap fun item => findFrom iname pattern levels item.path item.name
      | none => []

/-- `run_find`, where the command succeeds. -/
def runFind (iname : String → String → Bool) (query : SearchQuery) : List String :=
  OutputLines.readLines (OutputLines.printed
    (tree.findFrom iname query.pattern query.maxDepth query.root (baseName query.root.text)))

/-- The paths that a search by reading folders finds. -/
def walked (lowercase : String → String) (query : SearchQuery) : List String :=
  (searchRemoteWalk lowercase query tree.readDir).filterMap fun event =>
    match event with
    | .found entry => some entry.path.text
    | _ => none

variable {tree} {iname : String → String → Bool} {pattern name : String} {levels depth : Nat}
  {start dir : Path} {item : DirItem} {path : String}

/-- An item of a folder that is a number of levels below a path. -/
def ItemAt (tree : RemoteTree) (start : Path) (depth : Nat) (item : DirItem) : Prop :=
  ∃ dir, FolderWalk.Down tree.items DirItem.folder start depth dir ∧
    FolderWalk.Lists tree.items dir item

theorem folder_of_itemAt (isListed : FolderWalk.Lists tree.items dir item) {below : DirItem}
    (isBelow : tree.ItemAt item.path depth below) : item.folder = some item.path := by
  obtain ⟨items, isItems, isIn⟩ := isListed
  obtain ⟨entries, isList, rfl⟩ := Option.map_eq_some_iff.mp isItems
  obtain ⟨entry, isEntry, rfl⟩ := List.mem_map.mp isIn
  rcases tree.kinds dir.text entries isList entry isEntry with ⟨isDir, -⟩ | ⟨-, notListed⟩
  · simp [DirItem.folder, Metadata.isDir, isDir]
  · obtain ⟨deeper, down, isListed⟩ := isBelow
    have isNone : tree.items ⟨joinRemote dir.text entry.1⟩ = none := by simp [items, notListed]
    cases depth with
    | zero =>
      cases down
      obtain ⟨items, isItems, -⟩ := isListed
      rw [isNone] at isItems
      cases isItems
    | succ depth =>
      obtain ⟨_, ⟨items, isItems, -⟩, -⟩ := FolderWalk.down_succ_front.mp down
      rw [isNone] at isItems
      cases isItems

theorem itemAt_succ : tree.ItemAt start (depth + 1) item ↔
    ∃ first, FolderWalk.Lists tree.items start first ∧ tree.ItemAt first.path depth item := by
  constructor
  · rintro ⟨dir, down, isListed⟩
    obtain ⟨first, isFirst, middle, isFolder, rest⟩ := FolderWalk.down_succ_front.mp down
    unfold DirItem.folder at isFolder
    split_ifs at isFolder
    obtain rfl := Option.some_inj.mp isFolder
    exact ⟨first, isFirst, dir, rest, isListed⟩
  · rintro ⟨first, isFirst, isBelow⟩
    have isFolder := folder_of_itemAt isFirst isBelow
    obtain ⟨dir, down, isListed⟩ := isBelow
    exact ⟨dir, FolderWalk.down_succ_front.mpr ⟨first, isFirst, _, isFolder, down⟩, isListed⟩

theorem itemAt_zero : tree.ItemAt start 0 item ↔ FolderWalk.Lists tree.items start item := by
  constructor
  · rintro ⟨dir, ⟨⟩, isListed⟩
    exact isListed
  · intro isListed
    exact ⟨start, .here, isListed⟩

/-- What `find` prints: its root, and what is that many levels below it at most. -/
theorem mem_findFrom : path ∈ tree.findFrom iname pattern levels start name ↔
    iname pattern name = true ∧ path = start.text ∨
      ∃ depth < levels, ∃ item, tree.ItemAt start depth item ∧
        iname pattern item.name = true ∧ path = item.path.text := by
  induction levels generalizing start name with
  | zero => by_cases isMatch : iname pattern name = true <;> simp [findFrom, isMatch]
  | succ levels ih =>
    have isHere : path ∈ (if iname pattern name then [start.text] else []) ↔
        iname pattern name = true ∧ path = start.text := by
      by_cases isMatch : iname pattern name = true <;> simp [isMatch]
    rw [findFrom, List.mem_append, isHere]
    apply or_congr_right
    constructor
    · intro isBelow
      cases isItems : tree.items start with
      | none => simp [isItems] at isBelow
      | some items =>
        rw [isItems] at isBelow
        obtain ⟨item, isIn, isShown⟩ := List.mem_flatMap.mp isBelow
        have isListed : FolderWalk.Lists tree.items start item := ⟨items, isItems, isIn⟩
        rcases ih.mp isShown with ⟨isMatch, rfl⟩ | ⟨depth, isLess, deeper, isAt, rest⟩
        · exact ⟨0, Nat.succ_pos _, item, itemAt_zero.mpr isListed, isMatch, rfl⟩
        · exact ⟨depth + 1, Nat.succ_lt_succ isLess, deeper,
            itemAt_succ.mpr ⟨item, isListed, isAt⟩, rest⟩
    · rintro ⟨depth, isLess, item, isAt, rest⟩
      cases depth with
      | zero =>
        obtain ⟨items, isItems, isIn⟩ := itemAt_zero.mp isAt
        rw [isItems]
        exact List.mem_flatMap.mpr ⟨item, isIn, ih.mpr (.inl rest)⟩
      | succ depth =>
        obtain ⟨first, ⟨items, isItems, isIn⟩, isBelow⟩ := itemAt_succ.mp isAt
        rw [isItems]
        exact List.mem_flatMap.mpr ⟨first, isIn,
          ih.mpr (.inr ⟨depth, Nat.lt_of_succ_lt_succ isLess, item, isBelow, rest⟩)⟩

/-- The search by reading folders has not ended for having found enough. -/
def Untruncated (tree : RemoteTree) (lowercase : String → String) (query : SearchQuery) : Prop :=
  .done false ∈ searchRemoteWalk lowercase query tree.readDir

variable {lowercase : String → String} {query : SearchQuery}

/-- What the search by reading folders finds: what matches in all folders that many levels below the
root at most. -/
theorem mem_walked (untruncated : tree.Untruncated lowercase query) :
    path ∈ tree.walked lowercase query ↔ ∃ depth ≤ query.maxDepth, ∃ item,
      tree.ItemAt query.root depth item ∧ globMatch lowercase query.pattern item.name = true ∧
        path = item.path.text := by
  obtain ⟨truncated, isLoop, complete, -⟩ := SearchWalk.loop_sends lowercase query
    (fun dir => (tree.readDir dir.toRemote).map (remoteItems dir.toRemote)) (.start query) rfl rfl
  have isWalk : searchRemoteWalk lowercase query tree.readDir = _ := isLoop
  have notTruncated : truncated = false := by
    unfold Untruncated at untruncated
    rw [isWalk, List.mem_append, SearchWalk.start, List.nil_append] at untruncated
    rcases untruncated with isFound | isDone
    · obtain ⟨item, -, isDone⟩ := List.mem_map.mp isFound
      cases isDone
    · simpa using isDone
  rw [List.take_of_length_le (complete notTruncated)] at isWalk
  have isFound : path ∈ tree.walked lowercase query ↔ ∃ item ∈ SearchWalk.pending lowercase query
      (fun dir => (tree.readDir dir.toRemote).map (remoteItems dir.toRemote))
        (SearchWalk.start query).stack, path = item.path.text := by
    rw [walked, isWalk]
    simp only [SearchWalk.start, List.nil_append, List.filterMap_append, List.filterMap_map,
      List.mem_append, List.mem_filterMap, Function.comp_apply, Option.some_inj, DirItem.entry]
    constructor
    · rintro (⟨item, isIn, rfl⟩ | ⟨event, isDone, isSome⟩)
      · exact ⟨item, isIn, rfl⟩
      · rw [List.mem_singleton] at isDone
        subst isDone
        cases isSome
    · rintro ⟨item, isIn, rfl⟩
      exact .inl ⟨item, isIn, rfl⟩
  rw [isFound]
  simp only [SearchWalk.mem_pending_start, SearchWalk.Within, listed_readDir]
  constructor
  · rintro ⟨item, ⟨⟨depth, isLess, dir, down, isListed⟩, isMatch⟩, rfl⟩
    exact ⟨depth, isLess, item, ⟨dir, down, isListed⟩, isMatch, rfl⟩
  · rintro ⟨depth, isLess, item, ⟨dir, down, isListed⟩, isMatch, rfl⟩
    exact ⟨item, ⟨⟨depth, isLess, dir, down, isListed⟩, isMatch⟩, rfl⟩

theorem untruncated_of_lt (isRoom : (FolderWalk.visit tree.items DirItem.folder (query.maxDepth + 1)
    query.root).length < query.maxResults) : tree.Untruncated lowercase query := by
  obtain ⟨truncated, isLoop, -, full⟩ := SearchWalk.loop_sends lowercase query
    (fun dir => (tree.readDir dir.toRemote).map (remoteItems dir.toRemote)) (.start query) rfl rfl
  have notTruncated : truncated = false := by
    by_contra isTrue
    have long := full (by simpa using isTrue)
    have short : (SearchWalk.pending lowercase query
        (fun dir => (tree.readDir dir.toRemote).map (remoteItems dir.toRemote))
          (SearchWalk.start query).stack).length ≤ (FolderWalk.visit tree.items DirItem.folder
            (query.maxDepth + 1) query.root).length := by
      rw [SearchWalk.pending, listed_readDir]
      simp only [SearchWalk.start, List.flatMap_cons, List.flatMap_nil, List.append_nil, Nat.sub_zero]
      exact List.length_filter_le ..
    simp only [SearchWalk.start] at long short
    omega
  rw [Untruncated, searchRemoteWalk, isLoop, notTruncated]
  exact List.mem_append_right _ (List.mem_singleton_self _)

/-! ### Where a path lies -/

theorem joinRemote_toList (parent name : String) : (joinRemote parent name).toList =
    if parent.toList.getLast? = some '/' then parent.toList ++ name.toList
    else parent.toList ++ '/' :: name.toList := by
  have isEnd : parent.endsWith "/" = true ↔ parent.toList.getLast? = some '/' := by
    rw [String.endsWith, String.Slice.endsWith_string_iff, String.copy_toSlice,
      List.getLast?_eq_some_iff]
    constructor
    · rintro ⟨above, isText⟩
      exact ⟨above, isText.symm⟩
    · rintro ⟨above, isText⟩
      exact ⟨above, isText.symm⟩
  unfold joinRemote
  by_cases ends : parent.toList.getLast? = some '/'
  · rw [if_pos (isEnd.mpr ends), if_pos ends, String.toList_append]
  · rw [if_neg (mt isEnd.mp ends), if_neg ends, String.toList_append, String.toList_append,
      List.append_assoc]
    rfl

/-- How many slashes the path of something in a folder has. -/
def slashes (dir : String) : Nat :=
  dir.toList.count '/' + if dir.toList.getLast? = some '/' then 0 else 1

section Join

variable {parent : String}

theorem count_joinRemote (plain : '/' ∉ name.toList) :
    (joinRemote parent name).toList.count '/' = slashes parent := by
  have noSlash : name.toList.count '/' = 0 := List.count_eq_zero.mpr plain
  rw [joinRemote_toList, slashes]
  split_ifs
  · rw [List.count_append, noSlash]
  · rw [List.count_append, List.count_cons_self, noSlash]

theorem exists_joinRemote (parent name : String) :
    ∃ above, (joinRemote parent name).toList = above ++ '/' :: name.toList := by
  rw [joinRemote_toList]
  split_ifs with ends
  · obtain ⟨above, isText⟩ := List.getLast?_eq_some_iff.mp ends
    exact ⟨above, by rw [isText, List.append_assoc, List.singleton_append]⟩
  · exact ⟨_, rfl⟩

theorem takeWhile_joinRemote (parent : String) (plain : '/' ∉ name.toList) :
    ((joinRemote parent name).toList.reverse.takeWhile fun char => decide (char ≠ '/')) =
      name.toList.reverse := by
  obtain ⟨above, isText⟩ := exists_joinRemote parent name
  have isName : ∀ char ∈ name.toList.reverse, decide (char ≠ '/') = true := by
    intro char isIn
    have differs : char ≠ '/' := by
      rintro rfl
      exact plain (List.mem_reverse.mp isIn)
    simpa using differs
  rw [isText, List.reverse_append, List.reverse_cons, List.append_assoc,
    List.takeWhile_append_of_pos isName]
  simp

theorem joinRemote_inj {other second : String} (plain : '/' ∉ name.toList)
    (plainToo : '/' ∉ second.toList) (same : joinRemote parent name = joinRemote other second) :
    name = second := by
  have isName := takeWhile_joinRemote parent plain
  rw [same, takeWhile_joinRemote other plainToo, List.reverse_inj] at isName
  exact String.toList_inj.mp isName.symm

theorem getLast?_joinRemote (notEmpty : name ≠ "") (plain : '/' ∉ name.toList) :
    (joinRemote parent name).toList.getLast? ≠ some '/' := by
  intro ends
  obtain ⟨above, isText⟩ := List.getLast?_eq_some_iff.mp ends
  have isName := takeWhile_joinRemote parent plain
  rw [isText] at isName
  simp [notEmpty] at isName

end Join

theorem lists_items (isListed : FolderWalk.Lists tree.items dir item) :
    item.path.text = joinRemote dir.text item.name ∧ item.name ≠ "" ∧ '/' ∉ item.name.toList := by
  obtain ⟨items, isItems, isIn⟩ := isListed
  obtain ⟨entries, isList, rfl⟩ := Option.map_eq_some_iff.mp isItems
  obtain ⟨entry, isEntry, rfl⟩ := List.mem_map.mp isIn
  exact ⟨rfl, tree.names dir.text entries isList entry isEntry⟩

theorem slashes_of_down (down : FolderWalk.Down tree.items DirItem.folder start depth dir) :
    slashes dir.text = slashes start.text + depth := by
  induction down with
  | here => rfl
  | step down isListed isFolder ih =>
    obtain ⟨isPath, notEmpty, plain⟩ := lists_items isListed
    unfold DirItem.folder at isFolder
    split_ifs at isFolder
    obtain rfl := Option.some_inj.mp isFolder
    rw [isPath, slashes, count_joinRemote plain, if_neg (getLast?_joinRemote notEmpty plain), ih,
      Nat.add_assoc]

theorem count_itemAt (isAt : tree.ItemAt start depth item) :
    item.path.text.toList.count '/' = slashes start.text + depth := by
  obtain ⟨dir, down, isListed⟩ := isAt
  obtain ⟨isPath, -, plain⟩ := lists_items isListed
  rw [isPath, count_joinRemote plain, slashes_of_down down]

theorem eq_of_path_eq {deeper : Nat} {second : DirItem} (isAt : tree.ItemAt start depth item)
    (isAtToo : tree.ItemAt start deeper second) (same : item.path.text = second.path.text) :
    depth = deeper ∧ item.name = second.name := by
  have levels := count_itemAt isAt
  rw [same, count_itemAt isAtToo] at levels
  obtain ⟨dir, -, isListed⟩ := isAt
  obtain ⟨other, -, isListedToo⟩ := isAtToo
  obtain ⟨isPath, -, plain⟩ := lists_items isListed
  obtain ⟨isPathToo, -, plainToo⟩ := lists_items isListedToo
  rw [isPath, isPathToo] at same
  exact ⟨by omega, joinRemote_inj plain plainToo same⟩

theorem path_ne_start (isAt : tree.ItemAt start depth item) : item.path.text ≠ start.text := by
  intro same
  have levels := count_itemAt isAt
  rw [same, slashes] at levels
  obtain ⟨dir, -, isListed⟩ := isAt
  obtain ⟨isPath, notEmpty, plain⟩ := lists_items isListed
  rw [same] at isPath
  rw [isPath, if_neg (getLast?_joinRemote notEmpty plain)] at levels
  omega

/-! ### Both searches -/

/-- The search by `find` and the one by reading folders find the same paths. -/
def SameResults (tree : RemoteTree) (lowercase : String → String)
    (iname : String → String → Bool) (query : SearchQuery) : Prop :=
  ∀ path, path ∈ tree.runFind iname query ↔ path ∈ tree.walked lowercase query

/-- The root does not match, nothing matches at the level that only the search by reading folders
comes to, and above it the patterns mean the same and the paths are lines. -/
structure SearchesAgree (tree : RemoteTree) (lowercase : String → String)
    (iname : String → String → Bool) (query : SearchQuery) : Prop where
  root : iname query.pattern (baseName query.root.text) = false
  bottom : ∀ item, tree.ItemAt query.root query.maxDepth item →
    globMatch lowercase query.pattern item.name = false
  names : ∀ depth < query.maxDepth, ∀ item, tree.ItemAt query.root depth item →
    iname query.pattern item.name = globMatch lowercase query.pattern item.name
  lines : ∀ depth < query.maxDepth, ∀ item, tree.ItemAt query.root depth item →
    globMatch lowercase query.pattern item.name = true → OutputLines.IsLine item.path.text

/-- Of each path that is no line, some line is no path of an entry. -/
def NoMimics (tree : RemoteTree) (query : SearchQuery) : Prop :=
  ∀ path, (path = query.root.text ∨
      ∃ depth < query.maxDepth, ∃ item, tree.ItemAt query.root depth item ∧ path = item.path.text) →
    OutputLines.IsLine path ∨ ∃ line ∈ OutputLines.readLines (OutputLines.printed [path]),
      ∀ depth ≤ query.maxDepth, ∀ item, tree.ItemAt query.root depth item → item.path.text ≠ line

theorem sameResults_of_agree (untruncated : tree.Untruncated lowercase query)
    (agree : tree.SearchesAgree lowercase iname query) :
    tree.SameResults lowercase iname query := by
  intro path
  rw [mem_walked untruncated, runFind, OutputLines.mem_readLines]
  constructor
  · rintro ⟨text, isShown, isLine⟩
    rcases mem_findFrom.mp isShown with ⟨isRoot, -⟩ | ⟨depth, isLess, item, isAt, isMatch, rfl⟩
    · rw [agree.root] at isRoot
      cases isRoot
    · rw [agree.names depth isLess item isAt] at isMatch
      rw [OutputLines.readLines_of_isLine (agree.lines depth isLess item isAt isMatch),
        List.mem_singleton] at isLine
      exact ⟨depth, isLess.le, item, isAt, isMatch, isLine⟩
  · rintro ⟨depth, isLevel, item, isAt, isMatch, rfl⟩
    have isLess : depth < query.maxDepth := by
      rcases isLevel.lt_or_eq with isLess | rfl
      · exact isLess
      · rw [agree.bottom item isAt] at isMatch
        cases isMatch
    refine ⟨item.path.text, mem_findFrom.mpr (.inr ⟨depth, isLess, item, isAt, ?_, rfl⟩), ?_⟩
    · rw [agree.names depth isLess item isAt]
      exact isMatch
    · rw [OutputLines.readLines_of_isLine (agree.lines depth isLess item isAt isMatch)]
      exact List.mem_singleton_self _

section Same

variable (untruncated : tree.Untruncated lowercase query) (noMimics : tree.NoMimics query)
  (same : tree.SameResults lowercase iname query)

include untruncated noMimics same

theorem isLine_of_shown (isShown : path ∈ tree.findFrom iname query.pattern query.maxDepth query.root
    (baseName query.root.text)) : OutputLines.IsLine path := by
  have isPath : path = query.root.text ∨ ∃ depth < query.maxDepth, ∃ item,
      tree.ItemAt query.root depth item ∧ path = item.path.text := by
    rcases mem_findFrom.mp isShown with ⟨-, isRoot⟩ | ⟨depth, isLess, item, isAt, -, isItem⟩
    · exact .inl isRoot
    · exact .inr ⟨depth, isLess, item, isAt, isItem⟩
  rcases noMimics path isPath with isLine | ⟨line, isLine, noItem⟩
  · exact isLine
  · have isResult : line ∈ tree.runFind iname query :=
      OutputLines.mem_readLines.mpr ⟨path, isShown, isLine⟩
    obtain ⟨depth, isLevel, item, isAt, -, rfl⟩ := (mem_walked untruncated).mp ((same line).mp isResult)
    exact absurd rfl (noItem depth isLevel item isAt)

theorem mem_findFrom_iff_walked : path ∈ tree.findFrom iname query.pattern query.maxDepth query.root
    (baseName query.root.text) ↔ path ∈ tree.walked lowercase query := by
  rw [← same path, runFind, OutputLines.mem_readLines]
  constructor
  · intro isShown
    refine ⟨path, isShown, ?_⟩
    rw [OutputLines.readLines_of_isLine (isLine_of_shown untruncated noMimics same isShown)]
    exact List.mem_singleton_self _
  · rintro ⟨text, isShown, isLine⟩
    rw [OutputLines.readLines_of_isLine (isLine_of_shown untruncated noMimics same isShown),
      List.mem_singleton] at isLine
    rwa [isLine]

theorem agree_of_sameResults : tree.SearchesAgree lowercase iname query := by
  have shown (path : String) : path ∈ tree.findFrom iname query.pattern query.maxDepth query.root
      (baseName query.root.text) ↔ path ∈ tree.walked lowercase query :=
    mem_findFrom_iff_walked untruncated noMimics same
  -- what matches somewhere is found there, by either search
  have found {depth : Nat} {item : DirItem} (isLevel : depth ≤ query.maxDepth)
      (isAt : tree.ItemAt query.root depth item)
      (isMatch : globMatch lowercase query.pattern item.name = true) :
      item.path.text ∈ tree.findFrom iname query.pattern query.maxDepth query.root
        (baseName query.root.text) :=
    (shown _).mpr ((mem_walked untruncated).mpr ⟨depth, isLevel, item, isAt, isMatch, rfl⟩)
  have isShown {depth : Nat} {item : DirItem} (isLevel : depth ≤ query.maxDepth)
      (isAt : tree.ItemAt query.root depth item)
      (isMatch : globMatch lowercase query.pattern item.name = true) :
      depth < query.maxDepth ∧ iname query.pattern item.name = true := by
    rcases mem_findFrom.mp (found isLevel isAt isMatch) with
      ⟨-, isRoot⟩ | ⟨deeper, isLess, second, isAtToo, isMatchToo, isPath⟩
    · exact absurd isRoot (path_ne_start isAt)
    · obtain ⟨rfl, sameName⟩ := eq_of_path_eq isAt isAtToo isPath
      exact ⟨isLess, sameName ▸ isMatchToo⟩
  constructor
  · rw [Bool.eq_false_iff]
    intro isRoot
    have isWalked := (shown _).mp (mem_findFrom.mpr (.inl ⟨isRoot, rfl⟩))
    obtain ⟨depth, -, item, isAt, -, isPath⟩ := (mem_walked untruncated).mp isWalked
    exact path_ne_start isAt isPath.symm
  · intro item isAt
    rw [Bool.eq_false_iff]
    intro isMatch
    exact lt_irrefl _ (isShown le_rfl isAt isMatch).1
  · intro depth isLess item isAt
    rw [Bool.eq_iff_iff]
    constructor
    · intro isMatch
      have isWalked := (shown _).mp (mem_findFrom.mpr (.inr ⟨depth, isLess, item, isAt, isMatch, rfl⟩))
      obtain ⟨deeper, -, second, isAtToo, isMatchToo, isPath⟩ := (mem_walked untruncated).mp isWalked
      exact (eq_of_path_eq isAt isAtToo isPath).2 ▸ isMatchToo
    · intro isMatch
      exact (isShown isLess.le isAt isMatch).2
  · intro depth isLess item isAt isMatch
    exact isLine_of_shown untruncated noMimics same (found isLess.le isAt isMatch)

end Same

/-- The searches find the same where they agree; and only there, unless the pieces of a path that is
no line happen to be paths themselves. -/
theorem sameResults_iff (tree : RemoteTree) (lowercase : String → String)
    (iname : String → String → Bool) (query : SearchQuery)
    (untruncated : tree.Untruncated lowercase query) :
    (tree.SearchesAgree lowercase iname query → tree.SameResults lowercase iname query) ∧
      (tree.NoMimics query →
        (tree.SameResults lowercase iname query ↔ tree.SearchesAgree lowercase iname query)) :=
  ⟨sameResults_of_agree untruncated, fun noMimics =>
    ⟨agree_of_sameResults untruncated noMimics, sameResults_of_agree untruncated⟩⟩

/-- A folder with a file, and a folder in it with another one. -/
def sampleList (dir : String) : Option (List (String × Metadata)) :=
  if dir = "/r" then some [("a.log", ⟨1, none, .file⟩), ("d", ⟨0, none, .dir⟩)]
  else if dir = "/r/d" then some [("b.log", ⟨2, none, .file⟩)]
  else none

theorem sampleList_eq_some {dir : String} {entries : List (String × Metadata)}
    (isList : sampleList dir = some entries) :
    dir = "/r" ∧ entries = [("a.log", ⟨1, none, .file⟩), ("d", ⟨0, none, .dir⟩)] ∨
      dir = "/r/d" ∧ entries = [("b.log", ⟨2, none, .file⟩)] := by
  unfold sampleList at isList
  split_ifs at isList with isTop isInner
  · exact .inl ⟨isTop, (Option.some_inj.mp isList).symm⟩
  · exact .inr ⟨isInner, (Option.some_inj.mp isList).symm⟩

def sampleTree : RemoteTree where
  list := sampleList
  names := by
    intro dir entries isList
    rcases sampleList_eq_some isList with ⟨rfl, rfl⟩ | ⟨rfl, rfl⟩ <;> decide
  kinds := by
    intro dir entries isList
    rcases sampleList_eq_some isList with ⟨rfl, rfl⟩ | ⟨rfl, rfl⟩ <;> decide +kernel

/-- Logs at the top level and the next one. -/
def sampleQuery : SearchQuery := ⟨⟨"/r"⟩, "*.log", 1, 1000⟩

theorem untruncated_sample : sampleTree.Untruncated id sampleQuery :=
  untruncated_of_lt (by decide +kernel)

theorem lists_top {item : DirItem} (isAt : sampleTree.ItemAt ⟨"/r"⟩ 0 item) :
    item.path.text = "/r/a.log" ∨ item.path.text = "/r/d" := by
  obtain ⟨items, isItems, isIn⟩ := itemAt_zero.mp isAt
  have isTop : sampleTree.items ⟨"/r"⟩ = some [⟨"a.log", ⟨"/r/a.log"⟩, ⟨1, none, .file⟩⟩,
      ⟨"d", ⟨"/r/d"⟩, ⟨0, none, .dir⟩⟩] := by decide +kernel
  rw [isTop, Option.some_inj] at isItems
  subst isItems
  simp only [List.mem_cons, List.not_mem_nil, or_false] at isIn
  rcases isIn with rfl | rfl
  · exact .inl rfl
  · exact .inr rfl

theorem noMimics_sample : sampleTree.NoMimics sampleQuery := by
  intro path isPath
  left
  rcases isPath with rfl | ⟨depth, isLess, item, isAt, rfl⟩
  · decide
  · obtain rfl : depth = 0 := Nat.lt_one_iff.mp isLess
    rcases lists_top isAt with isFile | isFolder
    · rw [isFile]
      decide
    · rw [isFolder]
      decide

theorem itemAt_bottom : sampleTree.ItemAt ⟨"/r"⟩ 1 ⟨"b.log", ⟨"/r/d/b.log"⟩, ⟨2, none, .file⟩⟩ := by
  apply itemAt_succ.mpr
  exact ⟨⟨"d", ⟨"/r/d"⟩, ⟨0, none, .dir⟩⟩, ⟨_, rfl, by decide +kernel⟩,
    itemAt_zero.mpr ⟨_, rfl, by decide +kernel⟩⟩

theorem globMatch_log : globMatch id "*.log" "b.log" = true := by
  have isPattern : (id "*.log" : String).toList = ['*', '.', 'l', 'o', 'g'] := by decide
  have isName : (id "b.log" : String).toList = ['b', '.', 'l', 'o', 'g'] := by decide
  rw [globMatch, isPattern, isName, Glob.matchFrom_iff (.inr (by decide))]
  exact Glob.matches_star.mpr ⟨1, Glob.matches_self _⟩

theorem sameResults_iff_sample : sampleTree.Untruncated id sampleQuery ∧
    (sampleTree.SearchesAgree id (fun _ name => name.endsWith ".log") sampleQuery →
        sampleTree.SameResults id (fun _ name => name.endsWith ".log") sampleQuery) ∧
      (sampleTree.NoMimics sampleQuery →
        (sampleTree.SameResults id (fun _ name => name.endsWith ".log") sampleQuery ↔
          sampleTree.SearchesAgree id (fun _ name => name.endsWith ".log") sampleQuery)) :=
  ⟨untruncated_sample, sameResults_iff sampleTree id _ sampleQuery untruncated_sample⟩

/-- `find` goes down one level less. -/
theorem not_sameResults_sample : sampleTree.Untruncated id sampleQuery ∧
    ¬∃ iname, sampleTree.SameResults id iname sampleQuery := by
  refine ⟨untruncated_sample, ?_⟩
  rintro ⟨iname, same⟩
  have agree := agree_of_sameResults untruncated_sample noMimics_sample same
  have noMatch := agree.bottom _ itemAt_bottom
  rw [show sampleQuery.pattern = "*.log" from rfl, globMatch_log] at noMatch
  cases noMatch

end RemoteTree

end Porthmos
