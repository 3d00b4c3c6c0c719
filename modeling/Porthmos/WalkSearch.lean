import Porthmos.FolderWalks
import Porthmos.Globs

/-!
# Searching by reading folders

A search reads the folders from its root down, keeps those still to read on a stack, and ends when it
has found enough.  A folder that cannot be read is passed over, unless it is the root.
-/

namespace Porthmos

/-- `SearchQuery` -/
structure SearchQuery where
  root : Path
  pattern : String
  maxDepth : Nat
  maxResults : Nat
  deriving DecidableEq, Repr

/-- `SearchEvent` -/
inductive SearchEvent
  | found (entry : Entry)
  | done (truncated : Bool)
  | failed (message : String)
  deriving DecidableEq, Repr

namespace DirItem

def entry (item : DirItem) : Entry :=
  ⟨item.name, item.path, item.metadata.isDir, item.metadata.size⟩

/-- The folder that an item is, if it is one. -/
def folder (item : DirItem) : Option Path := if item.metadata.isDir then some item.path else none

end DirItem

/-- Where a search stands. -/
structure SearchWalk where
  stack : List (Path × Nat)
  found : Nat
  truncated : Bool
  events : List SearchEvent
  deriving DecidableEq, Repr

namespace SearchWalk

variable (lowercase : String → String) (query : SearchQuery)

def start : SearchWalk := ⟨[(query.root, 0)], 0, false, []⟩

def isHit (item : DirItem) : Bool := globMatch lowercase query.pattern item.name

def look (walk : SearchWalk) (item : DirItem) : SearchWalk :=
  if isHit lowercase query item then
    { walk with found := walk.found + 1, events := walk.events ++ [.found item.entry] }
  else walk

def enter (walk : SearchWalk) (depth : Nat) (item : DirItem) : SearchWalk :=
  match item.folder with
  | some path => { walk with stack := (path, depth + 1) :: walk.stack }
  | none => walk

/-- The loop over the items of a folder. -/
def scan (depth : Nat) : List DirItem → SearchWalk → SearchWalk
  | [], walk => walk
  | item :: items, walk =>
    if query.maxResults ≤ walk.found then { walk with truncated := true }
    else scan depth items ((walk.look lowercase query item).enter depth item)

variable (readDir : Path → Except String (List DirItem))

/-- What is seen of a folder. -/
def listed (dir : Path) : Option (List DirItem) := (readDir dir).toOption

/-- How many steps the folders on a stack are good for. -/
def stackCost (stack : List (Path × Nat)) : Nat :=
  (stack.map fun top =>
    FolderWalk.cost (listed readDir) DirItem.folder (query.maxDepth + 1 - top.2) top.1 + 1).sum

theorem stackCost_scan (depth : Nat) (items : List DirItem) (walk : SearchWalk) :
    stackCost query readDir (walk.scan lowercase query depth items).stack ≤
      ((items.filterMap DirItem.folder).map fun below =>
        FolderWalk.cost (listed readDir) DirItem.folder (query.maxDepth - depth) below + 1).sum +
        stackCost query readDir walk.stack := by
  induction items generalizing walk with
  | nil => simp [scan]
  | cons item items ih =>
    unfold scan
    split_ifs with isFull
    · exact Nat.le_add_left ..
    · have further := ih ((walk.look lowercase query item).enter depth item)
      have sameStack : (walk.look lowercase query item).stack = walk.stack := by
        unfold look
        split_ifs <;> rfl
      cases isFolder : item.folder with
      | none =>
        have isEntered : ((walk.look lowercase query item).enter depth item).stack =
            walk.stack := by simp [enter, isFolder, sameStack]
        rw [isEntered] at further
        simpa [isFolder] using further
      | some path =>
        have isEntered : ((walk.look lowercase query item).enter depth item).stack =
            (path, depth + 1) :: walk.stack := by simp [enter, isFolder, sameStack]
        have isLevel : query.maxDepth + 1 - (depth + 1) = query.maxDepth - depth := by omega
        rw [isEntered] at further
        simp only [stackCost, List.map_cons, List.sum_cons, isLevel] at further ⊢
        rw [List.filterMap_cons_some isFolder, List.map_cons, List.sum_cons]
        omega

/-- The loop of `walk_search`; only a root that cannot be read fails. -/
def loop (isRoot : Bool) (walk : SearchWalk) : List SearchEvent :=
  match stacked : walk.stack with
  | [] => walk.events ++ [.done walk.truncated]
  | (dir, depth) :: stack =>
    if query.maxDepth < depth then loop isRoot { walk with stack := stack }
    else
      match read : readDir dir with
      | .error err =>
        if isRoot then walk.events ++ [.failed err] else loop isRoot { walk with stack := stack }
      | .ok items =>
        let scanned := scan lowercase query depth items { walk with stack := stack }
        if query.maxResults ≤ scanned.found then scanned.events ++ [.done true]
        else loop false scanned
termination_by stackCost query readDir walk.stack
decreasing_by
  · simp [stackCost, stacked]
  · simp [stackCost, stacked]
  · have isLevel : query.maxDepth + 1 - depth = (query.maxDepth - depth) + 1 := by omega
    have isListed : listed readDir dir = some items := by simp [listed, read, Except.toOption]
    have fewer := stackCost_scan lowercase query readDir depth items { walk with stack := stack }
    simp only [stackCost, stacked, List.map_cons, List.sum_cons, isLevel, FolderWalk.cost,
      isListed] at fewer ⊢
    omega

/-- `walk_search` -/
def walkSearch : List SearchEvent := loop lowercase query readDir true (start query)

/-! ### What the loop sends -/

variable {lowercase query readDir}

/-- The items of a folder that match. -/
def hits (lowercase : String → String) (query : SearchQuery) (items : List DirItem) :
    List DirItem := items.filter (isHit lowercase query)

theorem scan_full {depth : Nat} {items : List DirItem} {walk : SearchWalk}
    (isFull : query.maxResults ≤ walk.found) :
    (walk.scan lowercase query depth items).events = walk.events ∧
      (walk.scan lowercase query depth items).found = walk.found := by
  cases items with
  | nil => exact ⟨rfl, rfl⟩
  | cons item items => simp [scan, isFull]

/-- The loop over the items sends those that match, as long as there is room. -/
theorem scan_sends (lowercase : String → String) (query : SearchQuery) (depth : Nat)
    (items : List DirItem) (walk : SearchWalk) :
    (walk.scan lowercase query depth items).events = walk.events ++
        ((hits lowercase query items).take (query.maxResults - walk.found)).map
          (fun item => .found item.entry) ∧
      (walk.scan lowercase query depth items).found = walk.found +
        ((hits lowercase query items).take (query.maxResults - walk.found)).length := by
  induction items generalizing walk with
  | nil => simp [scan, hits]
  | cons item items ih =>
    by_cases isFull : query.maxResults ≤ walk.found
    · have noRoom : query.maxResults - walk.found = 0 := by omega
      simpa [noRoom] using scan_full isFull
    · have isStep : walk.scan lowercase query depth (item :: items) =
          ((walk.look lowercase query item).enter depth item).scan lowercase query depth items := by
        rw [scan, if_neg isFull]
      have sameEvents (looked : SearchWalk) : (looked.enter depth item).events = looked.events ∧
            (looked.enter depth item).found = looked.found := by
        unfold enter
        cases item.folder <;> exact ⟨rfl, rfl⟩
      obtain ⟨isEvents, isFound⟩ := ih ((walk.look lowercase query item).enter depth item)
      rw [isStep, isEvents, isFound, (sameEvents _).1, (sameEvents _).2]
      cases isMatch : isHit lowercase query item with
      | false => simp [look, hits, isMatch]
      | true =>
        obtain ⟨room, isRoom⟩ := Nat.exists_eq_add_of_lt (Nat.lt_of_not_le isFull)
        have left : query.maxResults - walk.found = room + 1 := by omega
        have leftAfter : query.maxResults - (walk.found + 1) = room := by omega
        simp only [look, isMatch, if_true, hits, List.filter_cons_of_pos, left, leftAfter,
          List.take_succ_cons, List.map_cons, List.length_cons, List.append_assoc,
          List.singleton_append]
        exact ⟨trivial, by omega⟩

/-- If there is room left, all folders among the items are on the stack. -/
theorem scan_stacks {depth : Nat} {items : List DirItem} {walk : SearchWalk}
    (room : (walk.scan lowercase query depth items).found < query.maxResults) :
    (walk.scan lowercase query depth items).stack =
        ((items.filterMap DirItem.folder).reverse.map fun path => (path, depth + 1)) ++ walk.stack ∧
      (walk.scan lowercase query depth items).truncated = walk.truncated := by
  induction items generalizing walk with
  | nil => simp [scan]
  | cons item items ih =>
    have notFull : ¬query.maxResults ≤ walk.found := by
      intro isFull
      rw [(scan_full isFull).2] at room
      omega
    rw [scan, if_neg notFull] at room ⊢
    obtain ⟨isStack, isTruncated⟩ := ih room
    have same : (walk.look lowercase query item).stack = walk.stack ∧
        (walk.look lowercase query item).truncated = walk.truncated := by
      unfold look
      split_ifs <;> exact ⟨rfl, rfl⟩
    rw [isStack, isTruncated]
    cases isFolder : item.folder with
    | none => simp [enter, isFolder, same]
    | some path => simp [enter, isFolder, same]

/-- What is still to be found from a stack. -/
def pending (lowercase : String → String) (query : SearchQuery)
    (readDir : Path → Except String (List DirItem)) (stack : List (Path × Nat)) : List DirItem :=
  hits lowercase query (stack.flatMap fun top =>
    FolderWalk.visit (listed readDir) DirItem.folder (query.maxDepth + 1 - top.2) top.1)

theorem pending_cons (dir : Path) (depth : Nat) (stack : List (Path × Nat)) :
    pending lowercase query readDir ((dir, depth) :: stack) =
      hits lowercase query (FolderWalk.visit (listed readDir) DirItem.folder
        (query.maxDepth + 1 - depth) dir) ++ pending lowercase query readDir stack := by
  simp [pending, hits]

theorem pending_scanned (lowercase : String → String) {depth : Nat} {items : List DirItem}
    (stack : List (Path × Nat))
    {dir : Path} (isListed : listed readDir dir = some items) (isLevel : depth ≤ query.maxDepth) :
    pending lowercase query readDir ((dir, depth) :: stack) = hits lowercase query items ++
      pending lowercase query readDir
        (((items.filterMap DirItem.folder).reverse.map fun path => (path, depth + 1)) ++ stack) := by
  have isNext : query.maxDepth + 1 - depth = (query.maxDepth + 1 - (depth + 1)) + 1 := by omega
  rw [pending_cons, isNext, FolderWalk.visit, isListed]
  simp only [pending, hits, List.filter_append, List.flatMap_append, List.flatMap_map,
    List.append_assoc]

theorem loop_nil {isRoot : Bool} {walk : SearchWalk} (isEmpty : walk.stack = []) :
    loop lowercase query readDir isRoot walk = walk.events ++ [.done walk.truncated] := by
  rcases walk with ⟨stack, found, truncated, events⟩
  obtain rfl : stack = [] := isEmpty
  rw [loop]

section Step

variable {isRoot : Bool} {walk : SearchWalk} {dir : Path} {depth : Nat} {stack : List (Path × Nat)}
  (stacked : walk.stack = (dir, depth) :: stack)

include stacked

theorem loop_deep (tooDeep : query.maxDepth < depth) : loop lowercase query readDir isRoot walk =
    loop lowercase query readDir isRoot { walk with stack := stack } := by
  rcases walk with ⟨top, found, truncated, events⟩
  obtain rfl : top = (dir, depth) :: stack := stacked
  rw [loop]
  simp only [tooDeep, if_true]

theorem loop_error (isLevel : depth ≤ query.maxDepth) {err : String}
    (failed : readDir dir = .error err) : loop lowercase query readDir isRoot walk =
      if isRoot then walk.events ++ [.failed err]
      else loop lowercase query readDir isRoot { walk with stack := stack } := by
  rcases walk with ⟨top, found, truncated, events⟩
  obtain rfl : top = (dir, depth) :: stack := stacked
  rw [loop]
  simp only [Nat.not_lt.mpr isLevel, if_false]
  split
  · next other isOther =>
      rw [failed, Except.error.injEq] at isOther
      rw [isOther]
  · next items isRead =>
      rw [failed] at isRead
      cases isRead

theorem loop_read (isLevel : depth ≤ query.maxDepth) {items : List DirItem}
    (isRead : readDir dir = .ok items) : loop lowercase query readDir isRoot walk =
      if query.maxResults ≤ (scan lowercase query depth items { walk with stack := stack }).found then
        (scan lowercase query depth items { walk with stack := stack }).events ++ [.done true]
      else loop lowercase query readDir false
        (scan lowercase query depth items { walk with stack := stack }) := by
  rcases walk with ⟨top, found, truncated, events⟩
  obtain rfl : top = (dir, depth) :: stack := stacked
  rw [loop]
  simp only [Nat.not_lt.mpr isLevel, if_false]
  split
  · next err failed =>
      rw [failed] at isRead
      cases isRead
  · next other isOther =>
      rw [isRead, Except.ok.injEq] at isOther
      rw [isOther]

end Step

/-- The loop sends what is to be found from its stack, in order, as long as there is room, and says
that it is complete only if there was room for everything, and that it is not only if the room was
used up. -/
theorem loop_sends (lowercase : String → String) (query : SearchQuery)
    (readDir : Path → Except String (List DirItem)) {isRoot : Bool} (walk : SearchWalk)
    (notRoot : isRoot = false)
    (fresh : walk.truncated = false) :
    ∃ truncated, loop lowercase query readDir isRoot walk = walk.events ++
        ((pending lowercase query readDir walk.stack).take (query.maxResults - walk.found)).map
          (fun item => .found item.entry) ++ [.done truncated] ∧
      (truncated = false → (pending lowercase query readDir walk.stack).length ≤
        query.maxResults - walk.found) ∧
      (truncated = true →
        query.maxResults ≤ walk.found + (pending lowercase query readDir walk.stack).length) := by
  induction isRoot, walk using loop.induct lowercase query readDir with
  | case1 isRoot walk stacked =>
    refine ⟨false, ?_, fun _ => ?_, fun isTrue => absurd isTrue Bool.false_ne_true⟩
    · simp [loop_nil stacked, stacked, pending, hits, fresh]
    · simp [stacked, pending, hits]
  | case2 isRoot walk dir depth stack stacked tooDeep ih =>
    have noLevels : query.maxDepth + 1 - depth = 0 := by omega
    have isPending : pending lowercase query readDir walk.stack =
        pending lowercase query readDir stack := by
      rw [stacked, pending_cons, noLevels]
      simp [FolderWalk.visit, hits]
    rw [loop_deep stacked tooDeep, isPending]
    exact ih notRoot fresh
  | case3 walk dir depth stack stacked isLevel err failed => cases notRoot
  | case4 isRoot walk dir depth stack stacked isLevel err failed _ ih =>
    have isListed : listed readDir dir = none := by simp [listed, failed, Except.toOption]
    have isNext : query.maxDepth + 1 - depth = (query.maxDepth - depth) + 1 := by omega
    have isPending : pending lowercase query readDir walk.stack =
        pending lowercase query readDir stack := by
      rw [stacked, pending_cons, isNext, FolderWalk.visit, isListed]
      simp [hits]
    rw [loop_error stacked (Nat.not_lt.mp isLevel) failed, if_neg (by simp [notRoot]), isPending]
    exact ih notRoot fresh
  | case5 isRoot walk dir depth stack stacked isLevel items isRead scanned isFull =>
    have isListed : listed readDir dir = some items := by simp [listed, isRead, Except.toOption]
    obtain ⟨isEvents, isFound⟩ := scan_sends lowercase query depth items
      { walk with stack := stack }
    have room : query.maxResults ≤ walk.found +
        ((hits lowercase query items).take (query.maxResults - walk.found)).length :=
      isFound ▸ isFull
    rw [List.length_take] at room
    have isPending := pending_scanned lowercase stack isListed (Nat.not_lt.mp isLevel)
    refine ⟨true, ?_, fun isFalse => absurd isFalse.symm Bool.false_ne_true, fun _ => ?_⟩
    · rw [loop_read stacked (Nat.not_lt.mp isLevel) isRead, if_pos isFull, isEvents, stacked,
        isPending, List.take_append]
      have noRoom : query.maxResults - walk.found - (hits lowercase query items).length = 0 := by
        omega
      simp [noRoom]
    · rw [stacked, isPending, List.length_append]
      omega
  | case6 isRoot walk dir depth stack stacked isLevel items isRead scanned notFull ih =>
    have isListed : listed readDir dir = some items := by simp [listed, isRead, Except.toOption]
    obtain ⟨isEvents, isFound⟩ := scan_sends lowercase query depth items
      { walk with stack := stack }
    obtain ⟨isStack, isTruncated⟩ := scan_stacks (Nat.lt_of_not_le notFull)
    obtain ⟨truncated, isLoop, complete, full⟩ := ih rfl (isTruncated.trans fresh)
    have isRoom : ¬query.maxResults ≤ walk.found +
        ((hits lowercase query items).take (query.maxResults - walk.found)).length :=
      fun isFull => notFull (isFound ▸ isFull)
    have room : (hits lowercase query items).length < query.maxResults - walk.found := by
      rw [List.length_take] at isRoom
      omega
    have all : (hits lowercase query items).take (query.maxResults - walk.found) =
        hits lowercase query items := List.take_of_length_le (Nat.le_of_lt room)
    rw [all] at isEvents isFound
    have isPending := pending_scanned lowercase stack isListed (Nat.not_lt.mp isLevel)
    have left : query.maxResults - (walk.found + (hits lowercase query items).length) =
        query.maxResults - walk.found - (hits lowercase query items).length := by omega
    refine ⟨truncated, ?_, ?_, ?_⟩
    · rw [loop_read stacked (Nat.not_lt.mp isLevel) isRead, if_neg notFull, isLoop, isEvents,
        isFound, isStack, stacked, isPending, List.take_append, all, left]
      simp
    · intro notTruncated
      have short := complete notTruncated
      rw [isFound, isStack] at short
      rw [stacked, isPending, List.length_append]
      simp only at short
      omega
    · intro isTrue
      have long := full isTrue
      rw [isFound, isStack] at long
      rw [stacked, isPending, List.length_append]
      simp only at long
      omega

theorem loop_start {items : List DirItem} (isRead : readDir query.root = .ok items) :
    loop lowercase query readDir true (start query) =
      loop lowercase query readDir false (start query) := by
  exact (loop_read rfl (Nat.zero_le _) isRead).trans (loop_read rfl (Nat.zero_le _) isRead).symm

/-! ### What a search finds -/

/-- An item in a folder that a search comes to, by folders that can be read. -/
def Within (query : SearchQuery) (readDir : Path → Except String (List DirItem))
    (item : DirItem) : Prop :=
  ∃ depth ≤ query.maxDepth, ∃ dir,
    FolderWalk.Down (listed readDir) DirItem.folder query.root depth dir ∧
      FolderWalk.Lists (listed readDir) dir item

theorem mem_pending_start {item : DirItem} :
    item ∈ pending lowercase query readDir (start query).stack ↔
      Within query readDir item ∧ isHit lowercase query item = true := by
  simp only [start, pending, hits, List.flatMap_cons, List.flatMap_nil, List.append_nil,
    List.mem_filter, FolderWalk.mem_visit, Within, Nat.sub_zero, Nat.lt_succ_iff]

/-- Every entry below a root has a path of its own. -/
structure DistinctPaths (readDir : Path → Except String (List DirItem)) (root : Path) : Prop where
  once : ∀ depth dir, FolderWalk.Down (listed readDir) DirItem.folder root depth dir →
    ∀ items, readDir dir = .ok items → (items.map fun item => item.path.components).Nodup
  apart : ∀ depth dir, FolderWalk.Down (listed readDir) DirItem.folder root depth dir →
    ∀ deeper other, FolderWalk.Down (listed readDir) DirItem.folder root deeper other →
    ∀ item, FolderWalk.Lists (listed readDir) dir item →
    ∀ second, FolderWalk.Lists (listed readDir) other second →
      item.path.components = second.path.components → dir = other
  notRoot : ∀ depth dir, FolderWalk.Down (listed readDir) DirItem.folder root depth dir →
    ∀ item, FolderWalk.Lists (listed readDir) dir item → item.path.components ≠ root.components

theorem DistinctPaths.distinct {root : Path} (distinct : DistinctPaths readDir root) :
    FolderWalk.Distinct (listed readDir) DirItem.folder (fun item => item.path.components) root where
  once depth dir down items isListed := by
    apply distinct.once depth dir down items
    cases isRead : readDir dir with
    | error err => simp [listed, isRead, Except.toOption] at isListed
    | ok others =>
      simp only [listed, isRead, Except.toOption, Option.some_inj] at isListed
      rw [isListed]
  apart := distinct.apart
  ofPlace := by
    intro item second path isFolder isFolderToo
    have isPath (item : DirItem) (isFolder : item.folder = some path) : item.path = path := by
      unfold DirItem.folder at isFolder
      split_ifs at isFolder
      exact Option.some_inj.mp isFolder
    rw [isPath item isFolder, isPath second isFolderToo]
  notStart := by
    intro depth dir down item isListed isFolder
    unfold DirItem.folder at isFolder
    split_ifs at isFolder
    apply distinct.notRoot depth dir down item isListed
    rw [Option.some_inj.mp isFolder]

/-- What a search found, and its last event. -/
structure Outcome (lowercase : String → String) (query : SearchQuery)
    (readDir : Path → Except String (List DirItem)) (found : List DirItem)
    (last : SearchEvent) : Prop where
  few : found.length ≤ query.maxResults
  once : (found.map fun item => item.path.components).Nodup
  within : ∀ item ∈ found, Within query readDir item ∧
    globMatch lowercase query.pattern item.name = true
  ends : (∃ err, readDir query.root = .error err ∧ found = [] ∧ last = .failed err) ∨
    ∃ items, readDir query.root = .ok items ∧ ∃ truncated, last = .done truncated ∧
      (truncated = false → ∀ item, Within query readDir item →
        globMatch lowercase query.pattern item.name = true → item ∈ found)

/-- What the loop finds when it does not fail. -/
theorem loop_outcome (distinct : DistinctPaths readDir query.root) {last : SearchEvent}
    (ends : (∃ items, readDir query.root = .ok items) ∧ ∃ truncated, last = .done truncated ∧
      (truncated = false → (pending lowercase query readDir (start query).stack).length ≤
        query.maxResults)) :
    Outcome lowercase query readDir
      ((pending lowercase query readDir (start query).stack).take query.maxResults) last where
  few := by
    rw [List.length_take]
    exact Nat.min_le_left ..
  once := by
    have once := distinct.distinct.nodup_visit (query.maxDepth + 1) .here
    apply List.Nodup.sublist _ once
    apply List.Sublist.map
    apply (List.take_sublist _ _).trans
    simp only [start, pending, hits, List.flatMap_cons, List.flatMap_nil, List.append_nil,
      Nat.sub_zero]
    exact List.filter_sublist
  within := by
    intro item isIn
    exact mem_pending_start.mp (List.mem_of_mem_take isIn)
  ends := by
    obtain ⟨⟨items, isRead⟩, truncated, rfl, complete⟩ := ends
    refine .inr ⟨items, isRead, truncated, rfl, fun notTruncated item within isMatch => ?_⟩
    rw [List.take_of_length_le (complete notTruncated)]
    exact mem_pending_start.mpr ⟨within, isMatch⟩

/-- A search finds different entries that match, not more than it may, and everything if it says so;
and it ends with one event that tells how. -/
theorem walkSearch_outcome (lowercase : String → String) (query : SearchQuery)
    (readDir : Path → Except String (List DirItem)) (distinct : DistinctPaths readDir query.root) :
    ∃ found last, walkSearch lowercase query readDir =
        found.map (fun item => .found item.entry) ++ [last] ∧
      Outcome lowercase query readDir found last := by
  cases isRead : readDir query.root with
  | error err =>
    refine ⟨[], .failed err, ?_, Nat.zero_le _, List.nodup_nil, by simp, .inl ⟨err, isRead, rfl, rfl⟩⟩
    rw [walkSearch, loop_error rfl (Nat.zero_le _) isRead]
    rfl
  | ok items =>
    obtain ⟨truncated, isLoop, complete, -⟩ :=
      loop_sends lowercase query readDir (start query) rfl rfl
    refine ⟨_, .done truncated, ?_, loop_outcome distinct
      ⟨⟨items, isRead⟩, truncated, rfl, complete⟩⟩
    rw [walkSearch, loop_start isRead]
    exact isLoop

/-- A folder with a file, and a folder in it with another one. -/
def sampleDir (dir : Path) : Except String (List DirItem) :=
  if dir = ⟨"/r"⟩ then
    .ok [⟨"a.log", ⟨"/r/a.log"⟩, ⟨1, none, .file⟩⟩, ⟨"d", ⟨"/r/d"⟩, ⟨0, none, .dir⟩⟩]
  else if dir = ⟨"/r/d"⟩ then .ok [⟨"b.log", ⟨"/r/d/b.log"⟩, ⟨2, none, .file⟩⟩]
  else .error "no such file"

theorem lists_sampleDir {dir : Path} {item : DirItem}
    (isListed : FolderWalk.Lists (listed sampleDir) dir item) :
    dir = ⟨"/r"⟩ ∧ (item = ⟨"a.log", ⟨"/r/a.log"⟩, ⟨1, none, .file⟩⟩ ∨
        item = ⟨"d", ⟨"/r/d"⟩, ⟨0, none, .dir⟩⟩) ∨
      dir = ⟨"/r/d"⟩ ∧ item = ⟨"b.log", ⟨"/r/d/b.log"⟩, ⟨2, none, .file⟩⟩ := by
  obtain ⟨items, isItems, isIn⟩ := isListed
  unfold listed sampleDir at isItems
  split_ifs at isItems with isTop isInner
  · simp only [Except.toOption, Option.some_inj] at isItems
    subst isItems
    simp only [List.mem_cons, List.not_mem_nil, or_false] at isIn
    exact .inl ⟨isTop, isIn⟩
  · simp only [Except.toOption, Option.some_inj] at isItems
    subst isItems
    exact .inr ⟨isInner, List.mem_singleton.mp isIn⟩
  · cases isItems

theorem distinctPaths_sampleDir : DistinctPaths sampleDir ⟨"/r"⟩ where
  once := by
    intro _ dir _ items isRead
    unfold sampleDir at isRead
    split_ifs at isRead with isTop isInner
    · cases isRead
      decide
    · cases isRead
      decide
  apart := by
    intro _ dir _ _ other _ item isListed second isListedToo same
    rcases lists_sampleDir isListed with ⟨rfl, rfl | rfl⟩ | ⟨rfl, rfl⟩ <;>
      rcases lists_sampleDir isListedToo with ⟨rfl, rfl | rfl⟩ | ⟨rfl, rfl⟩ <;>
      first
        | rfl
        | exact absurd same (by decide)
  notRoot := by
    intro _ dir _ item isListed
    rcases lists_sampleDir isListed with ⟨rfl, rfl | rfl⟩ | ⟨rfl, rfl⟩ <;> decide

theorem walkSearch_outcome_sample : DistinctPaths sampleDir ⟨"/r"⟩ ∧
    ∃ found last, walkSearch id ⟨⟨"/r"⟩, "*.log", 16, 1000⟩ sampleDir =
        found.map (fun item => .found item.entry) ++ [last] ∧
      Outcome id ⟨⟨"/r"⟩, "*.log", 16, 1000⟩ sampleDir found last :=
  ⟨distinctPaths_sampleDir, walkSearch_outcome _ _ _ distinctPaths_sampleDir⟩

end SearchWalk

end Porthmos
