import Mathlib.Data.List.TakeWhile
import Porthmos.PathInside
import Porthmos.SyncScan

/-!
# Running a sync

`run_sync` takes the choices that apply to a plan and makes a file to copy of each;
before the copies start, the folders they need are created at the target.  All of
this happens at paths of the plan, joined to its two roots.
-/

namespace Porthmos

namespace Sync

/-- `ExistingFile` of a file a sync will replace. -/
def SyncFacts.existing (facts : SyncFacts) : ExistingFile where
  size := facts.size
  modified := facts.modified.map UInt64.toNat
  isDir := false

/-- The file a choice copies, given its two paths and the facts of its two sides. -/
def copyOf (item : SyncItem) (source destination : Path) (from_ onto : Option SyncFacts) :
    Option PlannedFile :=
  from_.map fun facts =>
    { source := source
      destination := destination
      displayName := item.path.text
      size := facts.size
      existing := onto.map SyncFacts.existing
      sourceModified := facts.modified.map UInt64.toNat
      partialFile := none
      resume := false }

def plannedFile (plan : SyncPlan) (item : SyncItem) : SyncAction → Option PlannedFile
  | .upload => copyOf item (plan.localRoot.join item.path) (plan.remoteRoot.join item.path)
      item.local item.remote
  | .download => copyOf item (plan.remoteRoot.join item.path) (plan.localRoot.join item.path)
      item.remote item.local
  | .skip => none

/-- The loop variables of `run_sync`. -/
structure Choosing where
  uploads : List PlannedFile
  downloads : List PlannedFile
  seen : List Nat
  refused : Nat

def Choosing.refuse (choosing : Choosing) : Choosing :=
  { choosing with refused := choosing.refused + 1 }

/-- Whether `run_sync` lets an item be copied this way. -/
def accepts (item : SyncItem) (direction : SyncDirection) (action : SyncAction) : Bool :=
  item.allows action direction && (decide (action = item.action) || item.flippable)

/-- One round of the loop of `run_sync`. -/
def choose (plan : SyncPlan) (choosing : Choosing) (choice : Nat × SyncAction) : Choosing :=
  let (id, action) := choice
  match (plan.items[id]?).filter fun item => item.id = id with
  | none => choosing.refuse
  | some item =>
    if id ∈ choosing.seen then choosing.refuse
    else
      let choosing := { choosing with seen := id :: choosing.seen }
      if action = .skip then choosing
      else if !accepts item plan.options.direction action then choosing.refuse
      else
        match plannedFile plan item action with
        | none => choosing.refuse
        | some file =>
          if action = .upload then { choosing with uploads := choosing.uploads ++ [file] }
          else { choosing with downloads := choosing.downloads ++ [file] }

/-- What `run_sync` hands to its two batches, and how many choices it refuses. -/
def chooseFiles (plan : SyncPlan) (choices : List (Nat × SyncAction)) : Choosing :=
  choices.foldl (choose plan) ⟨[], [], [], 0⟩

/-- The plan `start_sync` makes of two scans. -/
def planOf (syncId session : Nat) (localRoot remoteRoot : Path) (options : SyncOptions)
    (tolerance : UInt64) (targetKeepsTimes : Bool) (localScan remoteScan : Scanned) : SyncPlan where
  syncId := syncId
  session := session
  localRoot := localRoot
  remoteRoot := remoteRoot
  options := options
  items := compare localScan.tree remoteScan.tree options tolerance targetKeepsTimes
  skippedSymlinks := localScan.skippedSymlinks + remoteScan.skippedSymlinks

/-! ### Folders -/

/-- The ancestors that `missing_folders` enters for a file: it stops at the root. -/
def foldersAbove (root : Path) (file : PlannedFile) : List Path :=
  file.destination.properAncestors.takeWhile fun ancestor =>
    decide (ancestor.components ≠ root.components) && root.components.isPrefixOf ancestor.components

/-- Insertion into a `BTreeSet`, which keeps the element that is there. -/
def insertFolder (folders : OrderedMap (List Component) Path) (folder : Path) :
    OrderedMap (List Component) Path :=
  if folders.contains folder.components then folders else folders.insert folder.components folder

def missingFolders (files : List PlannedFile) (root : Path) : OrderedMap (List Component) Path :=
  files.foldl (fun folders file => (foldersAbove root file).foldl insertFolder folders) .empty

variable {error state : Type*}

/-- What `create_folders` leaves behind: the target, the folders it has asked for, and
what it returns. -/
structure FoldersMade (error state : Type*) where
  target : state
  visited : List Path
  result : Except error Bool

def createFolders (fs : DestinationFs error state) (cancel : Nat → Bool) :
    List Path → state → List Path → FoldersMade error state
  | [], target, visited => ⟨target, visited, .ok true⟩
  | folder :: folders, target, visited =>
    if cancel visited.length then ⟨target, visited, .ok false⟩
    else
      match ensureDirectory fs target folder with
      | .error reason => ⟨target, visited ++ [folder], .error reason⟩
      | .ok (target, _) => createFolders fs cancel folders target (visited ++ [folder])

/-! ### Accepted choices -/

/-- A file is the copy of an item for which a choice was accepted. -/
def CopyChosen (plan : SyncPlan) (choices : List (Nat × SyncAction)) (action : SyncAction)
    (file : PlannedFile) : Prop :=
  ∃ id item, (id, action) ∈ choices ∧ plan.items[id]? = some item ∧
    accepts item plan.options.direction action = true ∧ plannedFile plan item action = some file

theorem CopyChosen.mono {plan : SyncPlan} {choices more : List (Nat × SyncAction)}
    {action : SyncAction} {file : PlannedFile} (chosen : CopyChosen plan choices action file)
    (subset : choices ⊆ more) : CopyChosen plan more action file := by
  obtain ⟨id, item, member, found, accepted, planned⟩ := chosen
  exact ⟨id, item, subset member, found, accepted, planned⟩

/-- What holds of the files chosen so far. -/
structure Chosen (plan : SyncPlan) (choices : List (Nat × SyncAction)) (choosing : Choosing) :
    Prop where
  uploads : ∀ file ∈ choosing.uploads, CopyChosen plan choices .upload file
  downloads : ∀ file ∈ choosing.downloads, CopyChosen plan choices .download file

theorem Chosen.choose {plan : SyncPlan} {choices : List (Nat × SyncAction)} {choosing : Choosing}
    (chosen : Chosen plan choices choosing) (choice : Nat × SyncAction) :
    Chosen plan (choices ++ [choice]) (choose plan choosing choice) := by
  have uploads : ∀ file ∈ choosing.uploads, CopyChosen plan (choices ++ [choice]) .upload file :=
    fun file member => (chosen.uploads file member).mono (List.subset_append_left _ _)
  have downloads : ∀ file ∈ choosing.downloads,
      CopyChosen plan (choices ++ [choice]) .download file :=
    fun file member => (chosen.downloads file member).mono (List.subset_append_left _ _)
  obtain ⟨id, action⟩ := choice
  unfold Sync.choose
  dsimp only
  cases found : (plan.items[id]?).filter fun item => item.id = id with
  | none => exact ⟨uploads, downloads⟩
  | some item =>
    have isItem := (Option.filter_eq_some_iff.mp found).1
    dsimp only
    by_cases again : id ∈ choosing.seen
    · rw [if_pos again]
      exact ⟨uploads, downloads⟩
    · rw [if_neg again]
      by_cases skipped : action = .skip
      · rw [if_pos skipped]
        exact ⟨uploads, downloads⟩
      · rw [if_neg skipped]
        cases accepted : accepts item plan.options.direction action with
        | false => exact ⟨uploads, downloads⟩
        | true =>
          rw [Bool.not_true, if_neg Bool.false_ne_true]
          cases planned : plannedFile plan item action with
          | none => exact ⟨uploads, downloads⟩
          | some file =>
            cases action with
            | skip => exact absurd rfl skipped
            | upload =>
              dsimp only
              rw [if_pos rfl]
              refine ⟨List.forall_mem_append.mpr ⟨uploads, ?_⟩, downloads⟩
              exact List.forall_mem_singleton.mpr ⟨id, item, by simp, isItem, accepted, planned⟩
            | download =>
              dsimp only
              rw [if_neg (by decide)]
              refine ⟨uploads, List.forall_mem_append.mpr ⟨downloads, ?_⟩⟩
              exact List.forall_mem_singleton.mpr ⟨id, item, by simp, isItem, accepted, planned⟩

theorem chosen_chooseFiles (plan : SyncPlan) (choices : List (Nat × SyncAction)) :
    Chosen plan choices (chooseFiles plan choices) := by
  unfold chooseFiles
  suffices run : ∀ earlier choosing, Chosen plan earlier choosing →
      Chosen plan (earlier ++ choices) (choices.foldl (choose plan) choosing) from
    run [] _ ⟨by simp, by simp⟩
  induction choices with
  | nil => exact fun earlier choosing chosen => by rwa [List.append_nil]
  | cons choice rest ih =>
    intro earlier choosing chosen
    have run := ih (earlier ++ [choice]) _ (chosen.choose choice)
    rwa [List.append_assoc, List.singleton_append] at run

theorem CopyChosen.exists_item {plan : SyncPlan} {choices : List (Nat × SyncAction)}
    {action : SyncAction} {file : PlannedFile} (chosen : CopyChosen plan choices action file) :
    ∃ item ∈ plan.items, accepts item plan.options.direction action = true ∧
      plannedFile plan item action = some file := by
  obtain ⟨id, item, _, found, accepted, planned⟩ := chosen
  exact ⟨item, List.mem_of_getElem? found, accepted, planned⟩

theorem paths_of_plannedFile {plan : SyncPlan} {item : SyncItem} {file : PlannedFile} :
    (plannedFile plan item .upload = some file → file.source = plan.localRoot.join item.path ∧
      file.destination = plan.remoteRoot.join item.path) ∧
    (plannedFile plan item .download = some file → file.source = plan.remoteRoot.join item.path ∧
      file.destination = plan.localRoot.join item.path) := by
  unfold plannedFile copyOf
  constructor <;>
  · intro planned
    obtain ⟨facts, _, rfl⟩ := Option.map_eq_some_iff.mp planned
    exact ⟨rfl, rfl⟩

/-! ### The folders -/

theorem get?_insertFolder (folders : OrderedMap (List Component) Path) (folder : Path)
    (key : List Component) : ((insertFolder folders folder).get? key).isSome ↔
      (folders.get? key).isSome ∨ folder.components = key := by
  unfold insertFolder
  split_ifs with contained
  · rw [OrderedMap.contains_iff] at contained
    constructor
    · exact Or.inl
    · rintro (present | rfl)
      · exact present
      · exact Option.isSome_iff_exists.mpr contained
  · rw [OrderedMap.get?_insert]
    split_ifs with same
    · simp [same]
    · simp [Ne.symm same]

theorem keyed_insertFolder {folders : OrderedMap (List Component) Path} {folder : Path}
    (keyed : ∀ key path, folders.get? key = some path → path.components = key) :
    ∀ key path, (insertFolder folders folder).get? key = some path → path.components = key := by
  intro key path found
  unfold insertFolder at found
  split_ifs at found
  · exact keyed key path found
  · rw [OrderedMap.get?_insert] at found
    split_ifs at found with same
    · rw [← Option.some.inj found, same]
    · exact keyed key path found

theorem foldl_insertFolder (entered : List Path) (folders : OrderedMap (List Component) Path)
    (keyed : ∀ key path, folders.get? key = some path → path.components = key) :
    (∀ key path, (entered.foldl insertFolder folders).get? key = some path →
      path.components = key) ∧
    ∀ key, ((entered.foldl insertFolder folders).get? key).isSome ↔
      (folders.get? key).isSome ∨ ∃ folder ∈ entered, folder.components = key := by
  induction entered generalizing folders with
  | nil => exact ⟨keyed, by simp⟩
  | cons folder rest ih =>
    obtain ⟨restKeyed, restKeys⟩ := ih (insertFolder folders folder) (keyed_insertFolder keyed)
    refine ⟨restKeyed, fun key => ?_⟩
    rw [List.foldl_cons, restKeys, get?_insertFolder, or_assoc]
    simp

theorem missingFolders_eq (files : List PlannedFile) (root : Path) :
    missingFolders files root = (files.flatMap (foldersAbove root)).foldl insertFolder .empty := by
  rw [missingFolders, List.foldl_flatMap]

theorem keyed_missingFolders {files : List PlannedFile} {root : Path} {key : List Component}
    {folder : Path} (found : (missingFolders files root).get? key = some folder) :
    folder.components = key := by
  rw [missingFolders_eq] at found
  exact (foldl_insertFolder _ .empty (by simp)).1 key folder found

theorem isSome_missingFolders {files : List PlannedFile} {root : Path} {key : List Component} :
    ((missingFolders files root).get? key).isSome ↔
      ∃ file ∈ files, ∃ folder ∈ foldersAbove root file, folder.components = key := by
  rw [missingFolders_eq, (foldl_insertFolder _ .empty (by simp)).2 key]
  simp only [OrderedMap.get?_empty, Option.isSome_none, Bool.false_eq_true, false_or,
    List.mem_flatMap]
  constructor
  · rintro ⟨folder, ⟨file, isFile, isFolder⟩, same⟩
    exact ⟨file, isFile, folder, isFolder, same⟩
  · rintro ⟨file, isFile, folder, isFolder, same⟩
    exact ⟨folder, ⟨file, isFile, isFolder⟩, same⟩

/-- Going up from a path below the root, all ancestors below the root come before it. -/
theorem mem_takeWhile_ancestors {root path ancestor : Path} (above : ancestor ∈ path.ancestors)
    (below : root.components <+: ancestor.components)
    (different : ancestor.components ≠ root.components) :
    ancestor ∈ path.ancestors.takeWhile fun ancestor =>
      decide (ancestor.components ≠ root.components) &&
        root.components.isPrefixOf ancestor.components := by
  generalize count : path.components.length = length
  induction length using Nat.strong_induction_on generalizing path with
  | _ length ih =>
    have isPrefix : ancestor.components <+: path.components :=
      Path.components_of_mem_ancestorsWithin above
    have pathBelow := below.trans isPrefix
    have pathDifferent : path.components ≠ root.components := by
      intro same
      have lengths := isPrefix.length_le
      rw [same] at lengths
      exact different (below.eq_of_length_le lengths).symm
    rw [Path.ancestors_eq_cons] at above ⊢
    rw [List.takeWhile_cons_of_pos (by simp [pathDifferent, pathBelow])]
    rcases List.mem_cons.mp above with rfl | farAbove
    · exact List.mem_cons_self
    · cases found : path.parent with
      | none => simp [Path.properAncestors_of_none found] at farAbove
      | some parent =>
        rw [Path.properAncestors_of_parent found] at farAbove ⊢
        obtain ⟨notEmpty, isParent⟩ := Path.components_parent found
        have shorter : parent.components.length < length := by
          rw [isParent, List.length_dropLast, count]
          have := List.length_pos_iff.mpr notEmpty
          omega
        exact List.mem_cons_of_mem _ (ih _ shorter farAbove rfl)

/-- The folders entered for a file are its ancestors strictly below the root. -/
theorem mem_foldersAbove_iff {root folder : Path} {file : PlannedFile}
    (below : root.components <+: file.destination.components)
    (different : file.destination.components ≠ root.components) :
    folder ∈ foldersAbove root file ↔ folder ∈ file.destination.properAncestors ∧
      root.components <+: folder.components ∧ folder.components ≠ root.components := by
  unfold foldersAbove
  constructor
  · intro member
    have holds := List.mem_takeWhile_imp member
    have isFolder := (Bool.and_eq_true _ _).mp holds
    exact ⟨(List.takeWhile_sublist _).subset member, List.isPrefixOf_iff_prefix.mp isFolder.2,
      of_decide_eq_true isFolder.1⟩
  · rintro ⟨above, folderBelow, folderDifferent⟩
    have inAncestors : folder ∈ file.destination.ancestors := by
      rw [Path.ancestors_eq_cons]
      exact List.mem_cons_of_mem _ above
    have found := mem_takeWhile_ancestors inAncestors folderBelow folderDifferent
    rw [Path.ancestors_eq_cons, List.takeWhile_cons_of_pos (by simp [different, below])] at found
    rcases List.mem_cons.mp found with rfl | later
    · exact absurd rfl (Path.components_of_mem_properAncestors above).2
    · exact later

theorem createFolders_visited (fs : DestinationFs error state) (cancel : Nat → Bool)
    (folders : List Path) (target : state) (visited : List Path) :
    ∃ asked, asked <+: folders ∧
      (createFolders fs cancel folders target visited).visited = visited ++ asked ∧
      ((createFolders fs cancel folders target visited).result = .ok true → asked = folders) := by
  induction folders generalizing target visited with
  | nil => exact ⟨[], List.prefix_rfl, (List.append_nil _).symm, fun _ => rfl⟩
  | cons folder rest ih =>
    unfold createFolders
    split_ifs
    · exact ⟨[], List.nil_prefix, (List.append_nil _).symm, by simp⟩
    · cases ensured : ensureDirectory fs target folder with
      | error reason => exact ⟨[folder], by simp, rfl, by simp⟩
      | ok made =>
        obtain ⟨asked, isPrefix, isVisited, whole⟩ := ih made.1 (visited ++ [folder])
        refine ⟨folder :: asked, List.cons_prefix_cons.mpr ⟨rfl, isPrefix⟩, ?_, ?_⟩
        · rw [isVisited, List.append_assoc, List.singleton_append]
        · exact fun succeeded => congrArg _ (whole succeeded)

/-! ### Staying inside -/

/-- The folders are the ancestors of the files' destinations strictly below the root,
and each stands behind its parent unless that is the root. -/
structure FoldersExact (files : List PlannedFile) (root : Path) (folders : List Path) : Prop where
  exact : ∀ key, (∃ folder ∈ folders, folder.components = key) ↔
    ∃ file ∈ files, ∃ ancestor ∈ file.destination.properAncestors, ancestor.components = key ∧
      root.components <+: ancestor.components ∧ ancestor.components ≠ root.components
  parentFirst : ∀ before folder after, folders = before ++ folder :: after →
    ∃ parent, folder.parent = some parent ∧ (parent.components = root.components ∨
      ∃ earlier ∈ before, earlier.components = parent.components)

/-- All destinations are the root joined with names. -/
def PlacedBelow (root : Path) (files : List PlannedFile) : Prop :=
  ∀ file ∈ files, ∃ names : List String, names ≠ [] ∧
    file.destination.components = root.components ++ names.map .normal

theorem PlacedBelow.mem_foldersAbove_iff {root : Path} {files : List PlannedFile}
    (placed : PlacedBelow root files) {file : PlannedFile} (member : file ∈ files) {folder : Path} :
    folder ∈ foldersAbove root file ↔ folder ∈ file.destination.properAncestors ∧
      root.components <+: folder.components ∧ folder.components ≠ root.components := by
  obtain ⟨names, notEmpty, isDestination⟩ := placed file member
  refine Sync.mem_foldersAbove_iff ?_ ?_
  · rw [isDestination]
    exact List.prefix_append _ _
  · rw [isDestination]
    simpa using notEmpty

theorem foldersExact_missingFolders {root : Path} {files : List PlannedFile}
    (placed : PlacedBelow root files) :
    FoldersExact files root (missingFolders files root).values := by
  have isMissing (key : List Component) :
      (∃ folder ∈ (missingFolders files root).values, folder.components = key) ↔
        ((missingFolders files root).get? key).isSome := by
    rw [Option.isSome_iff_exists]
    constructor
    · rintro ⟨folder, member, rfl⟩
      obtain ⟨key, found⟩ := OrderedMap.mem_values_iff.mp member
      exact ⟨folder, keyed_missingFolders found ▸ found⟩
    · rintro ⟨folder, found⟩
      exact ⟨folder, OrderedMap.mem_values_iff.mpr ⟨key, found⟩, keyed_missingFolders found⟩
  have exact (key : List Component) :
      (∃ folder ∈ (missingFolders files root).values, folder.components = key) ↔
        ∃ file ∈ files, ∃ ancestor ∈ file.destination.properAncestors, ancestor.components = key ∧
          root.components <+: ancestor.components ∧ ancestor.components ≠ root.components := by
    rw [isMissing, isSome_missingFolders]
    constructor
    · rintro ⟨file, isFile, folder, isFolder, same⟩
      obtain ⟨above, below, different⟩ := (placed.mem_foldersAbove_iff isFile).mp isFolder
      exact ⟨file, isFile, folder, above, same, below, different⟩
    · rintro ⟨file, isFile, folder, above, same, below, different⟩
      exact ⟨file, isFile, folder, (placed.mem_foldersAbove_iff isFile).mpr
        ⟨above, below, different⟩, same⟩
  refine ⟨exact, fun before folder after split => ?_⟩
  have isFolder : folder ∈ (missingFolders files root).values := by simp [split]
  obtain ⟨file, isFile, ancestor, above, same, below, different⟩ :=
    (exact folder.components).mp ⟨folder, isFolder, rfl⟩
  obtain ⟨isPrefix, shorter⟩ := Path.components_of_mem_properAncestors above
  rw [same] at below different isPrefix shorter
  obtain ⟨names, _, isDestination⟩ := placed file isFile
  -- Behind the root's components a folder has at least one name.
  obtain ⟨more, isMore⟩ := below
  have hasMore : more ≠ [] := by
    rintro rfl
    exact different (by simpa using isMore.symm)
  have named : ∀ component ∈ more, ∃ name, component = Component.normal name := by
    intro component member
    rw [← isMore, isDestination, List.prefix_append_right_inj] at isPrefix
    obtain ⟨name, _, rfl⟩ := List.mem_map.mp (isPrefix.subset member)
    exact ⟨name, rfl⟩
  cases isParent : folder.parent with
  | none =>
    exfalso
    rcases Path.components_of_parent_eq_none isParent with empty | isRoot
    · rw [empty] at isMore
      exact hasMore (List.append_eq_nil_iff.mp isMore).2
    · obtain ⟨initial, last, rfl⟩ : ∃ initial last, more = initial ++ [last] :=
        ⟨more.dropLast, more.getLast hasMore, (List.dropLast_append_getLast hasMore).symm⟩
      obtain ⟨name, rfl⟩ := named last (by simp)
      rw [isRoot, ← List.append_assoc, ← List.nil_append [Component.rootDir]] at isMore
      have lasts := (List.append_inj' isMore rfl).2
      simp at lasts
  | some parent =>
    refine ⟨parent, rfl, ?_⟩
    have isDropped := (Path.components_parent isParent).2
    by_cases atRoot : parent.components = root.components
    · exact Or.inl atRoot
    · right
      have parentBelow : root.components <+: parent.components := by
        rw [isDropped, ← isMore, List.dropLast_append_of_ne_nil hasMore]
        exact List.prefix_append _ _
      have parentAbove : ∃ other ∈ file.destination.properAncestors,
          other.components = parent.components := by
        have isAbove : parent ∈ folder.properAncestors := by
          rw [Path.properAncestors_of_parent isParent, Path.ancestors_eq_cons]
          exact List.mem_cons_self
        obtain ⟨found, foundAbove, isFound⟩ :=
          Path.exists_mem_properAncestors_congr same.symm isAbove
        exact ⟨found, Path.properAncestors_subset above foundAbove, isFound⟩
      obtain ⟨other, otherAbove, isOther⟩ := parentAbove
      obtain ⟨earlier, isEarlier, sameKey⟩ := (exact parent.components).mpr
        ⟨file, isFile, other, otherAbove, isOther, isOther ▸ parentBelow, isOther ▸ atRoot⟩
      refine ⟨earlier, ?_, sameKey⟩
      have smaller : earlier.components < folder.components := by
        obtain ⟨component, _, isPath⟩ := Path.components_eq_of_parent isParent
        rw [sameKey, isPath]
        exact lt_append_of_ne_nil (by simp)
      have sorted : (missingFolders files root).values.Pairwise
          fun first second => first.components < second.components := by
        have keys := OrderedMap.keys_pairwise (missingFolders files root)
        rw [OrderedMap.keys,
          OrderedMap.entries_eq_of_keyed (fun _ _ found => keyed_missingFolders found),
          List.map_map] at keys
        exact List.pairwise_map.mp keys
      rw [split] at isEarlier sorted
      rcases List.mem_append.mp isEarlier with inBefore | later
      · exact inBefore
      · obtain ⟨folderFirst, _⟩ := List.pairwise_cons.mp (List.pairwise_append.mp sorted).2.1
        rcases List.mem_cons.mp later with rfl | afterFolder
        · exact absurd smaller (lt_irrefl _)
        · exact absurd smaller (folderFirst earlier afterFolder).asymm

theorem isSome_of_mem_compare {localTree remoteTree : Tree} {options : SyncOptions}
    {tolerance : UInt64} {targetKeepsTimes : Bool} {item : SyncItem}
    (listed : item ∈ compare localTree remoteTree options tolerance targetKeepsTimes) :
    (localTree.get? item.path).isSome ∨ (remoteTree.get? item.path).isSome := by
  obtain ⟨path, isCompared, count, verdict, _, _, rfl⟩ := mem_compare listed
  exact exists_mem_comparedPaths_iff.mp ⟨path, isCompared, rfl⟩

/-- Files are copied between two roots at the same plain path of a tree, and the
folders they need at the target are the ones entered for them. -/
structure SyncsBelow (localTree remoteTree : Tree) (sourceRoot targetRoot : Path)
    (files : List PlannedFile) : Prop where
  paths : ∀ file ∈ files, ∃ path : Path, ∃ names : List String,
    ((localTree.get? path).isSome ∨ (remoteTree.get? path).isSome) ∧ names ≠ [] ∧
      path.components = names.map .normal ∧ file.source = sourceRoot.join path ∧
      file.destination = targetRoot.join path
  folders : FoldersExact files targetRoot (missingFolders files targetRoot).values

theorem syncsBelow_of_paths {localTree remoteTree : Tree} {sourceRoot targetRoot : Path}
    {files : List PlannedFile} (localRooted : localTree.Rooted) (remoteRooted : remoteTree.Rooted)
    (items : ∀ file ∈ files, ∃ path : Path,
      ((localTree.get? path).isSome ∨ (remoteTree.get? path).isSome) ∧
        file.source = sourceRoot.join path ∧ file.destination = targetRoot.join path) :
    SyncsBelow localTree remoteTree sourceRoot targetRoot files := by
  have paths : ∀ file ∈ files, ∃ path : Path, ∃ names : List String,
      ((localTree.get? path).isSome ∨ (remoteTree.get? path).isSome) ∧ names ≠ [] ∧
        path.components = names.map .normal ∧ file.source = sourceRoot.join path ∧
        file.destination = targetRoot.join path := by
    intro file member
    obtain ⟨path, present, isSource, isDestination⟩ := items file member
    obtain ⟨names, notEmpty, isPath⟩ := present.elim (localRooted.plain path)
      (remoteRooted.plain path)
    exact ⟨path, names, present, notEmpty, isPath, isSource, isDestination⟩
  refine ⟨paths, foldersExact_missingFolders fun file member => ?_⟩
  obtain ⟨path, names, _, notEmpty, isPath, _, isDestination⟩ := paths file member
  exact ⟨names, notEmpty, by rw [isDestination, Path.components_join_names isPath]⟩

/-- A sync never leaves its two folders: the paths of both trees are plain and stand
below folders of their tree, files are copied from root to root at these paths, and
exactly the folders between the target's root and the files are asked for, parents
first. -/
theorem sync_staysInside (localFs remoteFs : SourceFs error) (localRoot remoteRoot : Path)
    (options : SyncOptions) (localCancel remoteCancel : Nat → Bool) (fuel : Nat)
    (localScan remoteScan : Scanned)
    (scanned : scanBoth localFs localRoot remoteFs remoteRoot options.subfolders localCancel
      remoteCancel fuel = .ok (localScan, remoteScan))
    (syncId session : Nat) (tolerance : UInt64) (targetKeepsTimes : Bool)
    (choices : List (Nat × SyncAction)) :
    let chosen := chooseFiles (planOf syncId session localRoot remoteRoot options tolerance
      targetKeepsTimes localScan remoteScan) choices
    (localScan.tree.Rooted ∧ (localScan.tree.keys.map Path.components).Nodup) ∧
      (remoteScan.tree.Rooted ∧ (remoteScan.tree.keys.map Path.components).Nodup) ∧
      SyncsBelow localScan.tree remoteScan.tree localRoot remoteRoot chosen.uploads ∧
      SyncsBelow localScan.tree remoteScan.tree remoteRoot localRoot chosen.downloads ∧
      ∀ (fs : DestinationFs error state) (cancel : Nat → Bool) (target : state)
        (files : List PlannedFile) (root : Path),
        let made := createFolders fs cancel (missingFolders files root).values target []
        made.visited <+: (missingFolders files root).values ∧
          (made.result = .ok true → made.visited = (missingFolders files root).values) := by
  obtain ⟨localRooted, remoteRooted⟩ := scanBoth_rooted scanned
  have chosen := chosen_chooseFiles (planOf syncId session localRoot remoteRoot options tolerance
    targetKeepsTimes localScan remoteScan) choices
  refine ⟨⟨localRooted, localScan.tree.nodup_keys⟩, ⟨remoteRooted, remoteScan.tree.nodup_keys⟩,
    ?_, ?_, ?_⟩
  · refine syncsBelow_of_paths localRooted remoteRooted fun file member => ?_
    obtain ⟨item, isItem, _, planned⟩ := (chosen.uploads file member).exists_item
    exact ⟨item.path, isSome_of_mem_compare isItem, paths_of_plannedFile.1 planned⟩
  · refine syncsBelow_of_paths localRooted remoteRooted fun file member => ?_
    obtain ⟨item, isItem, _, planned⟩ := (chosen.downloads file member).exists_item
    exact ⟨item.path, isSome_of_mem_compare isItem, paths_of_plannedFile.2 planned⟩
  · intro fs cancel target files root
    obtain ⟨asked, isPrefix, isVisited, whole⟩ :=
      createFolders_visited fs cancel (missingFolders files root).values target []
    rw [List.nil_append] at isVisited
    exact ⟨isVisited ▸ isPrefix, fun succeeded => isVisited.trans (whole succeeded)⟩

/-- A file system with one folder `d` below its root, and one file in it. -/
def oneFile (root : String) : SourceFs Unit where
  readDir path :=
    if path.components = (Path.mk root).components then
      .ok [⟨"d", (Path.mk root).join ⟨"d"⟩, 0, none, .dir⟩]
    else if path.components = ((Path.mk root).join ⟨"d"⟩).components then
      .ok [⟨"x", (Path.mk root).join ⟨"d/x"⟩, 5, some 9, .file⟩]
    else .error ()
  stat _ := .error ()

/-- A file system with nothing below any folder. -/
def noFile : SourceFs Unit where
  readDir _ := .ok []
  stat _ := .error ()

/-- The tree of `oneFile`. -/
def oneFileTree : Tree :=
  (Tree.new.insert ⟨"d"⟩ ⟨.dir, 0, none⟩).insert ⟨"d/x"⟩ ⟨.file, 5, some 9⟩

theorem scanTree_oneFile :
    scanTree (oneFile "/l") ⟨"/l"⟩ true (fun _ => false) 3 = .ok ⟨oneFileTree, 0⟩ := rfl

theorem scanTree_noFile : scanTree noFile ⟨"/r"⟩ true (fun _ => false) 3 = .ok ⟨.new, 0⟩ := rfl

/-- The sync of one new file in a folder uploads it. -/
theorem sync_staysInside_oneFile :
    let plan := planOf 0 0 ⟨"/l"⟩ ⟨"/r"⟩ ⟨.localToRemote, .time, true⟩ 0 true ⟨oneFileTree, 0⟩
      ⟨.new, 0⟩
    SyncsBelow oneFileTree .new ⟨"/l"⟩ ⟨"/r"⟩ (chooseFiles plan [(0, .upload)]).uploads ∧
      (chooseFiles plan [(0, .upload)]).uploads.map PlannedFile.destination = [⟨"/r/d/x"⟩] := by
  have inside := @sync_staysInside Unit Unit (oneFile "/l") noFile ⟨"/l"⟩ ⟨"/r"⟩
    ⟨.localToRemote, .time, true⟩ (fun _ => false) (fun _ => false) 3 ⟨oneFileTree, 0⟩ ⟨.new, 0⟩
    rfl 0 0 0 true [(0, .upload)]
  exact ⟨inside.2.2.1, by decide⟩

end Sync

end Porthmos
