import Porthmos.FileSystem
import Mathlib.Data.List.Sort

/-!
# Planning a copy

`plan_copy` walks through the chosen entries of the source, creates the
directories of the copy at the destination, and looks up what is already there.
`cancel` tells what the cancel flag holds each time it is read; `fuel` bounds the
depth of the directories below an entry.
-/

namespace Porthmos

structure ExistingFile where
  size : Nat
  modified : Option Nat
  isDir : Bool
  deriving DecidableEq, Repr

/-- `ExistingFile::from` -/
def ExistingFile.ofMetadata (metadata : Metadata) : ExistingFile where
  size := metadata.size
  modified := metadata.modified
  isDir := metadata.isDir

/-- What a directory of the destination holds, by name.  A later entry of one name
stands in front. -/
abbrev DestinationListing := List (String × ExistingFile)

structure PlannedFile where
  source : Path
  destination : Path
  displayName : String
  size : Nat
  existing : Option ExistingFile
  sourceModified : Option Nat
  partialFile : Option ExistingFile
  resume : Bool
  deriving DecidableEq, Repr

def PlannedFile.isConflict (file : PlannedFile) : Bool :=
  file.existing.isSome || file.partialFile.isSome

/-- The names of a directory that a renamed file must not get.  Directories are
compared by their components. -/
abbrev TakenNames := List Component → List String

structure DirectoryPlan where
  files : List PlannedFile
  skippedSymlinks : Nat
  takenNames : TakenNames

/-- Why planning stops early.  The source recurses to any depth; it never runs out of
fuel. -/
inductive Stop (error : Type*)
  | cancelled
  | failed (reason : error)
  | outOfFuel

variable {error state : Type*}

/-! ### Discovery -/

structure DiscoveredTree where
  directories : List Path
  files : List (Path × Nat × Option Nat)
  skippedSymlinks : Nat
  symlinks : List Path

def DiscoveredTree.empty : DiscoveredTree := ⟨[], [], 0, []⟩

/-- What a walk has found, and how often it has read the cancel flag. -/
structure Walked where
  tree : DiscoveredTree
  checks : Nat

section Discover

variable (fs : SourceFs error) (root : Path) (recursive : Bool) (cancel : Nat → Bool)

/-- The loop of `discover_tree_into` over the items of one directory. -/
def discoverItems (walkInto : Path → Walked → Except (Stop error) Walked) (relative : Path) :
    List DirItem → Walked → Except (Stop error) Walked
  | [], walked => .ok walked
  | item :: items, ⟨tree, checks⟩ =>
    if cancel checks then .error .cancelled
    else
      let entryRelative := relative.join ⟨item.name⟩
      match item.metadata.kind with
      | .symlink =>
        discoverItems walkInto relative items
          ⟨{ tree with
              skippedSymlinks := tree.skippedSymlinks + 1
              symlinks := tree.symlinks ++ [entryRelative] }, checks + 1⟩
      | .dir =>
        let walked : Walked :=
          ⟨{ tree with directories := tree.directories ++ [entryRelative] }, checks + 1⟩
        if recursive then
          match walkInto entryRelative walked with
          | .error stop => .error stop
          | .ok walked => discoverItems walkInto relative items walked
        else discoverItems walkInto relative items walked
      | .file =>
        discoverItems walkInto relative items
          ⟨{ tree with
              files := tree.files ++
                [(entryRelative, item.metadata.size, item.metadata.modified)] }, checks + 1⟩

def discoverTreeInto : Nat → Path → Walked → Except (Stop error) Walked
  | 0, _, _ => .error .outOfFuel
  | fuel + 1, relative, walked =>
    match fs.readDir (root.join relative) with
    | .error reason => .error (.failed reason)
    | .ok items => discoverItems recursive cancel (discoverTreeInto fuel) relative items walked

def discover (fuel checks : Nat) : Except (Stop error) Walked :=
  discoverTreeInto fs root recursive cancel fuel ⟨""⟩ ⟨.empty, checks⟩

end Discover

def discoverTree (fs : SourceFs error) (root : Path) (cancel : Nat → Bool) (fuel checks : Nat) :
    Except (Stop error) Walked :=
  discover fs root true cancel fuel checks

/-! ### Entries -/

/-- `ensure_directory`: the destination afterwards, and whether the directory is new. -/
def ensureDirectory (fs : DestinationFs error state) (destination : state) (path : Path) :
    Except error (state × Bool) :=
  match fs.stat destination path with
  | .ok metadata =>
    if metadata.isDir then .ok (destination, false)
    else (fs.createDir destination path).map fun destination => (destination, true)
  | .error _ => (fs.createDir destination path).map fun destination => (destination, true)

def plannedFileForLooseEntry (entry : Entry) (destDir : Path) : PlannedFile where
  source := entry.path
  destination := destDir.join ⟨entry.name⟩
  displayName := entry.name
  size := entry.size
  existing := none
  sourceModified := none
  partialFile := none
  resume := false

def plannedFilesForTree (entry : Entry) (destRoot : Path) (tree : DiscoveredTree) :
    List PlannedFile :=
  tree.files.map fun (relativeFile, size, modified) =>
    { source := entry.path.join relativeFile
      destination := destRoot.join relativeFile
      displayName := relativeFile.text
      size := size
      existing := none
      sourceModified := modified
      partialFile := none
      resume := false }

/-- The state of `plan_copy`: the destination, the directories it has created there,
what it has planned, and how often it has read the cancel flag. -/
structure Planning (state : Type*) where
  destination : state
  created : List Path
  files : List PlannedFile
  skippedSymlinks : Nat
  checks : Nat

section Entries

variable (source : SourceFs error) (fs : DestinationFs error state) (cancel : Nat → Bool)
  (fuel : Nat) (destDir : Path)

def ensureDirectories : List Path → Planning state → Planning state × Option (Stop error)
  | [], planning => (planning, none)
  | directory :: directories, planning =>
    if cancel planning.checks then (planning, some .cancelled)
    else
      let planning := { planning with checks := planning.checks + 1 }
      match ensureDirectory fs planning.destination directory with
      | .error reason => (planning, some (.failed reason))
      | .ok (destination, isNew) =>
        ensureDirectories directories
          { planning with
            destination := destination
            created := if isNew then planning.created ++ [directory] else planning.created }

/-- The directories that the copy of an entry needs. -/
def directoriesOf (destRoot : Path) (tree : DiscoveredTree) : List Path :=
  destRoot :: tree.directories.map destRoot.join

/-- The loop of `plan_copy` at one entry. -/
def planEntry (entry : Entry) (planning : Planning state) : Planning state × Option (Stop error) :=
  if cancel planning.checks then (planning, some .cancelled)
  else
    let planning := { planning with checks := planning.checks + 1 }
    if entry.isDir then
      match discoverTree source entry.path cancel fuel planning.checks with
      | .error stop => (planning, some stop)
      | .ok ⟨tree, checks⟩ =>
        let destRoot := destDir.join ⟨entry.name⟩
        match ensureDirectories fs cancel (directoriesOf destRoot tree)
          { planning with
            skippedSymlinks := planning.skippedSymlinks + tree.skippedSymlinks
            checks := checks } with
        | (planning, some stop) => (planning, some stop)
        | (planning, none) =>
          ({ planning with
              files := planning.files ++ plannedFilesForTree entry destRoot tree }, none)
    else ({ planning with files := planning.files ++ [plannedFileForLooseEntry entry destDir] }, none)

def planEntries : List Entry → Planning state → Planning state × Option (Stop error)
  | [], planning => (planning, none)
  | entry :: entries, planning =>
    match planEntry source fs cancel fuel destDir entry planning with
    | (planning, some stop) => (planning, some stop)
    | (planning, none) => planEntries entries planning

end Entries

/-! ### Conflicts -/

def destinationParentAndName (file : PlannedFile) : Option (Path × String) :=
  match file.destination.parent, file.destination.fileName with
  | some parent, some name => some (parent, name)
  | _, _ => none

/-- The order of `Component`. -/
def Component.precedes : Component → Component → Bool
  | .rootDir, _ => true
  | .curDir, .rootDir => false
  | .curDir, _ => true
  | .parentDir, .rootDir | .parentDir, .curDir => false
  | .parentDir, _ => true
  | .normal first, .normal second => decide (first ≤ second)
  | .normal _, _ => false

/-- The order of `Path`. -/
def componentsPrecede : List Component → List Component → Bool
  | [], _ => true
  | _ :: _, [] => false
  | first :: firsts, second :: seconds =>
    if first = second then componentsPrecede firsts seconds else first.precedes second

/-- `dedup`: of neighbours with the same components the first is kept. -/
def dedupNeighbours : List Path → List Path
  | [] => []
  | path :: paths =>
    match dedupNeighbours paths with
    | [] => [path]
    | next :: rest =>
      if path.components = next.components then path :: rest else path :: next :: rest

def parentsNeedingListing (files : List PlannedFile) (created : List Path) : List Path :=
  let parents := (files.filterMap destinationParentAndName).map Prod.fst
  let needed := parents.filter fun parent =>
    !created.any fun directory => directory.components = parent.components
  dedupNeighbours (needed.insertionSort fun first second =>
    componentsPrecede first.components second.components)

def namesByParent (files : List PlannedFile) (parent : Path) : List String :=
  ((files.filterMap destinationParentAndName).filter fun entry =>
    entry.1.components = parent.components).map Prod.snd

/-- Listings are looked up by the components of their directory. -/
abbrev Listings := List (List Component × DestinationListing)

def listedFile (listings : Listings) (parent : Path) (name : String) : Option ExistingFile :=
  (listings.lookup parent.components).bind fun listing => listing.lookup name

def markConflict (listings : Listings) (file : PlannedFile) : PlannedFile :=
  match destinationParentAndName file with
  | none => file
  | some (parent, name) =>
    { file with
      existing := listedFile listings parent name
      partialFile := (listedFile listings parent (name ++ partSuffix)).filter
        fun existing => !existing.isDir }

def markConflicts (files : List PlannedFile) (listings : Listings) : List PlannedFile :=
  files.map (markConflict listings)

def takenNames (files : List PlannedFile) (listings : Listings) : TakenNames := fun directory =>
  ((listings.lookup directory).getD []).map Prod.fst ++
    ((files.filterMap destinationParentAndName).filter fun entry =>
      entry.1.components = directory).map Prod.snd

section Listing

variable (fs : DestinationFs error state) (destination : state)

/-- What a listing says about an item: links are followed where they lead anywhere. -/
def listedItem (item : DirItem) : String × ExistingFile :=
  let metadata :=
    if item.metadata.kind = .symlink then
      match fs.stat destination item.path with
      | .ok metadata => metadata
      | .error _ => item.metadata
    else item.metadata
  (item.name, .ofMetadata metadata)

def statNames (directory : Path) : List String → DestinationListing
  | [] => []
  | name :: names =>
    match fs.stat destination (directory.join ⟨name⟩) with
    | .ok metadata => statNames directory names ++ [(name, .ofMetadata metadata)]
    | .error _ => statNames directory names

def listDestination (directory : Path) (plannedNames : List String) : DestinationListing :=
  match fs.readDir destination directory with
  | .ok items => (items.map (listedItem fs destination)).reverse
  | .error _ =>
    match fs.stat destination directory with
    | .error _ => []
    | .ok _ => statNames fs destination directory plannedNames

/-- The loop of `plan_copy` over the directories to list; `none` if it was cancelled. -/
def listDestinations (files : List PlannedFile) (cancel : Nat → Bool) :
    List Path → Nat → Option Listings
  | [], _ => some []
  | parent :: parents, checks =>
    if cancel checks then none
    else
      (listDestinations files cancel parents (checks + 1)).map fun listings =>
        (parent.components,
          listDestination fs destination parent (namesByParent files parent)) :: listings

end Listing

/-! ### The plan -/

inductive PlanOutcome (error : Type*)
  | ready (plan : DirectoryPlan)
  | stopped (stop : Stop error)

/-- What a call of `plan_copy` leaves behind. -/
structure Planned (error state : Type*) where
  outcome : PlanOutcome error
  destination : state
  created : List Path

/-- The modification times of files in conflict that the walk has not brought. -/
def withSourceModified (source : SourceFs error) (file : PlannedFile) : PlannedFile :=
  if file.isConflict ∧ file.sourceModified = none then
    match source.stat file.source with
    | .ok metadata => { file with sourceModified := metadata.modified }
    | .error _ => file
  else file

/-- The plan once every directory is listed. -/
def planFrom (source : SourceFs error) (files : List PlannedFile) (skippedSymlinks : Nat)
    (listings : Listings) : DirectoryPlan :=
  let files := (markConflicts files listings).map (withSourceModified source)
  { files := files, skippedSymlinks := skippedSymlinks, takenNames := takenNames files listings }

def planCopy (source : SourceFs error) (fs : DestinationFs error state) (destination : state)
    (entries : List Entry) (destDir : Path) (cancel : Nat → Bool) (fuel : Nat) :
    Planned error state :=
  let (planning, stop) :=
    planEntries source fs cancel fuel destDir entries ⟨destination, [], [], 0, 0⟩
  let outcome : PlanOutcome error :=
    match stop with
    | some stop => .stopped stop
    | none =>
      let parents := parentsNeedingListing planning.files planning.created
      match listDestinations fs planning.destination planning.files cancel parents
        planning.checks with
      | none => .stopped .cancelled
      | some listings => .ready (planFrom source planning.files planning.skippedSymlinks listings)
  ⟨outcome, planning.destination, planning.created⟩

end Porthmos
