import Porthmos.OrderedMap
import Porthmos.PathAncestors

/-!
# Comparing two folders

`compare` goes through the paths of two trees in order and decides for each what a
sync would do with it.  Below a path where the two trees hold different kinds of
things nothing is listed.
-/

namespace Porthmos

inductive SyncDirection
  | localToRemote
  | remoteToLocal
  | both
  deriving DecidableEq, Repr

inductive SyncBy
  | time
  | size
  deriving DecidableEq, Repr

structure SyncOptions where
  direction : SyncDirection
  syncBy : SyncBy
  subfolders : Bool
  deriving DecidableEq, Repr

/-- `SyncOptions::validate`: the message of the refusal, if there is one. -/
def SyncOptions.validate (options : SyncOptions) : Except String Unit :=
  if options.direction = .both ∧ options.syncBy = .size then
    .error "Comparing by size can't decide a direction, so it can't be used with Both"
  else .ok ()

/-- `validate().is_ok()` -/
def SyncOptions.isValid (options : SyncOptions) : Bool := options.validate.toBool

inductive SyncAction
  | upload
  | download
  | skip
  deriving DecidableEq, Repr

inductive SyncReason
  | onlyLocal
  | onlyRemote
  | localNewer
  | remoteNewer
  | targetNewer
  | sameTimeDifferentSize
  | sizeDiffers
  | sizeDiffersTimeUnknown
  | kindMismatch
  deriving DecidableEq, Repr

/-- Times are 64-bit words: they are compared with a sum that saturates. -/
structure SyncFacts where
  size : Nat
  modified : Option UInt64
  deriving DecidableEq, Repr

structure SyncItem where
  id : Nat
  path : Path
  «local» : Option SyncFacts
  remote : Option SyncFacts
  action : SyncAction
  reason : SyncReason
  ticked : Bool
  flippable : Bool
  deriving DecidableEq, Repr

namespace SyncItem

def allowedActions (item : SyncItem) (direction : SyncDirection) : List SyncAction :=
  if item.reason = .kindMismatch then [.skip]
  else
    let upload := item.local.isSome ∧ direction ≠ .remoteToLocal
    let download := item.remote.isSome ∧ direction ≠ .localToRemote
    .skip :: (if upload then [.upload] else []) ++ (if download then [.download] else [])

def allows (item : SyncItem) (action : SyncAction) (direction : SyncDirection) : Bool :=
  action ∈ item.allowedActions direction

def actionAfter (item : SyncItem) (current : SyncAction) (direction : SyncDirection) : SyncAction :=
  let allowed := item.allowedActions direction
  match allowed.findIdx? (· = current) with
  | some position => allowed.getD ((position + 1) % allowed.length) .skip
  | none => .skip

def nextAction (item : SyncItem) (direction : SyncDirection) : SyncAction :=
  item.actionAfter item.action direction

end SyncItem

structure SyncPlan where
  syncId : Nat
  session : Nat
  localRoot : Path
  remoteRoot : Path
  options : SyncOptions
  items : List SyncItem
  skippedSymlinks : Nat
  deriving DecidableEq, Repr

/-! ### Trees -/

/-- The kind of an entry is that of a listed file. -/
inductive TreeKind
  | file
  | dir
  | symlink
  deriving DecidableEq, Repr

structure TreeEntry where
  kind : TreeKind
  size : Nat
  modified : Option UInt64
  deriving DecidableEq, Repr

def TreeEntry.facts (entry : TreeEntry) : SyncFacts := ⟨entry.size, entry.modified⟩

/-- A `BTreeMap` of paths, which are compared by their components. -/
structure Tree where
  entries : OrderedMap (List Component) (Path × TreeEntry)
  keyed : ∀ key entry, entries.get? key = some entry → entry.1.components = key

namespace Tree

def new : Tree where
  entries := .empty
  keyed := by simp

def get? (tree : Tree) (path : Path) : Option TreeEntry :=
  (tree.entries.get? path.components).map Prod.snd

def containsKey (tree : Tree) (path : Path) : Bool := tree.entries.contains path.components

/-- Insertion at a path that is not there yet. -/
def insert (tree : Tree) (path : Path) (entry : TreeEntry) : Tree where
  entries := tree.entries.insert path.components (path, entry)
  keyed := by
    intro key found isFound
    rw [OrderedMap.get?_insert] at isFound
    split_ifs at isFound with same
    · rw [← Option.some.inj isFound, same]
    · exact tree.keyed key found isFound

def keys (tree : Tree) : List Path := tree.entries.values.map Prod.fst

end Tree

namespace Sync

/-! ### Verdicts -/

structure Verdict where
  action : SyncAction
  reason : SyncReason
  ticked : Bool
  deriving DecidableEq, Repr

def copy (action : SyncAction) (reason : SyncReason) : Option Verdict := some ⟨action, reason, true⟩

def ask (reason : SyncReason) : Option Verdict := some ⟨.skip, reason, false⟩

def onlyOneSide : Bool → SyncDirection → Option Verdict
  | true, .localToRemote | true, .both => copy .upload .onlyLocal
  | false, .remoteToLocal | false, .both => copy .download .onlyRemote
  | _, _ => none

def newerSide : Bool → SyncDirection → Option Verdict
  | true, .localToRemote | true, .both => copy .upload .localNewer
  | false, .remoteToLocal | false, .both => copy .download .remoteNewer
  | _, _ => ask .targetNewer

/-- The verdict on two files of different sizes when only the direction decides. -/
def bySizes (reason : SyncReason) : SyncDirection → Option Verdict
  | .localToRemote => copy .upload reason
  | .remoteToLocal => copy .download reason
  | .both => ask reason

def bySize (localEntry remoteEntry : TreeEntry) (direction : SyncDirection) : Option Verdict :=
  if localEntry.size = remoteEntry.size then none else bySizes .sizeDiffers direction

/-- `u64::saturating_add` -/
def saturatingAdd (first second : UInt64) : UInt64 :=
  if first.toNat + second.toNat < 2 ^ 64 then first + second else UInt64.ofNat (2 ^ 64 - 1)

/-- The verdict on a target that is newer is dropped where its time says nothing about
its content. -/
def unlessSilent (silent : Bool) : Option Verdict → Option Verdict
  | some found => if found.reason = .targetNewer ∧ silent then none else some found
  | none => none

def byTime (localEntry remoteEntry : TreeEntry) (direction : SyncDirection) (tolerance : UInt64)
    (targetKeepsTimes : Bool) : Option Verdict :=
  let sizesEqual := decide (localEntry.size = remoteEntry.size)
  match localEntry.modified, remoteEntry.modified with
  | some localTime, some remoteTime =>
    if localTime > saturatingAdd remoteTime tolerance then
      unlessSilent (sizesEqual && !targetKeepsTimes) (newerSide true direction)
    else if remoteTime > saturatingAdd localTime tolerance then
      unlessSilent (sizesEqual && !targetKeepsTimes) (newerSide false direction)
    else if sizesEqual then none
    else ask .sameTimeDifferentSize
  | _, _ => if sizesEqual then none else bySizes .sizeDiffersTimeUnknown direction

def Verdict.flippable (verdict : Verdict) : Bool :=
  verdict.action = .skip &&
    (verdict.reason = .targetNewer || verdict.reason = .sameTimeDifferentSize ||
      verdict.reason = .sizeDiffersTimeUnknown)

/-! ### The comparison -/

section Compare

variable (localTree remoteTree : Tree) (options : SyncOptions) (tolerance : UInt64)
  (targetKeepsTimes : Bool)

def verdictOf : Option TreeEntry → Option TreeEntry → Option Verdict
  | some localEntry, some remoteEntry =>
    if localEntry.kind ≠ remoteEntry.kind then ask .kindMismatch
    else if localEntry.kind = .file then
      match options.syncBy with
      | .size => bySize localEntry remoteEntry options.direction
      | .time => byTime localEntry remoteEntry options.direction tolerance targetKeepsTimes
    else none
  | some entry, none => if entry.kind = .file then onlyOneSide true options.direction else none
  | none, some entry => if entry.kind = .file then onlyOneSide false options.direction else none
  | none, none => none

/-- Whether the two trees hold things of different kinds at a path. -/
def kindsDiffer (path : Path) : Bool :=
  match localTree.get? path, remoteTree.get? path with
  | some localEntry, some remoteEntry => localEntry.kind ≠ remoteEntry.kind
  | _, _ => false

/-- The loop variables of `compare`. -/
structure Comparing where
  mismatched : List (List Component)
  items : List SyncItem

/-- The item a verdict makes of a path.  Its id is the number of the items before it,
cut to 32 bits. -/
def itemOf (path : Path) (count : Nat) (verdict : Verdict) : SyncItem where
  id := count % 2 ^ 32
  path := path
  «local» := (localTree.get? path).map TreeEntry.facts
  remote := (remoteTree.get? path).map TreeEntry.facts
  action := verdict.action
  reason := verdict.reason
  ticked := verdict.ticked
  flippable := verdict.flippable

/-- One round of `compare`. -/
def comparePath (comparing : Comparing) (path : Path) : Comparing :=
  if path.properAncestors.any fun ancestor => ancestor.components ∈ comparing.mismatched then
    comparing
  else
    { mismatched :=
        if kindsDiffer localTree remoteTree path then path.components :: comparing.mismatched
        else comparing.mismatched
      items :=
        match verdictOf options tolerance targetKeepsTimes (localTree.get? path)
          (remoteTree.get? path) with
        | none => comparing.items
        | some verdict =>
          comparing.items ++
            [itemOf localTree remoteTree path comparing.items.length verdict] }

/-- A `BTreeSet` of paths: of equal ones the last is kept. -/
def pathSet (paths : List Path) : OrderedMap (List Component) Path :=
  paths.foldl (fun set path => set.insert path.components path) .empty

def compare : List SyncItem :=
  if !options.isValid then []
  else
    ((pathSet (localTree.keys ++ remoteTree.keys)).values.foldl
      (comparePath localTree remoteTree options tolerance targetKeepsTimes) ⟨[], []⟩).items

end Compare

end Sync

end Porthmos
