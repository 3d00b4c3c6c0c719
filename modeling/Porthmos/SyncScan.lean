import Porthmos.Plan
import Porthmos.SyncItems

/-!
# Scanning a folder

`scan_tree` turns what a walk through a folder has found into a tree, and refuses
listings whose paths lead outside the folder, stand twice, or have no folder above
them.  No path of a tree that was not refused leaves the folder.
-/

namespace Porthmos

variable {error : Type*}

namespace Path

def isPlain (path : Path) : Bool :=
  decide (0 < path.components.length) && path.components.all fun component =>
    match component with
    | .normal _ => true
    | _ => false

end Path

structure Scanned where
  tree : Tree
  skippedSymlinks : Nat

/-- Why a listing is refused. -/
inductive Refusal
  | leadsOutside (path : Path)
  | withoutFolder (path : Path)
  | nested (path : Path)
  | repeated (path : Path)
  deriving DecidableEq, Repr

/-- The text of a refusal; `debug` shows a path as `{:?}` does. -/
def Refusal.message (debug : Path → String) : Refusal → String
  | leadsOutside path => "The listing contains the path " ++ debug path ++
      ", which would lead outside the chosen folder"
  | withoutFolder path => "The listing contains the path " ++ debug path ++
      ", but not the folder it should be in"
  | nested path => "The listing contains the nested path " ++ debug path ++
      " although subfolders are off"
  | repeated path => "The listing contains the path " ++ debug path ++ " more than once"

namespace Sync

def checkRelative (path : Path) : Except Refusal Unit :=
  if path.isPlain then .ok () else .error (.leadsOutside path)

def checkParentIsAFolder (tree : Tree) (path : Path) : Except Refusal Unit :=
  match path.parent.filter fun parent => parent.text ≠ "" with
  | none => .ok ()
  | some parent =>
    if (tree.get? parent).any fun entry => entry.kind = .dir then .ok ()
    else .error (.withoutFolder path)

def checkDepth (path : Path) (subfolders : Bool) : Except Refusal Unit :=
  if subfolders ∨ path.components.length ≤ 1 then .ok () else .error (.nested path)

def insertOnce (tree : Tree) (path : Path) (entry : TreeEntry) : Except Refusal Tree :=
  if tree.containsKey path then .error (.repeated path) else .ok (tree.insert path entry)

/-- The loops of `build_tree` that enter the paths of one kind. -/
def insertPaths : List (Path × TreeEntry) → Tree → Except Refusal Tree
  | [], tree => .ok tree
  | (path, entry) :: rest, tree =>
    match checkRelative path with
    | .error refusal => .error refusal
    | .ok () =>
      match insertOnce tree path entry with
      | .error refusal => .error refusal
      | .ok tree => insertPaths rest tree

/-- The loop of `build_tree` over the keys of the tree. -/
def checkKeys (tree : Tree) (subfolders : Bool) : List Path → Except Refusal Unit
  | [] => .ok ()
  | path :: rest =>
    match checkDepth path subfolders with
    | .error refusal => .error refusal
    | .ok () =>
      match checkParentIsAFolder tree path with
      | .error refusal => .error refusal
      | .ok () => checkKeys tree subfolders rest

/-- The paths of a walk in the order in which `build_tree` enters them. -/
def foundEntries (found : DiscoveredTree) : List (Path × TreeEntry) :=
  (found.directories.map fun directory => (directory, ⟨.dir, 0, none⟩)) ++
    (found.files.map fun (path, size, modified) => (path, ⟨.file, size, modified.map UInt64.ofNat⟩)) ++
    found.symlinks.map fun path => (path, ⟨.symlink, 0, none⟩)

def buildTree (found : DiscoveredTree) (subfolders : Bool) : Except Refusal Scanned :=
  match insertPaths (foundEntries found) .new with
  | .error refusal => .error refusal
  | .ok tree =>
    match checkKeys tree subfolders tree.keys with
    | .error refusal => .error refusal
    | .ok () => .ok ⟨tree, found.skippedSymlinks⟩

/-- Why a scan fails. -/
inductive ScanError (error : Type*)
  | fileSystem (reason : error)
  | refused (refusal : Refusal)

def scanTree (fs : SourceFs error) (root : Path) (subfolders : Bool) (cancel : Nat → Bool)
    (fuel : Nat) : Except (Stop (ScanError error)) Scanned :=
  match discover fs root subfolders cancel fuel 0 with
  | .error .cancelled => .error .cancelled
  | .error .outOfFuel => .error .outOfFuel
  | .error (.failed reason) => .error (.failed (.fileSystem reason))
  | .ok walked =>
    match buildTree walked.tree subfolders with
    | .error refusal => .error (.failed (.refused refusal))
    | .ok scanned => .ok scanned

/-- Both folders are scanned at the same time.  A failure of either one wins over a
cancelled scan of the other. -/
def scanBoth (localFs : SourceFs error) (localRoot : Path) (remoteFs : SourceFs error)
    (remoteRoot : Path) (subfolders : Bool) (localCancel remoteCancel : Nat → Bool) (fuel : Nat) :
    Except (Stop (ScanError error)) (Scanned × Scanned) :=
  match scanTree localFs localRoot subfolders localCancel fuel,
    scanTree remoteFs remoteRoot subfolders remoteCancel fuel with
  | .ok localScan, .ok remoteScan => .ok (localScan, remoteScan)
  | .error (.failed reason), _ => .error (.failed reason)
  | _, .error (.failed reason) => .error (.failed reason)
  | .error stop, _ => .error stop
  | _, .error stop => .error stop

end Sync

/-! ### Trees that stay inside -/

/-- Every path of the tree is a sequence of names, and above it stand only folders of
the tree. -/
structure Tree.Rooted (tree : Tree) : Prop where
  plain : ∀ path, (tree.get? path).isSome → ∃ names : List String, names ≠ [] ∧
    path.components = names.map .normal
  folders : ∀ path, (tree.get? path).isSome → ∀ ancestor ∈ path.properAncestors,
    ancestor.components ≠ [] → ∃ entry, tree.get? ancestor = some entry ∧ entry.kind = .dir

namespace Path

theorem isPlain_iff {path : Path} :
    path.isPlain = true ↔ ∃ names : List String, names ≠ [] ∧ path.components = names.map .normal := by
  unfold isPlain
  constructor
  · intro plain
    obtain ⟨notEmpty, all⟩ := (Bool.and_eq_true _ _).mp plain
    have named : ∀ components : List Component, (components.all fun component =>
        match component with
        | .normal _ => true
        | _ => false) = true → ∃ names : List String, components = names.map .normal := by
      intro components
      induction components with
      | nil => exact fun _ => ⟨[], rfl⟩
      | cons component rest ih =>
        intro all
        obtain ⟨isName, rests⟩ := (Bool.and_eq_true _ _).mp (List.all_cons ▸ all)
        obtain ⟨names, rfl⟩ := ih rests
        cases component with
        | normal name => exact ⟨name :: names, rfl⟩
        | _ => cases isName
    obtain ⟨names, isPath⟩ := named _ all
    refine ⟨names, ?_, isPath⟩
    rintro rfl
    simp [isPath] at notEmpty
  · rintro ⟨names, notEmpty, isPath⟩
    rw [isPath]
    simp [List.length_pos_iff, notEmpty]

end Path

namespace Sync

theorem insertPaths_plain {entries : List (Path × TreeEntry)} {tree result : Tree}
    (inserted : insertPaths entries tree = .ok result)
    (plain : ∀ path, (tree.get? path).isSome → path.isPlain = true) :
    ∀ path, (result.get? path).isSome → path.isPlain = true := by
  induction entries generalizing tree with
  | nil =>
    cases inserted
    exact plain
  | cons entry rest ih =>
    obtain ⟨path, entry⟩ := entry
    unfold insertPaths checkRelative insertOnce at inserted
    by_cases isPlain : path.isPlain = true
    · rw [if_pos isPlain] at inserted
      by_cases contained : tree.containsKey path = true
      · rw [if_pos contained] at inserted
        cases inserted
      · rw [if_neg contained] at inserted
        refine ih inserted fun other present => ?_
        rw [Tree.get?_insert] at present
        split_ifs at present with same
        · rw [Path.isPlain, same]
          exact isPlain
        · exact plain other present
    · rw [if_neg isPlain] at inserted
      cases inserted

theorem checkKeys_ok {tree : Tree} {subfolders : Bool} {keys : List Path}
    (checked : checkKeys tree subfolders keys = .ok ()) :
    ∀ key ∈ keys, checkParentIsAFolder tree key = .ok () := by
  induction keys with
  | nil => simp
  | cons key rest ih =>
    unfold checkKeys at checked
    cases depth : checkDepth key subfolders with
    | error refusal => simp [depth] at checked
    | ok _ =>
      cases parent : checkParentIsAFolder tree key with
      | error refusal => simp [depth, parent] at checked
      | ok _ =>
        simp only [depth, parent] at checked
        exact List.forall_mem_cons.mpr ⟨parent, ih checked⟩

theorem parent_of_check {tree : Tree} {key parent : Path}
    (checked : checkParentIsAFolder tree key = .ok ()) (found : key.parent = some parent)
    (notEmpty : parent.components ≠ []) :
    ∃ entry, tree.get? parent = some entry ∧ entry.kind = .dir := by
  have hasText : parent.text ≠ "" := fun empty => notEmpty (by
    rw [Path.components, Path.segments, empty]
    decide)
  unfold checkParentIsAFolder at checked
  rw [found, Option.filter_some, if_pos (by simpa using hasText)] at checked
  dsimp only at checked
  split_ifs at checked with isFolder
  cases isEntry : tree.get? parent with
  | none => simp [isEntry] at isFolder
  | some entry => exact ⟨entry, rfl, by simpa [isEntry] using isFolder⟩

/-- A tree that was not refused stays inside its folder. -/
theorem buildTree_rooted {found : DiscoveredTree} {subfolders : Bool} {scanned : Scanned}
    (built : buildTree found subfolders = .ok scanned) : scanned.tree.Rooted := by
  unfold buildTree at built
  cases inserted : insertPaths (foundEntries found) .new with
  | error refusal => simp [inserted] at built
  | ok tree =>
    cases checked : checkKeys tree subfolders tree.keys with
    | error refusal => simp [inserted, checked] at built
    | ok _ =>
      simp only [inserted, checked, Except.ok.injEq] at built
      subst built
      have plain := insertPaths_plain inserted (by simp [Tree.new, Tree.get?])
      have parents := checkKeys_ok checked
      refine ⟨fun path present => Path.isPlain_iff.mp (plain path present), ?_⟩
      intro path
      generalize count : path.components.length = length
      induction length generalizing path with
      | zero =>
        intro present
        obtain ⟨names, notEmpty, isPath⟩ := Path.isPlain_iff.mp (plain path present)
        simp [isPath, notEmpty] at count
      | succ length ih =>
        intro present ancestor above notEmpty
        obtain ⟨key, isKey, same⟩ := Tree.exists_mem_keys_iff.mpr present
        obtain ⟨keyAncestor, keyAbove, isAncestor⟩ :=
          Path.exists_mem_properAncestors_congr same.symm above
        rw [← tree.get?_congr isAncestor]
        cases isParent : key.parent with
        | none => simp [Path.properAncestors_of_none isParent] at keyAbove
        | some parent =>
          rw [Path.properAncestors_of_parent isParent, Path.ancestors_eq_cons] at keyAbove
          rcases List.mem_cons.mp keyAbove with rfl | farAbove
          · exact parent_of_check (parents key isKey) isParent (isAncestor ▸ notEmpty)
          · have shorter : parent.components.length = length := by
              rw [(Path.components_parent isParent).2, List.length_dropLast, same, count]
              rfl
            obtain ⟨isPrefix, _⟩ := Path.components_of_mem_properAncestors farAbove
            have parentNotEmpty : parent.components ≠ [] := by
              intro empty
              rw [empty, List.prefix_nil] at isPrefix
              exact notEmpty (isAncestor ▸ isPrefix)
            obtain ⟨entry, isEntry, _⟩ :=
              parent_of_check (parents key isKey) isParent parentNotEmpty
            exact ih parent shorter (by simp [isEntry]) keyAncestor farAbove (isAncestor ▸ notEmpty)

theorem scanTree_rooted {fs : SourceFs error} {root : Path} {subfolders : Bool}
    {cancel : Nat → Bool} {fuel : Nat} {scanned : Scanned}
    (succeeded : scanTree fs root subfolders cancel fuel = .ok scanned) : scanned.tree.Rooted := by
  unfold scanTree at succeeded
  cases walked : discover fs root subfolders cancel fuel 0 with
  | error stop => cases stop <;> simp [walked] at succeeded
  | ok walk =>
    cases built : buildTree walk.tree subfolders with
    | error refusal => simp [walked, built] at succeeded
    | ok tree =>
      simp only [walked, built, Except.ok.injEq] at succeeded
      subst succeeded
      exact buildTree_rooted built

theorem scanBoth_rooted {localFs remoteFs : SourceFs error} {localRoot remoteRoot : Path}
    {subfolders : Bool} {localCancel remoteCancel : Nat → Bool} {fuel : Nat}
    {localScan remoteScan : Scanned}
    (succeeded : scanBoth localFs localRoot remoteFs remoteRoot subfolders localCancel remoteCancel
      fuel = .ok (localScan, remoteScan)) :
    localScan.tree.Rooted ∧ remoteScan.tree.Rooted := by
  unfold scanBoth at succeeded
  cases isLocal : scanTree localFs localRoot subfolders localCancel fuel with
  | error stop =>
    cases stop <;> cases isRemote : scanTree remoteFs remoteRoot subfolders remoteCancel fuel with
    | error other => cases other <;> simp [isLocal, isRemote] at succeeded
    | ok scanned => simp [isLocal, isRemote] at succeeded
  | ok localFound =>
    cases isRemote : scanTree remoteFs remoteRoot subfolders remoteCancel fuel with
    | error stop => cases stop <;> simp [isLocal, isRemote] at succeeded
    | ok remoteFound =>
      simp only [isLocal, isRemote, Except.ok.injEq, Prod.mk.injEq] at succeeded
      obtain ⟨rfl, rfl⟩ := succeeded
      exact ⟨scanTree_rooted isLocal, scanTree_rooted isRemote⟩

end Sync

end Porthmos
