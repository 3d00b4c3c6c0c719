import Porthmos.SyncRun

/-!
# What a sync writes through

Above a listed path the two trees do not differ in kind.  As the source holds folders
above every path, the target holds nothing but folders there.
-/

namespace Porthmos

namespace Sync

variable {error : Type*}

/-- The source holds a file at the path; the target holds a file or nothing there, and
nothing but folders above it. -/
structure CopiesFile (source target : Tree) (path : Path) : Prop where
  copied : ∃ entry, source.get? path = some entry ∧ entry.kind = .file
  replaced : ∀ entry, target.get? path = some entry → entry.kind = .file
  above : ∀ ancestor ∈ path.properAncestors, ∀ entry, target.get? ancestor = some entry →
    entry.kind = .dir

/-- Where a verdict is not about kinds, there is nothing but files. -/
theorem files_of_verdictOf {options : SyncOptions} {tolerance : UInt64} {targetKeepsTimes : Bool}
    {localEntry remoteEntry : Option TreeEntry} {verdict : Verdict}
    (isVerdict : verdictOf options tolerance targetKeepsTimes localEntry remoteEntry = some verdict)
    (notKinds : verdict.reason ≠ .kindMismatch) :
    (∀ entry, localEntry = some entry → entry.kind = .file) ∧
      ∀ entry, remoteEntry = some entry → entry.kind = .file := by
  cases localEntry with
  | none =>
    cases remoteEntry with
    | none => cases isVerdict
    | some remoteEntry =>
      simp only [verdictOf] at isVerdict
      split_ifs at isVerdict with isFile
      simpa using isFile
  | some localEntry =>
    cases remoteEntry with
    | none =>
      simp only [verdictOf] at isVerdict
      split_ifs at isVerdict with isFile
      simpa using isFile
    | some remoteEntry =>
      simp only [verdictOf] at isVerdict
      split_ifs at isVerdict with differ isFile
      · cases isVerdict
        exact absurd rfl notKinds
      · have same := not_not.mp differ
        constructor
        · rintro entry ⟨⟩
          exact isFile
        · rintro entry ⟨⟩
          exact same ▸ isFile

theorem sides_of_accepts {item : SyncItem} {direction : SyncDirection} :
    (accepts item direction .upload = true → item.reason ≠ .kindMismatch ∧ item.local.isSome) ∧
      (accepts item direction .download = true →
        item.reason ≠ .kindMismatch ∧ item.remote.isSome) := by
  unfold accepts SyncItem.allows SyncItem.allowedActions
  by_cases kinds : item.reason = .kindMismatch
  · rw [if_pos kinds]
    exact ⟨by simp, by simp⟩
  · rw [if_neg kinds]
    constructor
    · intro accepted
      have allowed := of_decide_eq_true ((Bool.and_eq_true _ _).mp accepted).1
      dsimp only at allowed
      exact ⟨kinds, by split_ifs at allowed <;> simp_all⟩
    · intro accepted
      have allowed := of_decide_eq_true ((Bool.and_eq_true _ _).mp accepted).1
      dsimp only at allowed
      exact ⟨kinds, by split_ifs at allowed <;> simp_all⟩

theorem folders_above {source target : Tree} {path : Path} (sourceRooted : source.Rooted)
    (targetRooted : target.Rooted) (present : (source.get? path).isSome)
    (agree : ∀ ancestor ∈ path.properAncestors, ∀ sourceEntry targetEntry,
      source.get? ancestor = some sourceEntry → target.get? ancestor = some targetEntry →
        sourceEntry.kind = targetEntry.kind) :
    ∀ ancestor ∈ path.properAncestors, ∀ entry, target.get? ancestor = some entry →
      entry.kind = .dir := by
  intro ancestor above entry found
  obtain ⟨names, notEmpty, isAncestor⟩ := targetRooted.plain ancestor (by simp [found])
  obtain ⟨sourceEntry, sourceFound, isFolder⟩ :=
    sourceRooted.folders path present ancestor above (by simp [isAncestor, notEmpty])
  rw [← agree ancestor above sourceEntry entry sourceFound found, isFolder]

theorem agree_of_not_pruned {localTree remoteTree : Tree} {path : Path}
    (notPruned : ¬ Pruned localTree remoteTree path) {ancestor : Path}
    (above : ancestor ∈ path.properAncestors) {localEntry remoteEntry : TreeEntry}
    (isLocal : localTree.get? ancestor = some localEntry)
    (isRemote : remoteTree.get? ancestor = some remoteEntry) :
    localEntry.kind = remoteEntry.kind := by
  by_contra different
  exact notPruned ⟨ancestor, above, by simp [kindsDiffer, isLocal, isRemote, different]⟩

section Kinds

variable {localTree remoteTree : Tree} {options : SyncOptions} {tolerance : UInt64}
  {targetKeepsTimes : Bool} {item : SyncItem}

theorem copiesFile_of_upload (localRooted : localTree.Rooted) (remoteRooted : remoteTree.Rooted)
    (listed : item ∈ compare localTree remoteTree options tolerance targetKeepsTimes)
    {direction : SyncDirection} (accepted : accepts item direction .upload = true) :
    CopiesFile localTree remoteTree item.path := by
  obtain ⟨path, _, count, verdict, notPruned, isVerdict, rfl⟩ := mem_compare listed
  obtain ⟨notKinds, hasLocal⟩ := sides_of_accepts.1 accepted
  obtain ⟨localFile, remoteFile⟩ := files_of_verdictOf isVerdict notKinds
  have present : (localTree.get? path).isSome := by simpa [itemOf] using hasLocal
  obtain ⟨entry, found⟩ := Option.isSome_iff_exists.mp present
  refine ⟨⟨entry, found, localFile entry found⟩, remoteFile, ?_⟩
  exact folders_above localRooted remoteRooted present
    fun ancestor above _ _ isLocal isRemote => agree_of_not_pruned notPruned above isLocal isRemote

theorem copiesFile_of_download (localRooted : localTree.Rooted) (remoteRooted : remoteTree.Rooted)
    (listed : item ∈ compare localTree remoteTree options tolerance targetKeepsTimes)
    {direction : SyncDirection} (accepted : accepts item direction .download = true) :
    CopiesFile remoteTree localTree item.path := by
  obtain ⟨path, _, count, verdict, notPruned, isVerdict, rfl⟩ := mem_compare listed
  obtain ⟨notKinds, hasRemote⟩ := sides_of_accepts.2 accepted
  obtain ⟨localFile, remoteFile⟩ := files_of_verdictOf isVerdict notKinds
  have present : (remoteTree.get? path).isSome := by simpa [itemOf] using hasRemote
  obtain ⟨entry, found⟩ := Option.isSome_iff_exists.mp present
  refine ⟨⟨entry, found, remoteFile entry found⟩, localFile, ?_⟩
  exact folders_above remoteRooted localRooted present fun ancestor above _ _ isRemote isLocal =>
    (agree_of_not_pruned notPruned above isLocal isRemote).symm

theorem not_below_of_kindsDiffer
    (listed : item ∈ compare localTree remoteTree options tolerance targetKeepsTimes) {path : Path}
    (differ : kindsDiffer localTree remoteTree path) :
    ∀ ancestor ∈ item.path.properAncestors, ancestor.components ≠ path.components := by
  obtain ⟨itemPath, _, count, verdict, notPruned, _, rfl⟩ := mem_compare listed
  intro ancestor above same
  exact notPruned ⟨ancestor, above, by rwa [kindsDiffer_congr same]⟩

end Kinds

/-- A sync copies files onto files or where there is nothing, in folders, and lists
nothing below a path where the two sides differ in kind. -/
theorem sync_keepsKinds (localFs remoteFs : SourceFs error) (localRoot remoteRoot : Path)
    (localSubfolders remoteSubfolders : Bool) (localCancel remoteCancel : Nat → Bool)
    (localFuel remoteFuel : Nat) (localScan remoteScan : Scanned)
    (localScanned : scanTree localFs localRoot localSubfolders localCancel localFuel = .ok localScan)
    (remoteScanned : scanTree remoteFs remoteRoot remoteSubfolders remoteCancel remoteFuel =
      .ok remoteScan)
    (syncId session : Nat) (options : SyncOptions) (tolerance : UInt64) (targetKeepsTimes : Bool)
    (choices : List (Nat × SyncAction)) :
    let plan := planOf syncId session localRoot remoteRoot options tolerance targetKeepsTimes
      localScan remoteScan
    let chosen := chooseFiles plan choices
    (∀ file ∈ chosen.uploads, ∃ item ∈ plan.items, plannedFile plan item .upload = some file ∧
      CopiesFile localScan.tree remoteScan.tree item.path) ∧
    (∀ file ∈ chosen.downloads, ∃ item ∈ plan.items, plannedFile plan item .download = some file ∧
      CopiesFile remoteScan.tree localScan.tree item.path) ∧
    ∀ path, kindsDiffer localScan.tree remoteScan.tree path → ∀ item ∈ plan.items,
      ∀ ancestor ∈ item.path.properAncestors, ancestor.components ≠ path.components := by
  have localRooted := scanTree_rooted localScanned
  have remoteRooted := scanTree_rooted remoteScanned
  have chosen := chosen_chooseFiles (planOf syncId session localRoot remoteRoot options tolerance
    targetKeepsTimes localScan remoteScan) choices
  refine ⟨fun file member => ?_, fun file member => ?_, fun path differ item isItem => ?_⟩
  · obtain ⟨item, isItem, accepted, planned⟩ := (chosen.uploads file member).exists_item
    exact ⟨item, isItem, planned, copiesFile_of_upload localRooted remoteRooted isItem accepted⟩
  · obtain ⟨item, isItem, accepted, planned⟩ := (chosen.downloads file member).exists_item
    exact ⟨item, isItem, planned, copiesFile_of_download localRooted remoteRooted isItem accepted⟩
  · exact not_below_of_kindsDiffer isItem differ

/-- A file system with one entry `d` below its root, and nothing in it. -/
def oneEntry (root : String) (kind : FileKind) : SourceFs Unit where
  readDir path :=
    if path.components = (Path.mk root).components then
      .ok [⟨"d", (Path.mk root).join ⟨"d"⟩, 3, some 4, kind⟩]
    else .ok []
  stat _ := .error ()

/-- The tree of `oneEntry` with a link. -/
def oneLinkTree : Tree := Tree.new.insert ⟨"d"⟩ ⟨.symlink, 0, none⟩

theorem scanTree_oneLink :
    scanTree (oneEntry "/r" .symlink) ⟨"/r"⟩ true (fun _ => false) 3 = .ok ⟨oneLinkTree, 1⟩ := rfl

/-- The file `x` in the local folder `d` is not copied where the remote side holds a link
`d`. -/
theorem sync_keepsKinds_link :
    let plan := planOf 0 0 ⟨"/l"⟩ ⟨"/r"⟩ ⟨.both, .time, true⟩ 0 true ⟨oneFileTree, 0⟩
      ⟨oneLinkTree, 1⟩
    (plan.items.map fun item => (item.path, item.reason)) = [(⟨"d"⟩, .kindMismatch)] ∧
      ∀ path, kindsDiffer oneFileTree oneLinkTree path → ∀ item ∈ plan.items,
        ∀ ancestor ∈ item.path.properAncestors, ancestor.components ≠ path.components := by
  have kept := sync_keepsKinds (oneFile "/l") (oneEntry "/r" .symlink) ⟨"/l"⟩ ⟨"/r"⟩ true true
    (fun _ => false) (fun _ => false) 3 3 ⟨oneFileTree, 0⟩ ⟨oneLinkTree, 1⟩ scanTree_oneFile
    scanTree_oneLink 0 0 ⟨.both, .time, true⟩ 0 true []
  exact ⟨by decide, kept.2.2⟩

end Sync

end Porthmos
