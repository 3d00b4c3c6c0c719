import Porthmos.SyncKinds
import Porthmos.SyncSymmetry

/-!
# A sync that has nothing left to do

After every ticked item has been copied, a second comparison with the same options
ticks nothing.  A copied file has the size of its source and no earlier time; paths
that were not copied to are judged as before, and folders created on the way stand
where the other side has a folder or nothing.
-/

namespace Porthmos

namespace Sync

variable {error : Type*}

/-- Whether the target of a sync keeps times, as `start_sync` has it.  It refuses both
directions where one side cannot set times. -/
def targetKeepsTimes (direction : SyncDirection) (localSets remoteSets : Bool) : Bool :=
  match direction with
  | .localToRemote => remoteSets
  | .remoteToLocal => localSets
  | .both => true

/-- A file has been copied: sizes are equal, and so are times within the tolerance where
the target keeps them.  Elsewhere the time is unknown or no earlier than that. -/
structure Copied (keepsTimes : Bool) (tolerance : UInt64) (source copied : TreeEntry) : Prop where
  kind : copied.kind = .file
  size : copied.size = source.size
  kept : keepsTimes = true → ∀ sourceTime, source.modified = some sourceTime →
    ∃ copiedTime, copied.modified = some copiedTime ∧
      sourceTime.toNat ≤ copiedTime.toNat + tolerance.toNat ∧
      copiedTime.toNat ≤ sourceTime.toNat + tolerance.toNat
  notEarlier : ∀ sourceTime copiedTime, source.modified = some sourceTime →
    copied.modified = some copiedTime → sourceTime.toNat ≤ copiedTime.toNat + tolerance.toNat

/-- An item that a sync copies this way. -/
def SyncItem.Copies (item : SyncItem) (action : SyncAction) : Prop :=
  item.ticked = true ∧ item.action = action

/-- The target after the ticked items of one action have been performed.  Folders may have
been created above the copied files. -/
structure Performed (items : List SyncItem) (action : SyncAction) (keepsTimes : Bool)
    (tolerance : UInt64) (source target after : Tree) : Prop where
  copied : ∀ item ∈ items, SyncItem.Copies item action → ∀ entry,
    source.get? item.path = some entry →
      ∃ copied, after.get? item.path = some copied ∧ Copied keepsTimes tolerance entry copied
  elsewhere : ∀ path : Path,
    (∀ item ∈ items, SyncItem.Copies item action → item.path.components ≠ path.components) →
      after.get? path = target.get? path ∨
        (target.get? path = none ∧ (∃ entry, after.get? path = some entry ∧ entry.kind = .dir) ∧
          ∃ item ∈ items, SyncItem.Copies item action ∧
            ∃ ancestor ∈ item.path.properAncestors, ancestor.components = path.components)

/-! ### Ticked verdicts -/

/-- A ticked verdict is not about kinds and copies from a side that the direction lets it
copy from.  Any other verdict skips, and has both sides unless it is about kinds. -/
def Fits (direction : SyncDirection) (hasLocal hasRemote : Prop) (verdict : Option Verdict) : Prop :=
  ∀ found, verdict = some found →
    (found.ticked = true → found.reason ≠ .kindMismatch ∧
      ((found.action = .upload ∧ hasLocal ∧ direction ≠ .remoteToLocal) ∨
        (found.action = .download ∧ hasRemote ∧ direction ≠ .localToRemote))) ∧
    (found.ticked = false → found.action = .skip ∧
      (found.reason = .kindMismatch ∨ hasLocal ∧ hasRemote))

section Fits

variable {direction : SyncDirection} {hasLocal hasRemote : Prop}

theorem fits_none : Fits direction hasLocal hasRemote none := by
  intro found isFound
  cases isFound

theorem fits_ask {reason : SyncReason} (sides : reason = .kindMismatch ∨ hasLocal ∧ hasRemote) :
    Fits direction hasLocal hasRemote (ask reason) := by
  rintro found ⟨⟩
  exact ⟨by simp, fun _ => ⟨rfl, sides⟩⟩

theorem fits_upload {reason : SyncReason} (notKinds : reason ≠ .kindMismatch) (present : hasLocal)
    (allowed : direction ≠ .remoteToLocal) :
    Fits direction hasLocal hasRemote (copy .upload reason) := by
  rintro found ⟨⟩
  exact ⟨fun _ => ⟨notKinds, Or.inl ⟨rfl, present, allowed⟩⟩, by simp⟩

theorem fits_download {reason : SyncReason} (notKinds : reason ≠ .kindMismatch)
    (present : hasRemote) (allowed : direction ≠ .localToRemote) :
    Fits direction hasLocal hasRemote (copy .download reason) := by
  rintro found ⟨⟩
  exact ⟨fun _ => ⟨notKinds, Or.inr ⟨rfl, present, allowed⟩⟩, by simp⟩

theorem Fits.unlessSilent {verdict : Option Verdict}
    (fits : Fits direction hasLocal hasRemote verdict) (silent : Bool) :
    Fits direction hasLocal hasRemote (unlessSilent silent verdict) := by
  cases verdict with
  | none => exact fits_none
  | some found =>
    unfold Sync.unlessSilent
    dsimp only
    split_ifs
    · exact fits_none
    · exact fits

theorem fits_bySizes {reason : SyncReason} (notKinds : reason ≠ .kindMismatch) (isLocal : hasLocal)
    (isRemote : hasRemote) : Fits direction hasLocal hasRemote (bySizes reason direction) := by
  cases direction with
  | localToRemote => exact fits_upload notKinds isLocal (by decide)
  | remoteToLocal => exact fits_download notKinds isRemote (by decide)
  | both => exact fits_ask (Or.inr ⟨isLocal, isRemote⟩)

theorem fits_newerSide (localIsNewer : Bool) (isLocal : hasLocal) (isRemote : hasRemote) :
    Fits direction hasLocal hasRemote (newerSide localIsNewer direction) := by
  cases localIsNewer <;> cases direction
  · exact fits_ask (Or.inr ⟨isLocal, isRemote⟩)
  · exact fits_download (by decide) isRemote (by decide)
  · exact fits_download (by decide) isRemote (by decide)
  · exact fits_upload (by decide) isLocal (by decide)
  · exact fits_ask (Or.inr ⟨isLocal, isRemote⟩)
  · exact fits_upload (by decide) isLocal (by decide)

theorem fits_byTime (localEntry remoteEntry : TreeEntry) (tolerance : UInt64) (keepsTimes : Bool)
    (isLocal : hasLocal) (isRemote : hasRemote) :
    Fits direction hasLocal hasRemote
      (byTime localEntry remoteEntry direction tolerance keepsTimes) := by
  unfold byTime
  dsimp only
  split
  · split_ifs
    · exact (fits_newerSide true isLocal isRemote).unlessSilent _
    · exact (fits_newerSide false isLocal isRemote).unlessSilent _
    · exact fits_none
    · exact fits_ask (Or.inr ⟨isLocal, isRemote⟩)
  · split_ifs
    · exact fits_none
    · exact fits_bySizes (by decide) isLocal isRemote

theorem fits_onlyOneSide (onLocal : Bool) (isLocal : onLocal = true → hasLocal)
    (isRemote : onLocal = false → hasRemote) :
    Fits direction hasLocal hasRemote (onlyOneSide onLocal direction) := by
  cases onLocal <;> cases direction
  · exact fits_none
  · exact fits_download (by decide) (isRemote rfl) (by decide)
  · exact fits_download (by decide) (isRemote rfl) (by decide)
  · exact fits_upload (by decide) (isLocal rfl) (by decide)
  · exact fits_none
  · exact fits_upload (by decide) (isLocal rfl) (by decide)

end Fits

theorem fits_verdictOf (options : SyncOptions) (tolerance : UInt64) (keepsTimes : Bool)
    (localEntry remoteEntry : Option TreeEntry) :
    Fits options.direction (localEntry.isSome = true) (remoteEntry.isSome = true)
      (verdictOf options tolerance keepsTimes localEntry remoteEntry) := by
  cases localEntry with
  | none =>
    cases remoteEntry with
    | none => exact fits_none
    | some remoteEntry =>
      simp only [verdictOf]
      split_ifs
      · exact fits_onlyOneSide false (by simp) (by simp)
      · exact fits_none
  | some localEntry =>
    cases remoteEntry with
    | none =>
      simp only [verdictOf]
      split_ifs
      · exact fits_onlyOneSide true (by simp) (by simp)
      · exact fits_none
    | some remoteEntry =>
      simp only [verdictOf]
      split_ifs
      · exact fits_ask (Or.inl rfl)
      · cases options.syncBy with
        | size =>
          simp only [bySize]
          split_ifs
          · exact fits_none
          · exact fits_bySizes (by decide) rfl rfl
        | time => exact fits_byTime _ _ _ _ rfl rfl
      · exact fits_none

/-! ### Copied files -/

/-- A file that has been uploaded is not ticked again. -/
theorem not_ticked_of_uploaded {options : SyncOptions} {tolerance : UInt64} {keepsTimes : Bool}
    {source copied : TreeEntry} (isFile : source.kind = .file)
    (isCopied : Copied keepsTimes tolerance source copied)
    (bothKeep : options.direction = .both → keepsTimes = true)
    (upload : options.direction ≠ .remoteToLocal) {verdict : Verdict}
    (isVerdict : verdictOf options tolerance keepsTimes (some source) (some copied) = some verdict) :
    verdict.ticked = false := by
  simp only [verdictOf] at isVerdict
  rw [if_neg (by simp [isFile, isCopied.kind]), if_pos isFile] at isVerdict
  cases isBy : options.syncBy with
  | size =>
    simp only [isBy, bySize, isCopied.size, if_true] at isVerdict
    cases isVerdict
  | time =>
    simp only [isBy, byTime, isCopied.size, decide_true, if_true] at isVerdict
    cases sourceTime : source.modified with
    | none => simp [sourceTime] at isVerdict
    | some time =>
      cases copiedTime : copied.modified with
      | none => simp [sourceTime, copiedTime] at isVerdict
      | some after =>
        simp only [sourceTime, copiedTime] at isVerdict
        have notEarlier := isCopied.notEarlier time after sourceTime copiedTime
        have bound := time.toNat_lt
        have notLater : ¬ time > saturatingAdd after tolerance := by
          rw [gt_iff_lt, UInt64.lt_iff_toNat_lt, toNat_saturatingAdd]
          omega
        rw [if_neg notLater] at isVerdict
        by_cases targetLater : after > saturatingAdd time tolerance
        · rw [if_pos targetLater] at isVerdict
          cases direction : options.direction with
          | remoteToLocal => exact absurd direction upload
          | localToRemote =>
            rw [direction] at isVerdict
            simp only [newerSide, ask, unlessSilent] at isVerdict
            split_ifs at isVerdict
            cases isVerdict
            rfl
          | both =>
            obtain ⟨_, sameTime, _, within⟩ :=
              isCopied.kept (bothKeep direction) time sourceTime
            rw [copiedTime, Option.some.injEq] at sameTime
            subst sameTime
            have afterBound := after.toNat_lt
            rw [gt_iff_lt, UInt64.lt_iff_toNat_lt, toNat_saturatingAdd] at targetLater
            omega
        · rw [if_neg targetLater] at isVerdict
          cases isVerdict

theorem not_ticked_of_downloaded {options : SyncOptions} {tolerance : UInt64} {keepsTimes : Bool}
    {source copied : TreeEntry} (isFile : source.kind = .file)
    (isCopied : Copied keepsTimes tolerance source copied)
    (bothKeep : options.direction = .both → keepsTimes = true)
    (download : options.direction ≠ .localToRemote) {verdict : Verdict}
    (isVerdict : verdictOf options tolerance keepsTimes (some copied) (some source) = some verdict) :
    verdict.ticked = false := by
  have mirrored := verdictOf_mirror options tolerance keepsTimes (some copied) (some source)
  rw [isVerdict, Option.map_some] at mirrored
  suffices settled : verdict.mirror.ticked = false from settled
  refine not_ticked_of_uploaded isFile isCopied ?_ ?_ mirrored
  · intro isBoth
    apply bothKeep
    cases direction : options.direction <;> simp_all [SyncOptions.mirror, SyncDirection.mirror]
  · intro isRemoteToLocal
    apply download
    cases direction : options.direction <;> simp_all [SyncOptions.mirror, SyncDirection.mirror]

/-! ### The second comparison -/

theorem verdictOf_folders {options : SyncOptions} {tolerance : UInt64} {keepsTimes : Bool}
    {localEntry remoteEntry : Option TreeEntry}
    (isLocal : ∀ entry, localEntry = some entry → entry.kind = .dir)
    (isRemote : ∀ entry, remoteEntry = some entry → entry.kind = .dir) :
    verdictOf options tolerance keepsTimes localEntry remoteEntry = none := by
  cases localEntry with
  | none =>
    cases remoteEntry with
    | none => rfl
    | some remoteEntry => simp [verdictOf, isRemote remoteEntry rfl]
  | some localEntry =>
    cases remoteEntry with
    | none => simp [verdictOf, isLocal localEntry rfl]
    | some remoteEntry => simp [verdictOf, isLocal localEntry rfl, isRemote remoteEntry rfl]

section Converges

variable {localTree remoteTree : Tree} {options : SyncOptions} {tolerance : UInt64}
  {keepsTimes : Bool}

theorem verdict_of_mem_compare {item : SyncItem} {path : Path}
    (listed : item ∈ compare localTree remoteTree options tolerance keepsTimes)
    (same : item.path.components = path.components) :
    ∃ verdict, verdictOf options tolerance keepsTimes (localTree.get? path) (remoteTree.get? path) =
      some verdict ∧ item.action = verdict.action ∧ item.ticked = verdict.ticked := by
  obtain ⟨found, _, count, verdict, _, isVerdict, rfl⟩ := mem_compare listed
  rw [← localTree.get?_congr same, ← remoteTree.get?_congr same]
  exact ⟨verdict, isVerdict, rfl, rfl⟩

/-- A path with a verdict is listed unless it is pruned. -/
theorem exists_mem_compare (valid : options.isValid = true) {path : Path} {verdict : Verdict}
    (notPruned : ¬ Pruned localTree remoteTree path)
    (isVerdict : verdictOf options tolerance keepsTimes (localTree.get? path)
      (remoteTree.get? path) = some verdict) :
    ∃ item ∈ compare localTree remoteTree options tolerance keepsTimes,
      item.path.components = path.components ∧ item.action = verdict.action ∧
        item.ticked = verdict.ticked := by
  have present : (localTree.get? path).isSome ∨ (remoteTree.get? path).isSome := by
    cases isLocal : localTree.get? path with
    | some entry => exact Or.inl rfl
    | none =>
      cases isRemote : remoteTree.get? path with
      | some entry => exact Or.inr rfl
      | none => simp [isLocal, isRemote, verdictOf] at isVerdict
  obtain ⟨compared, isCompared, same⟩ := exists_mem_comparedPaths_iff.mpr present
  have listed : listedVerdict localTree remoteTree options tolerance keepsTimes compared =
      some verdict := by
    rw [listedVerdict, if_neg (mt (pruned_congr same) notPruned), localTree.get?_congr same,
      remoteTree.get?_congr same, isVerdict]
  have isPair : (compared, verdict) ∈ (comparedPaths localTree remoteTree).filterMap fun path =>
      (listedVerdict localTree remoteTree options tolerance keepsTimes path).map
        fun verdict => (path, verdict) :=
    List.mem_filterMap.mpr ⟨compared, isCompared, by rw [listed]; rfl⟩
  obtain ⟨count, bound, isAt⟩ := List.getElem_of_mem isPair
  refine ⟨itemOf localTree remoteTree compared count verdict, ?_, same, rfl, rfl⟩
  rw [compare_eq valid, List.mem_mapIdx]
  exact ⟨count, bound, by rw [isAt]⟩

theorem Performed.unchanged {items : List SyncItem} {action : SyncAction}
    {source target after : Tree}
    (performed : Performed items action keepsTimes tolerance source target after) {path : Path}
    (present : (target.get? path).isSome)
    (notCopied : ∀ item ∈ items, SyncItem.Copies item action →
      item.path.components ≠ path.components) :
    after.get? path = target.get? path := by
  rcases performed.elsewhere path notCopied with same | ⟨absent, _⟩
  · exact same
  · simp [absent] at present

theorem folder_of_above {items : List SyncItem} {other : SyncAction}
    {source target sourceAfter : Tree} {path : Path} (sourceRooted : source.Rooted)
    (performed : Performed items other keepsTimes tolerance target source sourceAfter)
    (notCopied : ∀ item ∈ items, SyncItem.Copies item other →
      item.path.components ≠ path.components)
    {item : SyncItem} (copiedFrom : (source.get? item.path).isSome) {ancestor : Path}
    (above : ancestor ∈ item.path.properAncestors) (same : ancestor.components = path.components)
    (entry : TreeEntry) (found : sourceAfter.get? path = some entry) : entry.kind = .dir := by
  rcases performed.elsewhere path notCopied with unchanged | ⟨_, ⟨folder, isFolder, isDir⟩, _⟩
  · rw [unchanged] at found
    obtain ⟨names, notEmpty, isPath⟩ := sourceRooted.plain path (by simp [found])
    obtain ⟨folder, isFolder, isDir⟩ := sourceRooted.folders item.path copiedFrom ancestor above
      (by simp [same, isPath, notEmpty])
    rw [source.get?_congr same, found, Option.some.injEq] at isFolder
    rwa [isFolder]
  · rw [isFolder, Option.some.injEq] at found
    rwa [← found]

/-- A ticked item copies from a side that is there, to the other side. -/
theorem sides_of_copies {item : SyncItem} {path : Path}
    (listed : item ∈ compare localTree remoteTree options tolerance keepsTimes)
    (same : item.path.components = path.components) :
    (SyncItem.Copies item .upload → options.direction ≠ .remoteToLocal ∧
      ∃ entry, localTree.get? path = some entry ∧ entry.kind = .file) ∧
    (SyncItem.Copies item .download → options.direction ≠ .localToRemote ∧
      ∃ entry, remoteTree.get? path = some entry ∧ entry.kind = .file) := by
  obtain ⟨verdict, isVerdict, isAction, isTicked⟩ := verdict_of_mem_compare listed same
  have fits := fits_verdictOf options tolerance keepsTimes (localTree.get? path)
    (remoteTree.get? path) verdict isVerdict
  constructor
  · rintro ⟨ticked, uploads⟩
    obtain ⟨notKinds, ⟨_, present, allowed⟩ | ⟨downloads, _⟩⟩ := fits.1 (isTicked ▸ ticked)
    · obtain ⟨entry, found⟩ := Option.isSome_iff_exists.mp present
      exact ⟨allowed, entry, found, (files_of_verdictOf isVerdict notKinds).1 entry found⟩
    · rw [← isAction, uploads] at downloads
      cases downloads
  · rintro ⟨ticked, downloads⟩
    obtain ⟨notKinds, ⟨uploads, _⟩ | ⟨_, present, allowed⟩⟩ := fits.1 (isTicked ▸ ticked)
    · rw [← isAction, downloads] at uploads
      cases uploads
    · obtain ⟨entry, found⟩ := Option.isSome_iff_exists.mp present
      exact ⟨allowed, entry, found, (files_of_verdictOf isVerdict notKinds).2 entry found⟩

theorem not_copied_twice {first second : SyncItem}
    (firstListed : first ∈ compare localTree remoteTree options tolerance keepsTimes)
    (secondListed : second ∈ compare localTree remoteTree options tolerance keepsTimes)
    {action other : SyncAction} (firstCopies : SyncItem.Copies first action)
    (secondCopies : SyncItem.Copies second other) (different : action ≠ other) :
    first.path.components ≠ second.path.components := by
  intro same
  obtain ⟨verdict, isVerdict, isAction, _⟩ := verdict_of_mem_compare firstListed same
  obtain ⟨again, isAgain, isOther, _⟩ := verdict_of_mem_compare secondListed rfl
  rw [isVerdict, Option.some.injEq] at isAgain
  rw [← firstCopies.2, ← secondCopies.2, isAction, isOther, isAgain] at different
  exact different rfl

/-- Kinds that differed before the sync differ afterwards: nothing is copied to where
they do. -/
theorem kindsDiffer_after {localAfter remoteAfter : Tree} {path : Path}
    (uploaded : Performed (compare localTree remoteTree options tolerance keepsTimes) .upload
      keepsTimes tolerance localTree remoteTree remoteAfter)
    (downloaded : Performed (compare localTree remoteTree options tolerance keepsTimes) .download
      keepsTimes tolerance remoteTree localTree localAfter)
    (differ : kindsDiffer localTree remoteTree path) : kindsDiffer localAfter remoteAfter path := by
  obtain ⟨isLocal, isRemote⟩ := isSome_of_kindsDiffer differ
  have notTicked : ∀ item ∈ compare localTree remoteTree options tolerance keepsTimes,
      item.path.components = path.components → item.ticked = false := by
    intro item listed same
    obtain ⟨verdict, isVerdict, _, isTicked⟩ := verdict_of_mem_compare listed same
    obtain ⟨localEntry, localFound⟩ := Option.isSome_iff_exists.mp isLocal
    obtain ⟨remoteEntry, remoteFound⟩ := Option.isSome_iff_exists.mp isRemote
    have different : localEntry.kind ≠ remoteEntry.kind := by
      simpa [kindsDiffer, localFound, remoteFound] using differ
    rw [localFound, remoteFound, verdictOf, if_pos different] at isVerdict
    cases isVerdict
    exact isTicked
  have remoteSame : remoteAfter.get? path = remoteTree.get? path := by
    refine uploaded.unchanged isRemote fun item listed copies same => ?_
    have unticked := notTicked item listed same
    rw [copies.1] at unticked
    cases unticked
  have localSame : localAfter.get? path = localTree.get? path := by
    refine downloaded.unchanged isLocal fun item listed copies same => ?_
    have unticked := notTicked item listed same
    rw [copies.1] at unticked
    cases unticked
  unfold kindsDiffer at differ ⊢
  rw [remoteSame, localSame]
  exact differ

/-- Where a path had no ticked item, it has none after the sync either. -/
theorem not_ticked_of_not_copied (valid : options.isValid = true) (localRooted : localTree.Rooted)
    (remoteRooted : remoteTree.Rooted) {localAfter remoteAfter : Tree}
    (uploaded : Performed (compare localTree remoteTree options tolerance keepsTimes) .upload
      keepsTimes tolerance localTree remoteTree remoteAfter)
    (downloaded : Performed (compare localTree remoteTree options tolerance keepsTimes) .download
      keepsTimes tolerance remoteTree localTree localAfter) {path : Path}
    (notUploaded : ∀ item ∈ compare localTree remoteTree options tolerance keepsTimes,
      SyncItem.Copies item .upload → item.path.components ≠ path.components)
    (notDownloaded : ∀ item ∈ compare localTree remoteTree options tolerance keepsTimes,
      SyncItem.Copies item .download → item.path.components ≠ path.components)
    (notPruned : ¬ Pruned localAfter remoteAfter path) {verdict : Verdict}
    (isVerdict : verdictOf options tolerance keepsTimes (localAfter.get? path)
      (remoteAfter.get? path) = some verdict) : verdict.ticked = false := by
  have noFolders (localFolder : ∀ entry, localAfter.get? path = some entry → entry.kind = .dir)
      (remoteFolder : ∀ entry, remoteAfter.get? path = some entry → entry.kind = .dir) : False := by
    rw [verdictOf_folders localFolder remoteFolder] at isVerdict
    cases isVerdict
  rcases uploaded.elsewhere path notUploaded with
    remoteSame | ⟨_, ⟨folder, isFolder, isDir⟩, item, listed, copies, ancestor, above, same⟩
  · rcases downloaded.elsewhere path notDownloaded with
      localSame | ⟨_, ⟨folder, isFolder, isDir⟩, item, listed, copies, ancestor, above, same⟩
    · -- Neither side has changed at the path, so it had this verdict before.
      rw [remoteSame, localSame] at isVerdict
      have stillPruned : ¬ Pruned localTree remoteTree path := by
        rintro ⟨ancestor, above, differ⟩
        exact notPruned ⟨ancestor, above, kindsDiffer_after uploaded downloaded differ⟩
      obtain ⟨item, listed, samePath, isAction, isTicked⟩ :=
        exists_mem_compare valid stillPruned isVerdict
      by_contra ticked
      rw [Bool.not_eq_false] at ticked
      have fits := (fits_verdictOf options tolerance keepsTimes _ _ verdict isVerdict).1 ticked
      rcases fits.2 with ⟨uploads, _⟩ | ⟨downloads, _⟩
      · exact notUploaded item listed ⟨isTicked.trans ticked, isAction.trans uploads⟩ samePath
      · exact notDownloaded item listed ⟨isTicked.trans ticked, isAction.trans downloads⟩ samePath
    · -- A folder was created locally, above a downloaded file.
      obtain ⟨_, entry, found, _⟩ := (sides_of_copies listed rfl).2 copies
      refine (noFolders ?_ ?_).elim
      · intro entry found
        rw [isFolder, Option.some.injEq] at found
        rwa [← found]
      · exact folder_of_above remoteRooted uploaded notUploaded (by simp [found]) above same
  · -- A folder was created on the remote side, above an uploaded file.
    obtain ⟨_, entry, found, _⟩ := (sides_of_copies listed rfl).1 copies
    refine (noFolders ?_ ?_).elim
    · exact folder_of_above localRooted downloaded notDownloaded (by simp [found]) above same
    · intro entry found
      rw [isFolder, Option.some.injEq] at found
      rwa [← found]

end Converges

/-- A sync converges: once the ticked items have been performed, a comparison with the
same options ticks nothing. -/
theorem compare_converges (localFs remoteFs : SourceFs error) (localRoot remoteRoot : Path)
    (localSubfolders remoteSubfolders : Bool) (localCancel remoteCancel : Nat → Bool)
    (localFuel remoteFuel : Nat) (localScan remoteScan : Scanned)
    (localScanned : scanTree localFs localRoot localSubfolders localCancel localFuel = .ok localScan)
    (remoteScanned : scanTree remoteFs remoteRoot remoteSubfolders remoteCancel remoteFuel =
      .ok remoteScan)
    (options : SyncOptions) (valid : options.isValid = true) (tolerance : UInt64)
    (localSets remoteSets : Bool) (localAfter remoteAfter : Tree)
    (uploaded : Performed (compare localScan.tree remoteScan.tree options tolerance
        (targetKeepsTimes options.direction localSets remoteSets)) .upload
      (targetKeepsTimes options.direction localSets remoteSets) tolerance localScan.tree
      remoteScan.tree remoteAfter)
    (downloaded : Performed (compare localScan.tree remoteScan.tree options tolerance
        (targetKeepsTimes options.direction localSets remoteSets)) .download
      (targetKeepsTimes options.direction localSets remoteSets) tolerance remoteScan.tree
      localScan.tree localAfter) :
    ∀ item ∈ compare localAfter remoteAfter options tolerance
      (targetKeepsTimes options.direction localSets remoteSets), item.ticked = false := by
  have localRooted := scanTree_rooted localScanned
  have remoteRooted := scanTree_rooted remoteScanned
  have bothKeep : options.direction = .both →
      targetKeepsTimes options.direction localSets remoteSets = true := by
    intro isBoth
    rw [isBoth]
    rfl
  generalize targetKeepsTimes options.direction localSets remoteSets = keepsTimes at *
  intro item listed
  obtain ⟨path, _, count, verdict, notPruned, isVerdict, rfl⟩ := mem_compare listed
  change verdict.ticked = false
  by_cases wasUploaded : ∃ old ∈ compare localScan.tree remoteScan.tree options tolerance keepsTimes,
      SyncItem.Copies old .upload ∧ old.path.components = path.components
  · obtain ⟨old, oldListed, copies, same⟩ := wasUploaded
    obtain ⟨allowed, entry, found, isFile⟩ := (sides_of_copies oldListed same).1 copies
    have localSame : localAfter.get? path = localScan.tree.get? path :=
      downloaded.unchanged (by simp [found]) fun other otherListed otherCopies otherSame =>
        not_copied_twice oldListed otherListed copies otherCopies (by decide)
          (same.trans otherSame.symm)
    obtain ⟨copied, isAfter, isCopied⟩ := uploaded.copied old oldListed copies entry
      ((localScan.tree.get?_congr same).trans found)
    rw [localSame, found, ← remoteAfter.get?_congr same, isAfter] at isVerdict
    exact not_ticked_of_uploaded isFile isCopied bothKeep allowed isVerdict
  · by_cases wasDownloaded :
        ∃ old ∈ compare localScan.tree remoteScan.tree options tolerance keepsTimes,
          SyncItem.Copies old .download ∧ old.path.components = path.components
    · obtain ⟨old, oldListed, copies, same⟩ := wasDownloaded
      obtain ⟨allowed, entry, found, isFile⟩ := (sides_of_copies oldListed same).2 copies
      have remoteSame : remoteAfter.get? path = remoteScan.tree.get? path :=
        uploaded.unchanged (by simp [found]) fun other otherListed otherCopies otherSame =>
          not_copied_twice oldListed otherListed copies otherCopies (by decide)
            (same.trans otherSame.symm)
      obtain ⟨copied, isAfter, isCopied⟩ := downloaded.copied old oldListed copies entry
        ((remoteScan.tree.get?_congr same).trans found)
      rw [remoteSame, found, ← localAfter.get?_congr same, isAfter] at isVerdict
      exact not_ticked_of_downloaded isFile isCopied bothKeep allowed isVerdict
    · exact not_ticked_of_not_copied valid localRooted remoteRooted uploaded downloaded
        (fun old oldListed copies same => wasUploaded ⟨old, oldListed, copies, same⟩)
        (fun old oldListed copies same => wasDownloaded ⟨old, oldListed, copies, same⟩)
        notPruned isVerdict

/-- What is listed for `oneFile` and an empty folder. -/
def oneFileItem : SyncItem where
  id := 0
  path := ⟨"d/x"⟩
  «local» := some ⟨5, some 9⟩
  remote := none
  action := .upload
  reason := .onlyLocal
  ticked := true
  flippable := false

theorem compare_oneFile :
    compare oneFileTree .new ⟨.localToRemote, .time, true⟩ 0 true = [oneFileItem] := by
  decide

/-- The upload of `oneFile` leaves the same tree on the other side. -/
theorem performed_oneFile :
    Performed [oneFileItem] .upload true 0 oneFileTree .new oneFileTree where
  copied := by
    intro item isItem _ entry found
    obtain rfl := List.mem_singleton.mp isItem
    refine ⟨entry, found, ?_⟩
    have isEntry : entry = ⟨.file, 5, some 9⟩ := by
      have evaluated : oneFileTree.get? ⟨"d/x"⟩ = some ⟨.file, 5, some 9⟩ := by decide
      rw [show oneFileItem.path = ⟨"d/x"⟩ from rfl, evaluated] at found
      exact (Option.some.inj found).symm
    subst isEntry
    exact ⟨rfl, rfl, by simp, by rintro _ _ ⟨⟩ ⟨⟩; simp⟩
  elsewhere := by
    intro path notItem
    have notFile : path.components ≠ (Path.mk "d/x").components := fun same =>
      notItem oneFileItem (List.mem_singleton_self _) ⟨rfl, rfl⟩ same.symm
    rw [oneFileTree, Tree.get?_insert, if_neg notFile, Tree.get?_insert]
    split_ifs with isFolder
    · refine Or.inr ⟨rfl, ⟨_, rfl, rfl⟩, oneFileItem, List.mem_singleton_self _, ⟨rfl, rfl⟩, ⟨"d"⟩,
        by decide, isFolder.symm⟩
    · exact Or.inl rfl

theorem compare_converges_oneFile :
    (compare oneFileTree oneFileTree ⟨.localToRemote, .time, true⟩ 0 true).all
      (fun item => decide (item.ticked = false)) = true := by
  refine List.all_eq_true.mpr fun item member => decide_eq_true
    (compare_converges (oneFile "/l") noFile ⟨"/l"⟩ ⟨"/r"⟩ true true (fun _ => false)
    (fun _ => false) 3 3 ⟨oneFileTree, 0⟩ ⟨.new, 0⟩ scanTree_oneFile scanTree_noFile
    ⟨.localToRemote, .time, true⟩ rfl 0 false true oneFileTree oneFileTree ?_ ?_ item member)
  · change Performed (compare oneFileTree .new ⟨.localToRemote, .time, true⟩ 0 true) _ _ _ _ _ _
    rw [compare_oneFile]
    exact performed_oneFile
  · change Performed (compare oneFileTree .new ⟨.localToRemote, .time, true⟩ 0 true) _ _ _ _ _ _
    rw [compare_oneFile]
    refine ⟨?_, fun _ _ => Or.inl rfl⟩
    intro item isItem copies
    obtain rfl := List.mem_singleton.mp isItem
    cases copies.2

end Sync

end Porthmos
