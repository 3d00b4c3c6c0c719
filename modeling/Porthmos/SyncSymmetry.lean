import Porthmos.SyncItems

/-!
# The two sides of a sync

Exchanging the two folders and turning the direction round exchanges the two sides
of every item and changes nothing else.
-/

namespace Porthmos

def SyncDirection.mirror : SyncDirection → SyncDirection
  | localToRemote => remoteToLocal
  | remoteToLocal => localToRemote
  | both => both

def SyncOptions.mirror (options : SyncOptions) : SyncOptions :=
  { options with direction := options.direction.mirror }

def SyncAction.mirror : SyncAction → SyncAction
  | upload => download
  | download => upload
  | skip => skip

def SyncReason.mirror : SyncReason → SyncReason
  | onlyLocal => onlyRemote
  | onlyRemote => onlyLocal
  | localNewer => remoteNewer
  | remoteNewer => localNewer
  | reason => reason

/-- The second item says of the remote side what the first one says of the local
side, and the other way round. -/
structure SyncItem.Mirrors (first second : SyncItem) : Prop where
  id_eq : second.id = first.id
  path_eq : second.path.components = first.path.components
  local_eq : second.local = first.remote
  remote_eq : second.remote = first.local
  action_eq : second.action = first.action.mirror
  reason_eq : second.reason = first.reason.mirror
  ticked_eq : second.ticked = first.ticked
  flippable_eq : second.flippable = first.flippable

theorem SyncItem.Mirrors.allowedActions {first second : SyncItem} (mirrors : first.Mirrors second)
    (direction : SyncDirection) (action : SyncAction) :
    action ∈ first.allowedActions direction ↔
      action.mirror ∈ second.allowedActions direction.mirror := by
  unfold SyncItem.allowedActions
  rw [mirrors.reason_eq, mirrors.local_eq, mirrors.remote_eq]
  cases first.reason <;> cases direction <;> cases action <;>
    simp [SyncReason.mirror, SyncDirection.mirror, SyncAction.mirror]

namespace Sync

def Verdict.mirror (verdict : Verdict) : Verdict where
  action := verdict.action.mirror
  reason := verdict.reason.mirror
  ticked := verdict.ticked

theorem mirror_copy (action : SyncAction) (reason : SyncReason) :
    (copy action reason).map Verdict.mirror = copy action.mirror reason.mirror := rfl

theorem mirror_ask (reason : SyncReason) :
    (ask reason).map Verdict.mirror = ask reason.mirror := rfl

theorem flippable_mirror (verdict : Verdict) : verdict.mirror.flippable = verdict.flippable := by
  obtain ⟨action, reason, ticked⟩ := verdict
  cases action <;> cases reason <;> rfl

theorem onlyOneSide_mirror (onLocal : Bool) (direction : SyncDirection) :
    onlyOneSide (!onLocal) direction.mirror = (onlyOneSide onLocal direction).map Verdict.mirror := by
  cases onLocal <;> cases direction <;> rfl

theorem newerSide_mirror (localIsNewer : Bool) (direction : SyncDirection) :
    newerSide (!localIsNewer) direction.mirror =
      (newerSide localIsNewer direction).map Verdict.mirror := by
  cases localIsNewer <;> cases direction <;> rfl

theorem bySizes_mirror {reason : SyncReason} (same : reason.mirror = reason)
    (direction : SyncDirection) :
    bySizes reason direction.mirror = (bySizes reason direction).map Verdict.mirror := by
  cases direction <;> simp [bySizes, SyncDirection.mirror, mirror_copy, mirror_ask, same,
    SyncAction.mirror]

theorem bySize_mirror (localEntry remoteEntry : TreeEntry) (direction : SyncDirection) :
    bySize remoteEntry localEntry direction.mirror =
      (bySize localEntry remoteEntry direction).map Verdict.mirror := by
  unfold bySize
  by_cases same : localEntry.size = remoteEntry.size
  · rw [if_pos same, if_pos same.symm]
    rfl
  · rw [if_neg same, if_neg (Ne.symm same)]
    exact bySizes_mirror rfl direction

theorem unlessSilent_mirror (silent : Bool) (verdict : Option Verdict) :
    unlessSilent silent (verdict.map Verdict.mirror) =
      (unlessSilent silent verdict).map Verdict.mirror := by
  cases verdict with
  | none => rfl
  | some found =>
    obtain ⟨action, reason, ticked⟩ := found
    cases silent <;> cases reason <;> rfl

theorem toNat_saturatingAdd (first second : UInt64) :
    (saturatingAdd first second).toNat = min (first.toNat + second.toNat) (2 ^ 64 - 1) := by
  unfold saturatingAdd
  split_ifs with fits
  · rw [UInt64.toNat_add, Nat.mod_eq_of_lt fits]
    omega
  · rw [UInt64.toNat_ofNat']
    omega

theorem not_both_later {first second tolerance : UInt64}
    (later : first > saturatingAdd second tolerance) :
    ¬ second > saturatingAdd first tolerance := by
  have bound := first.toNat_lt
  rw [gt_iff_lt, UInt64.lt_iff_toNat_lt, toNat_saturatingAdd] at later ⊢
  omega

theorem byTime_mirror (localEntry remoteEntry : TreeEntry) (direction : SyncDirection)
    (tolerance : UInt64) (targetKeepsTimes : Bool) :
    byTime remoteEntry localEntry direction.mirror tolerance targetKeepsTimes =
      (byTime localEntry remoteEntry direction tolerance targetKeepsTimes).map Verdict.mirror := by
  have sizes : decide (remoteEntry.size = localEntry.size) =
      decide (localEntry.size = remoteEntry.size) := by
    simp [eq_comm]
  unfold byTime
  rw [sizes]
  cases localEntry.modified with
  | none =>
    cases remoteEntry.modified <;>
    · dsimp only
      split_ifs
      · rfl
      · exact bySizes_mirror rfl direction
  | some localTime =>
    cases remoteEntry.modified with
    | none =>
      dsimp only
      split_ifs
      · rfl
      · exact bySizes_mirror rfl direction
    | some remoteTime =>
      dsimp only
      by_cases localLater : localTime > saturatingAdd remoteTime tolerance
      · have notRemote := not_both_later localLater
        simp only [if_neg notRemote, if_pos localLater]
        rw [← unlessSilent_mirror, ← newerSide_mirror]
        rfl
      · by_cases remoteLater : remoteTime > saturatingAdd localTime tolerance
        · simp only [if_pos remoteLater, if_neg localLater]
          rw [← unlessSilent_mirror, ← newerSide_mirror]
          rfl
        · simp only [if_neg remoteLater, if_neg localLater]
          split_ifs <;> rfl

theorem verdictOf_mirror (options : SyncOptions) (tolerance : UInt64) (targetKeepsTimes : Bool)
    (localEntry remoteEntry : Option TreeEntry) :
    verdictOf options.mirror tolerance targetKeepsTimes remoteEntry localEntry =
      (verdictOf options tolerance targetKeepsTimes localEntry remoteEntry).map Verdict.mirror := by
  cases localEntry with
  | none =>
    cases remoteEntry with
    | none => rfl
    | some remoteEntry =>
      simp only [verdictOf]
      split_ifs
      · exact onlyOneSide_mirror false options.direction
      · rfl
  | some localEntry =>
    cases remoteEntry with
    | none =>
      simp only [verdictOf]
      split_ifs
      · exact onlyOneSide_mirror true options.direction
      · rfl
    | some remoteEntry =>
      simp only [verdictOf]
      by_cases sameKind : localEntry.kind = remoteEntry.kind
      · rw [if_neg (not_not.mpr sameKind.symm), if_neg (not_not.mpr sameKind), sameKind]
        split_ifs
        · cases isBy : options.syncBy with
          | size => simpa [SyncOptions.mirror, isBy] using bySize_mirror _ _ options.direction
          | time => simpa [SyncOptions.mirror, isBy] using byTime_mirror _ _ options.direction _ _
        · rfl
      · rw [if_pos sameKind, if_pos (Ne.symm sameKind), mirror_ask]
        rfl

/-! ### The two runs -/

variable (localTree remoteTree : Tree) (options : SyncOptions) (tolerance : UInt64)
  (targetKeepsTimes : Bool)

theorem kindsDiffer_comm (path : Path) :
    kindsDiffer remoteTree localTree path = kindsDiffer localTree remoteTree path := by
  unfold kindsDiffer
  cases localTree.get? path <;> cases remoteTree.get? path <;> simp [eq_comm]

theorem pruned_comm (path : Path) :
    Pruned remoteTree localTree path ↔ Pruned localTree remoteTree path := by
  simp only [Pruned, kindsDiffer_comm]

theorem listedVerdict_mirror {path other : Path} (same : path.components = other.components) :
    listedVerdict remoteTree localTree options.mirror tolerance targetKeepsTimes other =
      (listedVerdict localTree remoteTree options tolerance targetKeepsTimes path).map
        Verdict.mirror := by
  have pruned : Pruned remoteTree localTree other ↔ Pruned localTree remoteTree path := by
    rw [pruned_comm]
    exact ⟨pruned_congr same.symm, pruned_congr same⟩
  unfold listedVerdict
  simp only [pruned, remoteTree.get?_congr same, localTree.get?_congr same, verdictOf_mirror]
  split_ifs <;> rfl

theorem forall₂_comparedPaths :
    List.Forall₂ (fun path other : Path => path.components = other.components)
      (comparedPaths localTree remoteTree) (comparedPaths remoteTree localTree) := by
  have oneWay (first second : Tree) {key : List Component}
      (member : key ∈ (comparedPaths first second).map Path.components) :
      key ∈ (comparedPaths second first).map Path.components := by
    obtain ⟨path, isCompared, rfl⟩ := List.mem_map.mp member
    have present := exists_mem_comparedPaths_iff.mp ⟨path, isCompared, rfl⟩
    obtain ⟨other, otherCompared, isOther⟩ := exists_mem_comparedPaths_iff.mpr present.symm
    exact List.mem_map.mpr ⟨other, otherCompared, isOther⟩
  have same : (comparedPaths localTree remoteTree).map Path.components =
      (comparedPaths remoteTree localTree).map Path.components :=
    OrderedMap.eq_of_pairwise_lt
      (List.pairwise_map.mpr (comparedPaths_pairwise localTree remoteTree))
      (List.pairwise_map.mpr (comparedPaths_pairwise remoteTree localTree))
      fun key => ⟨oneWay _ _, oneWay _ _⟩
  have forall₂ := List.forall₂_eq_eq_eq.symm ▸ same
  exact List.forall₂_map_left_iff.mp (List.forall₂_map_right_iff.mp forall₂)

theorem forall₂_mapIdx {α β γ δ : Type*} {relates : α → β → Prop} {relatesAfter : γ → δ → Prop}
    {left : List α} {right : List β} (related : List.Forall₂ relates left right)
    {first : Nat → α → γ} {second : Nat → β → δ}
    (kept : ∀ count a b, relates a b → relatesAfter (first count a) (second count b)) :
    List.Forall₂ relatesAfter (left.mapIdx first) (right.mapIdx second) := by
  induction related generalizing first second with
  | nil => exact .nil
  | cons head _ ih =>
    rw [List.mapIdx_cons, List.mapIdx_cons]
    exact .cons (kept 0 _ _ head) (ih fun count a b => kept (count + 1) a b)

/-- A comparison with the folders exchanged lists the mirrored items, and these allow
the mirrored actions. -/
theorem compare_mirror :
    List.Forall₂ (fun item mirrored : SyncItem => item.Mirrors mirrored ∧
        ∀ direction action, action ∈ item.allowedActions direction ↔
          action.mirror ∈ mirrored.allowedActions direction.mirror)
      (compare localTree remoteTree options tolerance targetKeepsTimes)
      (compare remoteTree localTree options.mirror tolerance targetKeepsTimes) := by
  suffices items : List.Forall₂ SyncItem.Mirrors
      (compare localTree remoteTree options tolerance targetKeepsTimes)
      (compare remoteTree localTree options.mirror tolerance targetKeepsTimes) from
    items.imp fun item mirrored mirrors => ⟨mirrors, mirrors.allowedActions⟩
  have sameValid : options.mirror.isValid = options.isValid := by
    obtain ⟨direction, syncBy, subfolders⟩ := options
    cases direction <;> cases syncBy <;> rfl
  cases valid : options.isValid with
  | false =>
    rw [compare_of_invalid valid, compare_of_invalid (sameValid.trans valid)]
    exact .nil
  | true =>
    rw [compare_eq valid, compare_eq (sameValid.trans valid)]
    have listed : List.Forall₂
        (fun first second : Path × Verdict =>
          first.1.components = second.1.components ∧ second.2 = first.2.mirror)
        ((comparedPaths localTree remoteTree).filterMap fun path =>
          (listedVerdict localTree remoteTree options tolerance targetKeepsTimes path).map
            fun verdict => (path, verdict))
        ((comparedPaths remoteTree localTree).filterMap fun path =>
          (listedVerdict remoteTree localTree options.mirror tolerance targetKeepsTimes path).map
            fun verdict => (path, verdict)) := by
      refine List.rel_filterMap ?_ (forall₂_comparedPaths localTree remoteTree)
      intro path other same
      dsimp only
      rw [listedVerdict_mirror localTree remoteTree options tolerance targetKeepsTimes same]
      cases listedVerdict localTree remoteTree options tolerance targetKeepsTimes path with
      | none => exact .none
      | some verdict => exact .some ⟨same, rfl⟩
    refine forall₂_mapIdx listed fun count first second related => ?_
    obtain ⟨same, isMirror⟩ := related
    exact {
      id_eq := rfl
      path_eq := same.symm
      local_eq := by rw [itemOf, itemOf, remoteTree.get?_congr same]
      remote_eq := by rw [itemOf, itemOf, localTree.get?_congr same]
      action_eq := by rw [itemOf, itemOf, isMirror]; rfl
      reason_eq := by rw [itemOf, itemOf, isMirror]; rfl
      ticked_eq := by rw [itemOf, itemOf, isMirror]; rfl
      flippable_eq := by rw [itemOf, itemOf, isMirror]; exact flippable_mirror _ }

end Sync

end Porthmos
