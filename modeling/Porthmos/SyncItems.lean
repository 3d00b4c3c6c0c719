import Porthmos.Sync

/-!
# What a comparison lists

A path is listed with the verdict on it, unless the two trees hold different kinds
of things at one of its ancestors.  The loop of `compare` remembers only those
ancestors that were themselves listed; as it meets ancestors first, no other
ancestor is needed.
-/

namespace Porthmos

namespace Tree

theorem get?_congr (tree : Tree) {first second : Path} (same : first.components = second.components) :
    tree.get? first = tree.get? second := by
  unfold get?
  rw [same]

theorem get?_insert (tree : Tree) (path other : Path) (entry : TreeEntry) :
    (tree.insert path entry).get? other =
      if other.components = path.components then some entry else tree.get? other := by
  unfold get? insert
  rw [OrderedMap.get?_insert]
  split_ifs <;> rfl

theorem exists_mem_keys_iff {tree : Tree} {path : Path} :
    (∃ key ∈ tree.keys, key.components = path.components) ↔ (tree.get? path).isSome := by
  unfold keys get?
  rw [Option.isSome_map]
  constructor
  · rintro ⟨key, member, same⟩
    obtain ⟨⟨found, entry⟩, isValue, rfl⟩ := List.mem_map.mp member
    obtain ⟨foundKey, isFound⟩ := OrderedMap.mem_values_iff.mp isValue
    have isKey := tree.keyed foundKey _ isFound
    rw [← same, isKey, isFound]
    rfl
  · intro present
    obtain ⟨⟨found, entry⟩, isFound⟩ := Option.isSome_iff_exists.mp present
    exact ⟨found, List.mem_map.mpr ⟨_, OrderedMap.mem_values_iff.mpr ⟨_, isFound⟩, rfl⟩,
      tree.keyed _ _ isFound⟩

theorem map_components_keys (tree : Tree) : tree.keys.map Path.components = tree.entries.keys := by
  unfold keys OrderedMap.values OrderedMap.keys
  rw [List.map_map, List.map_map]
  refine List.map_congr_left fun entry member => ?_
  exact tree.keyed _ _ (OrderedMap.mem_entries_iff.mp member)

theorem nodup_keys (tree : Tree) : (tree.keys.map Path.components).Nodup := by
  rw [map_components_keys]
  exact OrderedMap.nodup_keys _

end Tree

namespace Sync

/-! ### The paths of a comparison -/

theorem get?_pathSet_foldl (paths : List Path) (set : OrderedMap (List Component) Path)
    (keyed : ∀ key path, set.get? key = some path → path.components = key) :
    let result := paths.foldl (fun set path => set.insert path.components path) set
    (∀ key path, result.get? key = some path → path.components = key) ∧
      ∀ key, (result.get? key).isSome ↔
        (set.get? key).isSome ∨ ∃ path ∈ paths, path.components = key := by
  induction paths generalizing set with
  | nil => exact ⟨keyed, by simp⟩
  | cons path rest ih =>
    have insertKeyed : ∀ key found, (set.insert path.components path).get? key = some found →
        found.components = key := by
      intro key found isFound
      rw [OrderedMap.get?_insert] at isFound
      split_ifs at isFound with same
      · rw [← Option.some.inj isFound, same]
      · exact keyed key found isFound
    obtain ⟨restKeyed, restKeys⟩ := ih _ insertKeyed
    refine ⟨restKeyed, fun key => ?_⟩
    rw [List.foldl_cons, restKeys key, OrderedMap.get?_insert]
    split_ifs with same
    · simp [same]
    · simp [Ne.symm same]

theorem keyed_pathSet (paths : List Path) {key : List Component} {path : Path}
    (found : (pathSet paths).get? key = some path) : path.components = key :=
  (get?_pathSet_foldl paths .empty (by simp)).1 key path found

theorem isSome_pathSet {paths : List Path} {key : List Component} :
    ((pathSet paths).get? key).isSome ↔ ∃ path ∈ paths, path.components = key := by
  rw [pathSet, (get?_pathSet_foldl paths .empty (by simp)).2 key]
  simp

variable {localTree remoteTree : Tree} {options : SyncOptions} {tolerance : UInt64}
  {targetKeepsTimes : Bool}

/-- The paths that `compare` goes through, in order. -/
def comparedPaths (localTree remoteTree : Tree) : List Path :=
  (pathSet (localTree.keys ++ remoteTree.keys)).values

theorem exists_mem_comparedPaths_iff {path : Path} :
    (∃ compared ∈ comparedPaths localTree remoteTree, compared.components = path.components) ↔
      (localTree.get? path).isSome ∨ (remoteTree.get? path).isSome := by
  have isKey : (∃ compared ∈ comparedPaths localTree remoteTree,
      compared.components = path.components) ↔
        ((pathSet (localTree.keys ++ remoteTree.keys)).get? path.components).isSome := by
    unfold comparedPaths
    constructor
    · rintro ⟨compared, member, same⟩
      obtain ⟨key, found⟩ := OrderedMap.mem_values_iff.mp member
      rw [← same, keyed_pathSet _ found, found]
      rfl
    · intro present
      obtain ⟨compared, found⟩ := Option.isSome_iff_exists.mp present
      exact ⟨compared, OrderedMap.mem_values_iff.mpr ⟨_, found⟩, keyed_pathSet _ found⟩
  rw [isKey, isSome_pathSet, ← Tree.exists_mem_keys_iff, ← Tree.exists_mem_keys_iff]
  simp only [List.mem_append, or_and_right, exists_or]

theorem map_components_comparedPaths (localTree remoteTree : Tree) :
    (comparedPaths localTree remoteTree).map Path.components =
      (pathSet (localTree.keys ++ remoteTree.keys)).keys := by
  unfold comparedPaths OrderedMap.values OrderedMap.keys
  rw [List.map_map]
  refine List.map_congr_left fun entry member => ?_
  exact keyed_pathSet _ (OrderedMap.mem_entries_iff.mp member)

theorem comparedPaths_pairwise (localTree remoteTree : Tree) :
    (comparedPaths localTree remoteTree).Pairwise
      fun first second => first.components < second.components := by
  have sorted := OrderedMap.keys_pairwise (pathSet (localTree.keys ++ remoteTree.keys))
  rw [← map_components_comparedPaths] at sorted
  exact List.pairwise_map.mp sorted

/-! ### Pruning -/

/-- The trees hold different kinds of things at an ancestor of the path. -/
def Pruned (localTree remoteTree : Tree) (path : Path) : Prop :=
  ∃ ancestor ∈ path.properAncestors, kindsDiffer localTree remoteTree ancestor

instance (localTree remoteTree : Tree) (path : Path) :
    Decidable (Pruned localTree remoteTree path) :=
  inferInstanceAs (Decidable (∃ ancestor ∈ path.properAncestors,
    kindsDiffer localTree remoteTree ancestor))

theorem kindsDiffer_congr {first second : Path} (same : first.components = second.components) :
    kindsDiffer localTree remoteTree first = kindsDiffer localTree remoteTree second := by
  unfold kindsDiffer
  rw [localTree.get?_congr same, remoteTree.get?_congr same]

theorem isSome_of_kindsDiffer {path : Path} (differ : kindsDiffer localTree remoteTree path) :
    (localTree.get? path).isSome ∧ (remoteTree.get? path).isSome := by
  unfold kindsDiffer at differ
  cases isLocal : localTree.get? path <;> cases isRemote : remoteTree.get? path <;>
    simp_all

theorem pruned_congr {first second : Path} (same : first.components = second.components)
    (pruned : Pruned localTree remoteTree first) : Pruned localTree remoteTree second := by
  obtain ⟨ancestor, above, differ⟩ := pruned
  obtain ⟨other, otherAbove, isSame⟩ := Path.exists_mem_properAncestors_congr same above
  exact ⟨other, otherAbove, by rwa [kindsDiffer_congr isSame]⟩

theorem exists_differing_not_pruned {path : Path} (pruned : Pruned localTree remoteTree path) :
    ∃ ancestor ∈ path.properAncestors, kindsDiffer localTree remoteTree ancestor ∧
      ¬ Pruned localTree remoteTree ancestor := by
  obtain ⟨ancestor, above, differ⟩ := pruned
  generalize count : ancestor.components.length = length
  induction length using Nat.strong_induction_on generalizing ancestor with
  | _ length ih =>
    by_cases higher : Pruned localTree remoteTree ancestor
    · obtain ⟨other, farAbove, otherDiffer⟩ := higher
      obtain ⟨isPrefix, different⟩ := Path.components_of_mem_properAncestors farAbove
      have shorter : other.components.length < length := by
        rw [← count]
        exact lt_of_le_of_ne isPrefix.length_le fun same => different (isPrefix.eq_of_length same)
      exact ih _ shorter other (Path.properAncestors_subset above farAbove) otherDiffer rfl
    · exact ⟨ancestor, above, differ, higher⟩

/-! ### The loop -/

/-- The verdict on a path, if it is listed. -/
def listedVerdict (localTree remoteTree : Tree) (options : SyncOptions) (tolerance : UInt64)
    (targetKeepsTimes : Bool) (path : Path) : Option Verdict :=
  if Pruned localTree remoteTree path then none
  else verdictOf options tolerance targetKeepsTimes (localTree.get? path) (remoteTree.get? path)

/-- What `compare` holds after some paths: the unpruned ones at which the kinds
differ, and an item for each listed one. -/
structure ComparedSoFar (localTree remoteTree : Tree) (options : SyncOptions) (tolerance : UInt64)
    (targetKeepsTimes : Bool) (compared : List Path) (comparing : Comparing) : Prop where
  mismatched : ∀ key, key ∈ comparing.mismatched ↔ ∃ path ∈ compared, path.components = key ∧
    kindsDiffer localTree remoteTree path ∧ ¬ Pruned localTree remoteTree path
  items : comparing.items = (compared.filterMap fun path =>
    (listedVerdict localTree remoteTree options tolerance targetKeepsTimes path).map
      fun verdict => (path, verdict)).mapIdx
        fun count listed => itemOf localTree remoteTree listed.1 count listed.2

/-- Of the paths compared so far enough are remembered to tell what is pruned. -/
theorem ComparedSoFar.any_iff {compared : List Path} {comparing : Comparing} {path : Path}
    (soFar : ComparedSoFar localTree remoteTree options tolerance targetKeepsTimes compared comparing)
    (earlier : ∀ other, (localTree.get? other).isSome → other.components < path.components →
      ∃ same ∈ compared, same.components = other.components) :
    (path.properAncestors.any fun ancestor => ancestor.components ∈ comparing.mismatched) = true ↔
      Pruned localTree remoteTree path := by
  rw [List.any_eq_true]
  simp only [decide_eq_true_eq, soFar.mismatched]
  constructor
  · rintro ⟨ancestor, above, other, _, same, differ, _⟩
    exact ⟨ancestor, above, by rwa [← kindsDiffer_congr same]⟩
  · intro pruned
    obtain ⟨ancestor, above, differ, notPruned⟩ := exists_differing_not_pruned pruned
    obtain ⟨⟨more, isPath⟩, different⟩ := Path.components_of_mem_properAncestors above
    have before : ancestor.components < path.components := by
      rw [← isPath]
      apply lt_append_of_ne_nil
      rintro rfl
      exact different (by simpa using isPath)
    obtain ⟨same, member, isSame⟩ := earlier ancestor (isSome_of_kindsDiffer differ).1 before
    refine ⟨ancestor, above, same, member, isSame, ?_, ?_⟩
    · rwa [kindsDiffer_congr isSame]
    · exact fun pruned => notPruned (pruned_congr isSame pruned)

/-- One round of the loop. -/
theorem ComparedSoFar.comparePath {compared : List Path} {comparing : Comparing} {path : Path}
    (soFar : ComparedSoFar localTree remoteTree options tolerance targetKeepsTimes compared comparing)
    (earlier : ∀ other, (localTree.get? other).isSome → other.components < path.components →
      ∃ same ∈ compared, same.components = other.components) :
    ComparedSoFar localTree remoteTree options tolerance targetKeepsTimes (compared ++ [path])
      (comparePath localTree remoteTree options tolerance targetKeepsTimes comparing path) := by
  unfold Sync.comparePath
  by_cases pruned : Pruned localTree remoteTree path
  · rw [if_pos ((soFar.any_iff earlier).mpr pruned)]
    constructor
    · intro key
      rw [soFar.mismatched]
      simp [pruned]
    · rw [soFar.items]
      simp [listedVerdict, pruned]
  · rw [if_neg (mt (soFar.any_iff earlier).mp pruned)]
    constructor
    · intro key
      simp only [List.mem_append, List.mem_singleton, or_and_right, exists_or, exists_eq_left,
        ← soFar.mismatched]
      split_ifs with differ
      · rw [List.mem_cons, or_comm]
        simp [differ, pruned, eq_comm]
      · simp [differ]
    · rw [List.filterMap_append, List.filterMap_cons, List.filterMap_nil]
      simp only [listedVerdict, if_neg pruned]
      cases verdictOf options tolerance targetKeepsTimes (localTree.get? path)
        (remoteTree.get? path) with
      | none =>
        rw [soFar.items]
        simp [listedVerdict]
      | some verdict =>
        simp only [Option.map_some, List.mapIdx_append, List.mapIdx_cons, List.mapIdx_nil]
        rw [soFar.items]
        simp [listedVerdict]

/-- `compare` lists the paths that have a verdict, in order. -/
theorem compare_eq (valid : options.isValid = true) :
    compare localTree remoteTree options tolerance targetKeepsTimes =
      ((comparedPaths localTree remoteTree).filterMap fun path =>
        (listedVerdict localTree remoteTree options tolerance targetKeepsTimes path).map
          fun verdict => (path, verdict)).mapIdx
            fun count listed => itemOf localTree remoteTree listed.1 count listed.2 := by
  unfold compare
  rw [valid, Bool.not_true, if_neg Bool.false_ne_true]
  change ((comparedPaths localTree remoteTree).foldl
    (comparePath localTree remoteTree options tolerance targetKeepsTimes) ⟨[], []⟩).items = _
  have sorted := comparedPaths_pairwise localTree remoteTree
  suffices run : ∀ rest compared comparing, comparedPaths localTree remoteTree = compared ++ rest →
      ComparedSoFar localTree remoteTree options tolerance targetKeepsTimes compared comparing →
      ComparedSoFar localTree remoteTree options tolerance targetKeepsTimes
        (comparedPaths localTree remoteTree)
        (rest.foldl (comparePath localTree remoteTree options tolerance targetKeepsTimes) comparing) by
    exact (run _ [] _ rfl ⟨by simp, by simp⟩).items
  intro rest
  induction rest with
  | nil =>
    intro compared comparing whole soFar
    rw [List.append_nil] at whole
    rwa [whole]
  | cons path rest ih =>
    intro compared comparing whole soFar
    refine ih (compared ++ [path]) _ (by simp [whole]) (soFar.comparePath ?_)
    -- A smaller path of a tree stands before this one in the sorted list.
    intro other present before
    have isKey : (localTree.get? other).isSome ∨ (remoteTree.get? other).isSome := Or.inl present
    obtain ⟨same, member, isSame⟩ := exists_mem_comparedPaths_iff.mpr isKey
    rw [whole] at member sorted
    rcases List.mem_append.mp member with inCompared | later
    · exact ⟨same, inCompared, isSame⟩
    · rw [← isSame] at before
      obtain ⟨pathFirst, _⟩ := List.pairwise_cons.mp (List.pairwise_append.mp sorted).2.1
      rcases List.mem_cons.mp later with rfl | afterPath
      · exact absurd before (lt_irrefl _)
      · exact absurd before (pathFirst same afterPath).asymm

theorem compare_of_invalid (invalid : options.isValid = false) :
    compare localTree remoteTree options tolerance targetKeepsTimes = [] := by
  unfold compare
  rw [invalid]
  rfl

theorem mem_compare {item : SyncItem}
    (listed : item ∈ compare localTree remoteTree options tolerance targetKeepsTimes) :
    ∃ path ∈ comparedPaths localTree remoteTree, ∃ count verdict,
      ¬ Pruned localTree remoteTree path ∧
      verdictOf options tolerance targetKeepsTimes (localTree.get? path) (remoteTree.get? path) =
        some verdict ∧ item = itemOf localTree remoteTree path count verdict := by
  cases valid : options.isValid with
  | false => simp [compare_of_invalid valid] at listed
  | true =>
    rw [compare_eq valid, List.mem_mapIdx] at listed
    obtain ⟨count, bound, rfl⟩ := listed
    obtain ⟨path, member, isListed⟩ := List.mem_filterMap.mp (List.getElem_mem bound)
    obtain ⟨verdict, isVerdict, pair⟩ := Option.map_eq_some_iff.mp isListed
    unfold listedVerdict at isVerdict
    split_ifs at isVerdict with pruned
    exact ⟨path, member, count, verdict, pruned, isVerdict, by rw [← pair]⟩

end Sync

end Porthmos
