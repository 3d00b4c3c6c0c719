import Porthmos.EngineSyncs
import Porthmos.SyncChoices

/-!
# Which choices of a sync run

`run_sync` goes through any list of choices, also one that no screen would make.  Only the first
choice of an item counts, and it is carried out if the plan admits it.
-/

namespace Porthmos

namespace Sync

/-! ### The admissible choices -/

/-- The item that a choice names. -/
def knownItem (plan : SyncPlan) (id : Nat) : Option SyncItem :=
  (plan.items[id]?).filter fun item => item.id = id

/-- The first choices of items of the plan, in order. -/
def firstChoices (plan : SyncPlan) (choices : List (Nat × SyncAction)) :
    List (SyncItem × SyncAction) :=
  choices.zipIdx.filterMap fun (choice, position) =>
    if choice.1 ∈ (choices.take position).map Prod.fst then none
    else (knownItem plan choice.1).map fun item => (item, choice.2)

/-- A first choice that is carried out: it copies, the direction of the plan allows it, and it is
the item's own action or the item can be flipped. -/
def admits (plan : SyncPlan) (choice : SyncItem × SyncAction) : Bool :=
  decide (choice.2 ≠ .skip) && choice.1.allows choice.2 plan.options.direction &&
    (decide (choice.2 = choice.1.action) || choice.1.flippable)

def admissible (plan : SyncPlan) (choices : List (Nat × SyncAction)) :
    List (SyncItem × SyncAction) :=
  (firstChoices plan choices).filter (admits plan)

/-- The files of the admissible choices of one action. -/
def admissibleFiles (plan : SyncPlan) (choices : List (Nat × SyncAction)) (action : SyncAction) :
    List PlannedFile :=
  ((admissible plan choices).filter fun choice => choice.2 = action).filterMap fun choice =>
    plannedFile plan choice.1 choice.2

def explicitSkips (plan : SyncPlan) (choices : List (Nat × SyncAction)) : Nat :=
  (firstChoices plan choices).countP fun choice => choice.2 = .skip

theorem firstChoices_concat (plan : SyncPlan) (choices : List (Nat × SyncAction))
    (choice : Nat × SyncAction) :
    firstChoices plan (choices ++ [choice]) = firstChoices plan choices ++
      if choice.1 ∈ choices.map Prod.fst then []
      else ((knownItem plan choice.1).map fun item => (item, choice.2)).toList := by
  unfold firstChoices
  rw [List.zipIdx_append, List.filterMap_append]
  congr 1
  · apply List.filterMap_congr
    intro pair member
    have inRange := (List.mem_zipIdx member).2.1
    rw [Nat.zero_add] at inRange
    dsimp only
    rw [List.take_append_of_le_length inRange.le]
  · simp only [List.zipIdx_cons, List.zipIdx_nil, Nat.zero_add, List.filterMap_cons,
      List.filterMap_nil, List.take_left]
    split_ifs
    · rfl
    · cases knownItem plan choice.1 <;> rfl

/-! ### The loop -/

variable {plan : SyncPlan} {choices : List (Nat × SyncAction)} {choosing : Choosing}
  {choice : Nat × SyncAction}

/-- What holds after some choices. -/
structure ChosenSoFar (plan : SyncPlan) (choices : List (Nat × SyncAction))
    (choosing : Choosing) : Prop where
  uploads : choosing.uploads = admissibleFiles plan choices .upload
  downloads : choosing.downloads = admissibleFiles plan choices .download
  seen : ∀ id, id ∈ choosing.seen ↔ id ∈ choices.map Prod.fst ∧ (knownItem plan id).isSome = true
  counts : choosing.uploads.length + choosing.downloads.length + explicitSkips plan choices +
    choosing.refused = choices.length

/-- A choice that is no first one of an item is refused. -/
theorem ChosenSoFar.refuse (soFar : ChosenSoFar plan choices choosing)
    (notFirst : firstChoices plan (choices ++ [choice]) = firstChoices plan choices)
    (known : choice.1 ∈ choices.map Prod.fst ∨ knownItem plan choice.1 = none) :
    ChosenSoFar plan (choices ++ [choice]) choosing.refuse where
  uploads := by
    rw [admissibleFiles, admissible, notFirst]
    exact soFar.uploads
  downloads := by
    rw [admissibleFiles, admissible, notFirst]
    exact soFar.downloads
  seen id := by
    change id ∈ choosing.seen ↔ _
    rw [soFar.seen, List.map_append, List.mem_append]
    constructor
    · exact fun ⟨named, isKnown⟩ => ⟨Or.inl named, isKnown⟩
    · rintro ⟨earlier | isLast, isKnown⟩
      · exact ⟨earlier, isKnown⟩
      · obtain rfl : id = choice.1 := by simpa using isLast
        refine ⟨known.resolve_right fun unknown => ?_, isKnown⟩
        simp [unknown] at isKnown
  counts := by
    have counts := soFar.counts
    rw [explicitSkips, notFirst, List.length_append, List.length_singleton]
    change choosing.uploads.length + choosing.downloads.length + explicitSkips plan choices +
      (choosing.refused + 1) = _
    omega

theorem admissibleFiles_first {item : SyncItem} (isNew : choice.1 ∉ choices.map Prod.fst)
    (isKnown : knownItem plan choice.1 = some item) (action : SyncAction) :
    admissibleFiles plan (choices ++ [choice]) action = admissibleFiles plan choices action ++
      if admits plan (item, choice.2) = true ∧ choice.2 = action then
        (plannedFile plan item choice.2).toList
      else [] := by
  unfold admissibleFiles admissible
  rw [firstChoices_concat, if_neg isNew, isKnown, List.filter_append, List.filter_append,
    List.filterMap_append]
  congr 1
  obtain ⟨id, given⟩ := choice
  cases admitted : admits plan (item, given) with
  | false => simp [admitted]
  | true =>
    by_cases isAction : given = action
    · subst isAction
      cases planned : plannedFile plan item given <;> simp [admitted, planned]
    · simp [admitted, isAction]

/-- What the first choice of an item brings. -/
theorem ChosenSoFar.first (soFar : ChosenSoFar plan choices choosing) {item : SyncItem}
    (isNew : choice.1 ∉ choices.map Prod.fst) (isKnown : knownItem plan choice.1 = some item)
    {after : Choosing} (seen : after.seen = choice.1 :: choosing.seen)
    (uploads : after.uploads = choosing.uploads ++
      if admits plan (item, choice.2) = true ∧ choice.2 = .upload then
        (plannedFile plan item choice.2).toList else [])
    (downloads : after.downloads = choosing.downloads ++
      if admits plan (item, choice.2) = true ∧ choice.2 = .download then
        (plannedFile plan item choice.2).toList else [])
    (counts : after.uploads.length + after.downloads.length + after.refused +
      (if choice.2 = .skip then 1 else 0) =
        choosing.uploads.length + choosing.downloads.length + choosing.refused + 1) :
    ChosenSoFar plan (choices ++ [choice]) after where
  uploads := by rw [uploads, admissibleFiles_first isNew isKnown, soFar.uploads]
  downloads := by rw [downloads, admissibleFiles_first isNew isKnown, soFar.downloads]
  seen id := by
    rw [seen, List.mem_cons, soFar.seen, List.map_append, List.mem_append]
    constructor
    · rintro (rfl | ⟨named, present⟩)
      · exact ⟨Or.inr (by simp), by rw [isKnown]; rfl⟩
      · exact ⟨Or.inl named, present⟩
    · rintro ⟨earlier | isLast, present⟩
      · exact Or.inr ⟨earlier, present⟩
      · exact Or.inl (by simpa using isLast)
  counts := by
    have before := soFar.counts
    have skips : explicitSkips plan (choices ++ [choice]) =
        explicitSkips plan choices + if choice.2 = .skip then 1 else 0 := by
      rw [explicitSkips, explicitSkips, firstChoices_concat, if_neg isNew, isKnown,
        List.countP_append]
      simp [List.countP_cons]
    rw [skips, List.length_append, List.length_singleton]
    omega

theorem admits_eq (plan : SyncPlan) (item : SyncItem) {action : SyncAction}
    (copies : action ≠ .skip) :
    admits plan (item, action) = accepts item plan.options.direction action := by
  simp [admits, accepts, copies]

theorem ChosenSoFar.choose (soFar : ChosenSoFar plan choices choosing) (choice : Nat × SyncAction) :
    ChosenSoFar plan (choices ++ [choice]) (choose plan choosing choice) := by
  obtain ⟨id, action⟩ := choice
  cases known : knownItem plan id with
  | none =>
    have refused : Sync.choose plan choosing (id, action) = choosing.refuse := by
      unfold knownItem at known
      simp [Sync.choose, known]
    rw [refused]
    apply soFar.refuse
    · rw [firstChoices_concat, known]
      simp
    · exact Or.inr known
  | some item =>
    have isItem : (plan.items[id]?).filter (fun item => item.id = id) = some item := known
    by_cases again : id ∈ choices.map Prod.fst
    · have seen : id ∈ choosing.seen := (soFar.seen id).mpr ⟨again, by rw [known]; rfl⟩
      have refused : Sync.choose plan choosing (id, action) = choosing.refuse := by
        simp only [Sync.choose, isItem, if_pos seen]
      rw [refused]
      apply soFar.refuse
      · rw [firstChoices_concat, if_pos again, List.append_nil]
      · exact Or.inl again
    · have isNew : id ∉ choosing.seen := fun seen => again ((soFar.seen id).mp seen).1
      by_cases skips : action = .skip
      · have skipped : Sync.choose plan choosing (id, action) =
            { choosing with seen := id :: choosing.seen } := by
          simp [Sync.choose, isItem, isNew, skips]
        rw [skipped]
        apply soFar.first again known rfl <;> simp [skips]
      · cases accepted : accepts item plan.options.direction action with
        | false =>
          have refused : Sync.choose plan choosing (id, action) =
              Choosing.refuse { choosing with seen := id :: choosing.seen } := by
            simp [Sync.choose, isItem, isNew, skips, accepted]
          rw [refused]
          apply soFar.first again known rfl <;>
            simp [Choosing.refuse, admits_eq plan item skips, accepted, skips, Nat.add_assoc]
        | true =>
          have allowed : item.allows action plan.options.direction = true :=
            (Bool.and_eq_true_iff.mp accepted).1
          obtain ⟨file, planned⟩ := Option.isSome_iff_exists.mp
            (SyncItem.isSome_plannedFile skips allowed : (plannedFile plan item action).isSome)
          cases action with
          | skip => exact absurd rfl skips
          | upload =>
            have copied : Sync.choose plan choosing (id, .upload) = { choosing with
                  seen := id :: choosing.seen
                  uploads := choosing.uploads ++ [file] } := by
              simp [Sync.choose, isItem, isNew, accepted, planned]
            rw [copied]
            apply soFar.first again known rfl <;>
              simp [admits_eq plan item skips, accepted, planned]
            omega
          | download =>
            have copied : Sync.choose plan choosing (id, .download) = { choosing with
                  seen := id :: choosing.seen
                  downloads := choosing.downloads ++ [file] } := by
              simp [Sync.choose, isItem, isNew, accepted, planned]
            rw [copied]
            apply soFar.first again known rfl <;>
              simp [admits_eq plan item skips, accepted, planned]
            omega

theorem chosenSoFar_chooseFiles (plan : SyncPlan) (choices : List (Nat × SyncAction)) :
    ChosenSoFar plan choices (chooseFiles plan choices) := by
  unfold chooseFiles
  induction choices using List.reverseRecOn with
  | nil => constructor <;> simp [admissibleFiles, admissible, explicitSkips, firstChoices]
  | append_singleton choices choice ih =>
    rw [List.foldl_append]
    exact ih.choose choice

/-! ### Once each -/

theorem map_fst_filterMap {α β : Type*} (convert : α → Option β) (values : List α) :
    (values.filterMap fun value => (convert value).map fun result => (value, result)).map Prod.fst =
      values.filter fun value => (convert value).isSome := by
  induction values with
  | nil => rfl
  | cons value values ih => cases converted : convert value <;> simp [converted, ih]

theorem nodup_paths (compared : plan.Compared) :
    (plan.items.map fun item => item.path.components).Nodup := by
  obtain ⟨localTree, remoteTree, tolerance, keepsTimes, isCompared⟩ := compared
  rw [isCompared]
  cases valid : plan.options.isValid with
  | false => simp [compare_of_invalid valid]
  | true =>
    have paths : (compare localTree remoteTree plan.options tolerance keepsTimes).map
        (fun item => item.path) = (comparedPaths localTree remoteTree).filter fun path =>
          (listedVerdict localTree remoteTree plan.options tolerance keepsTimes path).isSome := by
      rw [compare_eq valid, ← map_fst_filterMap]
      apply List.ext_getElem
      · simp
      · intro index _ _
        simp [itemOf]
    have sorted := (comparedPaths_pairwise localTree remoteTree).filter fun path =>
      (listedVerdict localTree remoteTree plan.options tolerance keepsTimes path).isSome
    rw [← paths, List.pairwise_map] at sorted
    rw [List.nodup_iff_pairwise_ne, List.pairwise_map]
    exact sorted.imp fun isBefore => isBefore.ne

theorem knownItem_eq_some {id : Nat} {item : SyncItem} (known : knownItem plan id = some item) :
    plan.items[id]? = some item ∧ item.id = id := by
  obtain ⟨found, isId⟩ := Option.filter_eq_some_iff.mp known
  exact ⟨found, by simpa using isId⟩

/-- First choices are of different items of the plan. -/
theorem firstChoices_once (plan : SyncPlan) (choices : List (Nat × SyncAction)) :
    ((firstChoices plan choices).map fun choice => choice.1.id).Nodup ∧
      ∀ choice ∈ firstChoices plan choices,
        plan.items[choice.1.id]? = some choice.1 ∧ (choice.1.id, choice.2) ∈ choices := by
  induction choices using List.reverseRecOn with
  | nil => simp [firstChoices]
  | append_singleton choices choice ih =>
    obtain ⟨distinct, found⟩ := ih
    have earlier : ∀ other ∈ firstChoices plan choices,
        plan.items[other.1.id]? = some other.1 ∧ (other.1.id, other.2) ∈ choices ++ [choice] :=
      fun other member => ⟨(found other member).1, List.mem_append_left _ (found other member).2⟩
    rw [firstChoices_concat]
    split_ifs with again
    · rw [List.append_nil]
      exact ⟨distinct, earlier⟩
    · cases known : knownItem plan choice.1 with
      | none =>
        rw [Option.map_none, Option.toList_none, List.append_nil]
        exact ⟨distinct, earlier⟩
      | some item =>
        obtain ⟨isItem, isId⟩ := knownItem_eq_some known
        rw [Option.map_some, Option.toList_some]
        constructor
        · rw [List.map_append, List.nodup_append]
          refine ⟨distinct, by simp, ?_⟩
          intro first isFirst second isSecond same
          obtain ⟨other, member, rfl⟩ := List.mem_map.mp isFirst
          obtain rfl : second = item.id := by simpa using isSecond
          apply again
          rw [← isId, ← same]
          exact List.mem_map_of_mem (found other member).2
        · intro other member
          rcases List.mem_append.mp member with before | isLast
          · exact earlier other before
          · obtain rfl := List.mem_singleton.mp isLast
            exact ⟨isId ▸ isItem, by simp [isId]⟩

theorem firstChoices_paths (compared : plan.Compared) (choices : List (Nat × SyncAction)) :
    ((firstChoices plan choices).map fun choice => choice.1.path.components).Nodup := by
  obtain ⟨distinct, found⟩ := firstChoices_once plan choices
  rw [List.nodup_iff_pairwise_ne, List.pairwise_map] at distinct ⊢
  apply distinct.imp_of_mem
  intro first second isFirst isSecond differ same
  obtain ⟨firstRange, isFirstItem⟩ := List.getElem?_eq_some_iff.mp (found first isFirst).1
  obtain ⟨secondRange, isSecondItem⟩ := List.getElem?_eq_some_iff.mp (found second isSecond).1
  apply differ
  have paths (index : Nat) (inRange : index < plan.items.length) :
      (plan.items.map fun item => item.path.components)[index]? =
        some plan.items[index].path.components := by
    rw [List.getElem?_map, List.getElem?_eq_getElem inRange, Option.map_some]
  refine (List.getElem?_inj ?_ (nodup_paths compared)).mp ?_
  · simpa using firstRange
  rw [paths _ firstRange, paths _ secondRange, isFirstItem, isSecondItem, same]

/-! ### What runs -/

/-- What `run_sync` makes of its choices. -/
structure RunsAdmissible (plan : SyncPlan) (choices : List (Nat × SyncAction))
    (chosen : Choosing) : Prop where
  uploads : chosen.uploads = admissibleFiles plan choices .upload
  downloads : chosen.downloads = admissibleFiles plan choices .download
  carried : ∀ choice ∈ admissible plan choices, (plannedFile plan choice.1 choice.2).isSome = true
  sources : ∀ choice ∈ admissible plan choices, choice.1 ∈ plan.items ∧
    (choice.2 = .upload → choice.1.local.isSome = true) ∧
    (choice.2 = .download → choice.1.remote.isSome = true)
  once : ((admissible plan choices).map fun choice => choice.1.path.components).Nodup
  counts : chosen.uploads.length + chosen.downloads.length + explicitSkips plan choices +
    chosen.refused = choices.length

theorem runsAdmissible (compared : plan.Compared) (choices : List (Nat × SyncAction)) :
    RunsAdmissible plan choices (chooseFiles plan choices) := by
  have soFar := chosenSoFar_chooseFiles plan choices
  have carried : ∀ choice ∈ admissible plan choices,
      (plannedFile plan choice.1 choice.2).isSome = true := by
    intro choice member
    have admitted := (List.mem_filter.mp member).2
    simp only [admits, Bool.and_eq_true, decide_eq_true_eq] at admitted
    exact SyncItem.isSome_plannedFile admitted.1.1 admitted.1.2
  constructor
  · exact soFar.uploads
  · exact soFar.downloads
  · exact carried
  · intro choice member
    have found := (firstChoices_once plan choices).2 choice (List.mem_filter.mp member).1
    have isCopied := carried choice member
    refine ⟨List.mem_of_getElem? found.1, ?_, ?_⟩
    · intro isUpload
      simpa [isUpload, plannedFile, copyOf] using isCopied
    · intro isDownload
      simpa [isDownload, plannedFile, copyOf] using isCopied
  · exact (firstChoices_paths compared choices).sublist (List.filter_sublist.map _)
  · exact soFar.counts

end Sync

/-- Exactly the admissible choices run: while the session is live, the batches get their files. -/
theorem runSync_admissible {plan : SyncPlan} (compared : plan.Compared)
    (choices : List (Nat × SyncAction)) :
    Sync.RunsAdmissible plan choices (Sync.chooseFiles plan choices) ∧
      ∀ (engine : Engine) (syncId : Nat), engine.sync.plans.get? syncId = some plan →
        engine.connected plan.session = true →
        engine.runSync syncId choices =
          ((engine.setPlans (engine.sync.plans.erase syncId)).startSyncFiles plan .upload
            (Sync.admissibleFiles plan choices .upload)).startSyncFiles plan .download
              (Sync.admissibleFiles plan choices .download) := by
  have runs := Sync.runsAdmissible compared choices
  refine ⟨runs, ?_⟩
  intro engine syncId found live
  have stillLive : (engine.setPlans (engine.sync.plans.erase syncId)).connected plan.session =
      true := live
  simp only [Engine.runSync, found, stillLive, if_true, runs.uploads, runs.downloads]

/-- Of two files, the second is chosen twice; the first may not be downloaded, and there is no third. -/
theorem runSync_admissible_again :
    let choices := [(1, .upload), (1, .upload), (0, .download), (2, .upload)]
    Sync.RunsAdmissible (numberedPlan 2) choices (Sync.chooseFiles (numberedPlan 2) choices) ∧
      (Sync.chooseFiles (numberedPlan 2) choices).refused = 3 ∧
      (Sync.admissibleFiles (numberedPlan 2) choices .upload).map PlannedFile.destination =
        [⟨"/r/1"⟩] :=
  ⟨(runSync_admissible ⟨_, _, _, _, rfl⟩ _).1, by decide, by decide⟩

end Porthmos
