import Mathlib.Data.List.Induction
import Porthmos.Conflicts
import Porthmos.PathNames
import Porthmos.SyncView

/-!
# What the sync screen offers is what runs

Whatever is done on the screen, every item keeps an action that `run_sync` accepts for
it.  A choice names its item by the id, so it reaches the right item as long as the id is
the item's place in the plan, which ends where ids start over.
-/

namespace Porthmos

open Sync

/-- The items of the plan were listed by `compare`. -/
def SyncPlan.Compared (plan : SyncPlan) : Prop :=
  ∃ localTree remoteTree tolerance keepsTimes,
    plan.items = compare localTree remoteTree plan.options tolerance keepsTimes

/-- `run_sync` lets the item be copied somewhere, now or after a flip. -/
def SyncItem.mayCopy (item : SyncItem) : Bool := decide (item.action ≠ .skip) || item.flippable

/-! ### Listed items -/

namespace SyncPlan.Compared

variable {plan : SyncPlan} {item : SyncItem} {index : Nat}

theorem id_eq (compared : plan.Compared) (found : plan.items[index]? = some item) :
    item.id = index % 2 ^ 32 := by
  obtain ⟨localTree, remoteTree, tolerance, keepsTimes, isCompared⟩ := compared
  rw [isCompared] at found
  cases valid : plan.options.isValid with
  | false => simp [compare_of_invalid valid] at found
  | true =>
    rw [compare_eq valid, List.getElem?_mapIdx, Option.map_eq_some_iff] at found
    obtain ⟨listed, _, rfl⟩ := found
    rfl

theorem allows_action (compared : plan.Compared) (found : plan.items[index]? = some item) :
    item.allows item.action plan.options.direction = true := by
  obtain ⟨localTree, remoteTree, tolerance, keepsTimes, isCompared⟩ := compared
  have listed := List.mem_of_getElem? found
  rw [isCompared] at listed
  obtain ⟨path, _, count, verdict, _, isVerdict, rfl⟩ := mem_compare listed
  have fits := fits_verdictOf plan.options tolerance keepsTimes _ _ verdict isVerdict
  simp only [SyncItem.allows, SyncItem.allowedActions, itemOf, Option.isSome_map, decide_eq_true_eq]
  cases ticked : verdict.ticked with
  | true =>
    obtain ⟨notKinds, ⟨uploads, present, allowed⟩ | ⟨downloads, present, allowed⟩⟩ :=
      fits.1 ticked
    · simp [notKinds, uploads, present, allowed]
    · simp [notKinds, downloads, present, allowed]
  | false =>
    rw [(fits.2 ticked).1]
    split_ifs <;> simp

/-- A flippable item has both sides and is not about kinds. -/
theorem sides_of_flippable (compared : plan.Compared) (found : plan.items[index]? = some item)
    (flippable : item.flippable = true) :
    item.action = .skip ∧ item.reason ≠ .kindMismatch ∧ item.local.isSome ∧ item.remote.isSome := by
  obtain ⟨localTree, remoteTree, tolerance, keepsTimes, isCompared⟩ := compared
  have listed := List.mem_of_getElem? found
  rw [isCompared] at listed
  obtain ⟨path, _, count, verdict, _, isVerdict, rfl⟩ := mem_compare listed
  have fits := fits_verdictOf plan.options tolerance keepsTimes _ _ verdict isVerdict
  obtain ⟨action, reason, ticked⟩ := verdict
  simp only [itemOf, Verdict.flippable, Bool.and_eq_true, Bool.or_eq_true, decide_eq_true_eq]
    at flippable
  obtain ⟨rfl, isReason⟩ := flippable
  have notKinds : reason ≠ .kindMismatch := by
    rintro rfl
    simp at isReason
  have unticked : ticked = false := by
    rw [← Bool.not_eq_true]
    intro isTicked
    obtain ⟨_, ⟨uploads, _⟩ | ⟨downloads, _⟩⟩ := fits.1 isTicked
    · cases uploads
    · cases downloads
  obtain ⟨hasLocal, hasRemote⟩ := (fits.2 unticked).2.resolve_left notKinds
  exact ⟨rfl, notKinds, by simpa [itemOf] using hasLocal, by simpa [itemOf] using hasRemote⟩

end SyncPlan.Compared

/-! ### Actions -/

namespace SyncItem

variable {item : SyncItem} {direction : SyncDirection}

theorem allows_actionAfter (current : SyncAction) :
    item.allows (item.actionAfter current direction) direction = true := by
  have skips : .skip ∈ item.allowedActions direction := by
    unfold allowedActions
    split_ifs <;> simp
  unfold allows actionAfter
  rw [decide_eq_true_eq]
  dsimp only
  cases (item.allowedActions direction).findIdx? (· = current) with
  | none => exact skips
  | some position =>
    have bound : (position + 1) % (item.allowedActions direction).length <
        (item.allowedActions direction).length :=
      Nat.mod_lt _ (List.length_pos_of_mem skips)
    dsimp only
    rw [List.getD_eq_getElem?_getD, List.getElem?_eq_getElem bound, Option.getD_some]
    exact List.getElem_mem bound

theorem actionAfter_skip (notKinds : item.reason ≠ .kindMismatch) (hasLocal : item.local.isSome)
    (hasRemote : item.remote.isSome) : item.actionAfter .skip direction ≠ .skip := by
  unfold actionAfter allowedActions
  rw [if_neg notKinds]
  cases direction <;> simp [hasLocal, hasRemote, List.findIdx?_cons]

theorem isSome_plannedFile {plan : SyncPlan} {action : SyncAction} (copies : action ≠ .skip)
    (allowed : item.allows action direction = true) : (plannedFile plan item action).isSome := by
  unfold allows allowedActions at allowed
  rw [decide_eq_true_eq] at allowed
  by_cases kinds : item.reason = .kindMismatch
  · rw [if_pos kinds, List.mem_singleton] at allowed
    exact absurd allowed copies
  · rw [if_neg kinds] at allowed
    cases action with
    | skip => exact absurd rfl copies
    | upload =>
      simp only [plannedFile, copyOf, Option.isSome_map]
      dsimp only at allowed
      split_ifs at allowed <;> simp_all
    | download =>
      simp only [plannedFile, copyOf, Option.isSome_map]
      dsimp only at allowed
      split_ifs at allowed <;> simp_all

end SyncItem

/-! ### What the screen keeps -/

namespace SyncView

variable {passes : SyncItem → String → Bool} {view : SyncView} {plan : SyncPlan}

/-- The screen shows a plan: it has a tick for every item, and for every item an action
that `run_sync` accepts. -/
structure Shows (view : SyncView) (plan : SyncPlan) : Prop where
  plan_eq : view.plan = some plan
  ticked_length : view.ticked.length = plan.items.length
  actions_length : view.actions.length = plan.items.length
  visible_lt : ∀ index ∈ view.visible, index < plan.items.length
  visible_nodup : view.visible.Nodup
  allowed : ∀ index item, plan.items[index]? = some item →
    item.allows (view.actionAt index) plan.options.direction = true ∧
      (view.actionAt index = item.action ∨ item.flippable = true)

theorem isTicked_setTicked (view : SyncView) (index other : Nat) (ticked : Bool)
    (bound : index < view.ticked.length) :
    (view.setTicked index ticked).isTicked other =
      if other = index then ticked else view.isTicked other := by
  unfold isTicked setTicked
  rw [List.getD_eq_getElem?_getD, List.getElem?_set, List.getD_eq_getElem?_getD]
  by_cases same : index = other
  · subst same
    simp [bound]
  · rw [if_neg same, if_neg (Ne.symm same)]

theorem actionAt_setAction (view : SyncView) (index other : Nat) (action : SyncAction)
    (bound : index < view.actions.length) :
    (view.setAction index action).actionAt other =
      if other = index then action else view.actionAt other := by
  unfold actionAt setAction
  rw [List.getD_eq_getElem?_getD, List.getElem?_set, List.getD_eq_getElem?_getD]
  by_cases same : index = other
  · subst same
    simp [bound]
  · rw [if_neg same, if_neg (Ne.symm same)]

theorem Shows.setTicked (shows_ : view.Shows plan) (index : Nat) (ticked : Bool) :
    (view.setTicked index ticked).Shows plan :=
  ⟨shows_.plan_eq, by rw [SyncView.setTicked, List.length_set, shows_.ticked_length],
    shows_.actions_length, shows_.visible_lt, shows_.visible_nodup, shows_.allowed⟩

theorem Shows.setAction (shows_ : view.Shows plan) {index : Nat} {item : SyncItem}
    {action : SyncAction} (found : plan.items[index]? = some item)
    (accepted : item.allows action plan.options.direction = true ∧
      (action = item.action ∨ item.flippable = true)) :
    (view.setAction index action).Shows plan := by
  have bound : index < view.actions.length := by
    rw [shows_.actions_length]
    exact (List.getElem?_eq_some_iff.mp found).1
  refine ⟨shows_.plan_eq, shows_.ticked_length, ?_, shows_.visible_lt, shows_.visible_nodup, ?_⟩
  · rw [SyncView.setAction, List.length_set, shows_.actions_length]
  · intro other otherItem otherFound
    rw [actionAt_setAction _ _ _ _ bound]
    split_ifs with same
    · subst same
      rw [found, Option.some.injEq] at otherFound
      exact otherFound ▸ accepted
    · exact shows_.allowed other otherItem otherFound

theorem Shows.flipAt (shows_ : view.Shows plan) (index : Nat) : (view.flipAt index).Shows plan := by
  unfold SyncView.flipAt
  rw [shows_.plan_eq, Option.bind_some]
  cases found : plan.items[index]? with
  | none => exact shows_
  | some item =>
    dsimp only [Option.map_some]
    cases flippable : item.flippable with
    | false => exact shows_
    | true =>
      exact (shows_.setAction found ⟨SyncItem.allows_actionAfter _, Or.inr flippable⟩).setTicked
        _ _

theorem Shows.toggle (shows_ : view.Shows plan) : view.toggle.Shows plan := by
  unfold SyncView.toggle
  split
  · exact shows_
  · split_ifs
    · exact shows_.setTicked _ _
    · exact shows_.setTicked _ _
    · exact shows_.flipAt _

theorem Shows.tickOne (shows_ : view.Shows plan) (compared : plan.Compared) (index : Nat) :
    (tickOne plan view index).Shows plan := by
  unfold SyncView.tickOne
  cases found : plan.items[index]? with
  | none => exact shows_
  | some item =>
    dsimp only
    split_ifs
    · exact (shows_.setAction found ⟨compared.allows_action found, Or.inl rfl⟩).setTicked _ _
    · exact shows_

theorem Shows.foldl {change : SyncView → Nat → SyncView}
    (kept : ∀ view index, view.Shows plan → (change view index).Shows plan)
    (indices : List Nat) (shows_ : view.Shows plan) : (indices.foldl change view).Shows plan := by
  induction indices generalizing view with
  | nil => exact shows_
  | cons index rest ih => exact ih (kept view index shows_)

theorem Shows.refilter (isPlan : view.plan = some plan)
    (ticked : view.ticked.length = plan.items.length)
    (actions : view.actions.length = plan.items.length)
    (allowed : ∀ index item, plan.items[index]? = some item →
      item.allows (view.actionAt index) plan.options.direction = true ∧
        (view.actionAt index = item.action ∨ item.flippable = true)) (keep : Option Nat) :
    (view.refilter passes keep).Shows plan := by
  refine ⟨isPlan, ticked, actions, ?_, ?_, allowed⟩
  · intro index member
    simp only [SyncView.refilter, visibleItems, isPlan] at member
    exact List.mem_range.mp (List.mem_of_mem_filter member)
  · simp only [SyncView.refilter, visibleItems, isPlan]
    exact List.nodup_range.filter _

theorem Shows.setFilter (shows_ : view.Shows plan) (text : Option String) :
    (view.setFilter passes text).Shows plan := by
  unfold SyncView.setFilter
  refine Shows.refilter ?_ ?_ ?_ ?_ _
  · exact shows_.plan_eq
  · exact shows_.ticked_length
  · exact shows_.actions_length
  · exact shows_.allowed

theorem shows_load (view : SyncView) (compared : plan.Compared) :
    (view.load passes plan).Shows plan := by
  refine Shows.refilter rfl (by simp) (by simp) ?_ none
  intro index item found
  have isAction : (plan.items.map SyncItem.action).getD index .skip = item.action := by
    rw [List.getD_eq_getElem?_getD, List.getElem?_map, found]
    rfl
  rw [actionAt, isAction]
  exact ⟨compared.allows_action found, Or.inl rfl⟩

theorem plan_foldl {change : SyncView → Nat → SyncView}
    (kept : ∀ view index, (change view index).plan = view.plan) (indices : List Nat)
    (view : SyncView) : (indices.foldl change view).plan = view.plan := by
  induction indices generalizing view with
  | nil => rfl
  | cons index rest ih => rw [List.foldl_cons, ih, kept]

theorem plan_flipAt (view : SyncView) (index : Nat) : (view.flipAt index).plan = view.plan := by
  unfold SyncView.flipAt
  split
  · rfl
  · split_ifs <;> rfl

theorem plan_tickAll (view : SyncView) : view.tickAll.plan = view.plan := by
  unfold SyncView.tickAll
  split
  · rfl
  · refine plan_foldl (fun view index => ?_) _ _
    unfold SyncView.tickOne
    split
    · rfl
    · split_ifs <;> rfl

/-- The plan changes by loading and clearing only. -/
theorem plan_apply (view : SyncView) (op : ViewOp) :
    (∃ plan, op = .load plan) ∨ op = .clear ∨ (op.apply passes view).plan = view.plan := by
  cases op with
  | load plan => exact Or.inl ⟨plan, rfl⟩
  | clear => exact Or.inr (Or.inl rfl)
  | toggle =>
    right; right
    simp only [ViewOp.apply, SyncView.toggle]
    split
    · rfl
    · split_ifs
      · rfl
      · rfl
      · exact plan_flipAt _ _
  | flip =>
    right; right
    simp only [ViewOp.apply, SyncView.flip]
    split
    · rfl
    · exact plan_flipAt _ _
  | tickAll => exact Or.inr (Or.inr (plan_tickAll view))
  | untickAll =>
    right; right
    simp only [ViewOp.apply, SyncView.untickAll]
    exact plan_foldl (fun view index => (rfl : (view.setTicked index false).plan = view.plan)) _ _
  | moveCursor delta =>
    right; right
    simp only [ViewOp.apply, SyncView.moveCursor]
    split_ifs <;> rfl
  | startFilter | finishFilter | typeFilter | eraseFilter | clearFilter => exact Or.inr (Or.inr rfl)

/-- Every operation but loading and clearing keeps the plan and what is shown of it. -/
theorem Shows.apply (shows_ : view.Shows plan) (compared : plan.Compared) (op : ViewOp)
    (stays : (op.apply passes view).plan = some plan) : (op.apply passes view).Shows plan := by
  cases op with
  | load other =>
    obtain rfl : other = plan := Option.some.inj stays
    exact shows_load view compared
  | clear => cases stays
  | toggle => exact shows_.toggle
  | flip =>
    simp only [ViewOp.apply, SyncView.flip]
    split
    · exact shows_
    · exact shows_.flipAt _
  | tickAll =>
    simp only [ViewOp.apply, SyncView.tickAll, shows_.plan_eq]
    exact shows_.foldl (fun view index kept => kept.tickOne compared index) _
  | untickAll => exact shows_.foldl (fun view index kept => kept.setTicked index false) _
  | startFilter => exact ⟨shows_.plan_eq, shows_.ticked_length, shows_.actions_length,
      shows_.visible_lt, shows_.visible_nodup, shows_.allowed⟩
  | finishFilter => exact ⟨shows_.plan_eq, shows_.ticked_length, shows_.actions_length,
      shows_.visible_lt, shows_.visible_nodup, shows_.allowed⟩
  | typeFilter character => exact shows_.setFilter _
  | eraseFilter => exact shows_.setFilter _
  | clearFilter =>
    have unedited : SyncView.Shows { view with editingFilter := false } plan :=
      ⟨shows_.plan_eq, shows_.ticked_length, shows_.actions_length, shows_.visible_lt,
        shows_.visible_nodup, shows_.allowed⟩
    exact unedited.setFilter none
  | moveCursor delta =>
    simp only [ViewOp.apply, SyncView.moveCursor]
    split_ifs
    · exact shows_
    · exact ⟨shows_.plan_eq, shows_.ticked_length, shows_.actions_length, shows_.visible_lt,
        shows_.visible_nodup, shows_.allowed⟩

theorem shows_after (ops : List ViewOp) (isPlan : (after passes ops).plan = some plan)
    (compared : plan.Compared) : (after passes ops).Shows plan := by
  unfold after at isPlan ⊢
  induction ops using List.reverseRecOn with
  | nil => cases isPlan
  | append_singleton ops op ih =>
    rw [List.foldl_append, List.foldl_cons, List.foldl_nil] at isPlan ⊢
    rcases plan_apply (List.foldl (ViewOp.apply passes) new ops) op with ⟨other, rfl⟩ | rfl | same
    · obtain rfl : other = plan := Option.some.inj isPlan
      exact shows_load _ compared
    · cases isPlan
    · exact (ih (same ▸ isPlan)).apply compared op isPlan

end SyncView

/-! ### The choices -/

namespace Sync

variable {plan : SyncPlan}

/-- A choice that `run_sync` does not refuse the first time. -/
def Acceptable (plan : SyncPlan) (choice : Nat × SyncAction) : Prop :=
  ∃ item, plan.items[choice.1]? = some item ∧ item.id = choice.1 ∧ choice.2 ≠ .skip ∧
    item.allows choice.2 plan.options.direction = true ∧
    (choice.2 = item.action ∨ item.flippable = true)

theorem choose_acceptable {choosing : Choosing} {choice : Nat × SyncAction}
    (acceptable : Acceptable plan choice) (isNew : choice.1 ∉ choosing.seen) :
    (choose plan choosing choice).refused = choosing.refused ∧
      (choose plan choosing choice).seen = choice.1 :: choosing.seen := by
  obtain ⟨id, action⟩ := choice
  obtain ⟨item, found, isId, copies, allowed, isOwn⟩ := acceptable
  dsimp only at found isId copies allowed isOwn isNew
  have accepted : accepts item plan.options.direction action = true := by
    simpa [accepts, allowed] using isOwn
  have isCopy : (plannedFile plan item action).isSome :=
    SyncItem.isSome_plannedFile copies allowed
  obtain ⟨file, planned⟩ := Option.isSome_iff_exists.mp isCopy
  have passes : (plan.items[id]?).filter (fun item => item.id = id) = some item := by
    simp [found, isId]
  unfold choose
  simp only [passes, if_neg isNew, if_neg copies, accepted, Bool.not_true, Bool.false_eq_true,
    if_false, planned]
  split_ifs <;> exact ⟨rfl, rfl⟩

theorem refused_chooseFiles {choices : List (Nat × SyncAction)}
    (once : (choices.map Prod.fst).Nodup)
    (acceptable : ∀ choice ∈ choices, Acceptable plan choice) :
    (chooseFiles plan choices).refused = 0 := by
  unfold chooseFiles
  suffices run : ∀ choosing : Choosing, (∀ choice ∈ choices, choice.1 ∉ choosing.seen) →
      (choices.foldl (choose plan) choosing).refused = choosing.refused from run _ (by simp)
  induction choices with
  | nil => exact fun _ _ => rfl
  | cons choice rest ih =>
    intro choosing isNew
    obtain ⟨notAgain, restOnce⟩ := List.nodup_cons.mp once
    obtain ⟨refused, seen⟩ := choose_acceptable (acceptable choice (by simp))
      (isNew choice (by simp))
    rw [List.foldl_cons, ih restOnce (fun other member => acceptable other (by simp [member])),
      refused]
    intro other member
    rw [seen, List.mem_cons, not_or]
    refine ⟨fun same => notAgain ?_, isNew other (by simp [member])⟩
    exact same ▸ List.mem_map_of_mem member

end Sync

namespace SyncView

variable {passes : SyncItem → String → Bool} {view : SyncView} {plan : SyncPlan}

/-- What the screen hands over names every item once and is not refused: each choice is
an allowed action of the item, its own one unless the item can be flipped, and only
ticked items are copied. -/
structure RunsAsShown (view : SyncView) (plan : SyncPlan) : Prop where
  once : (view.visibleChoices.map Prod.fst).Nodup
  accepted : (chooseFiles plan view.visibleChoices).refused = 0
  allowed : ∀ choice ∈ view.visibleChoices, ∃ item, plan.items[choice.1]? = some item ∧
    item.allows choice.2 plan.options.direction = true ∧
      (choice.2 = item.action ∨ item.flippable = true)
  ticked : ∀ choice ∈ view.visibleChoices, view.isTicked choice.1 = true
  uploads : ∀ file ∈ (chooseFiles plan view.visibleChoices).uploads, ∃ index item,
    plan.items[index]? = some item ∧ view.isTicked index = true ∧
      plannedFile plan item .upload = some file
  downloads : ∀ file ∈ (chooseFiles plan view.visibleChoices).downloads, ∃ index item,
    plan.items[index]? = some item ∧ view.isTicked index = true ∧
      plannedFile plan item .download = some file

/-- As long as ids do not start over, choices name their items by place. -/
theorem Shows.visibleChoices_eq (shows_ : view.Shows plan) (compared : plan.Compared)
    (few : ∀ index item, plan.items[index]? = some item → 2 ^ 32 ≤ index → item.mayCopy = false) :
    view.visibleChoices =
        (view.visible.filter view.chooses).map (fun index => (index, view.actionAt index)) ∧
      ∀ index ∈ view.visible.filter view.chooses, Acceptable plan (index, view.actionAt index) := by
  have chosen : ∀ index ∈ view.visible.filter view.chooses, ∃ item,
      plan.items[index]? = some item ∧ item.id = index ∧ view.actionAt index ≠ .skip ∧
        item.allows (view.actionAt index) plan.options.direction = true ∧
        (view.actionAt index = item.action ∨ item.flippable = true) := by
    intro index member
    obtain ⟨isVisible, isChosen⟩ := List.mem_filter.mp member
    obtain ⟨_, copies⟩ := (Bool.and_eq_true _ _).mp isChosen
    have found := List.getElem?_eq_getElem (shows_.visible_lt index isVisible)
    obtain ⟨allowed, isOwn⟩ := shows_.allowed index _ found
    refine ⟨_, found, ?_, of_decide_eq_true copies, allowed, isOwn⟩
    rw [compared.id_eq found]
    apply Nat.mod_eq_of_lt
    by_contra late
    have fixed := few index _ found (not_lt.mp late)
    simp only [SyncItem.mayCopy, Bool.or_eq_false_iff, decide_eq_false_iff_not, not_not] at fixed
    rcases isOwn with own | flippable
    · exact of_decide_eq_true copies (own.trans fixed.1)
    · rw [fixed.2] at flippable
      cases flippable
  constructor
  · unfold visibleChoices
    rw [shows_.plan_eq]
    refine List.map_congr_left fun index member => ?_
    obtain ⟨item, found, isId, _⟩ := chosen index member
    rw [found, Option.map_some, Option.getD_some, isId]
  · intro index member
    exact chosen index member

theorem Shows.runsAsShown (shows_ : view.Shows plan) (compared : plan.Compared)
    (few : ∀ index item, plan.items[index]? = some item → 2 ^ 32 ≤ index → item.mayCopy = false) :
    view.RunsAsShown plan := by
  obtain ⟨choices, acceptable⟩ := shows_.visibleChoices_eq compared few
  have once : (view.visibleChoices.map Prod.fst).Nodup := by
    rw [choices, List.map_map]
    simpa [Function.comp_def] using shows_.visible_nodup.filter _
  have chosen : ∀ choice ∈ view.visibleChoices,
      Acceptable plan choice ∧ view.isTicked choice.1 = true := by
    intro choice member
    rw [choices] at member
    obtain ⟨index, isChosen, rfl⟩ := List.mem_map.mp member
    exact ⟨acceptable index isChosen, ((Bool.and_eq_true _ _).mp (List.mem_filter.mp isChosen).2).1⟩
  have taken := chosen_chooseFiles plan view.visibleChoices
  refine ⟨once, refused_chooseFiles once fun choice member => (chosen choice member).1, ?_,
    fun choice member => (chosen choice member).2, ?_, ?_⟩
  · intro choice member
    obtain ⟨item, found, _, _, allowed, isOwn⟩ := (chosen choice member).1
    exact ⟨item, found, allowed, isOwn⟩
  · intro file member
    obtain ⟨id, item, isChoice, found, _, planned⟩ := taken.uploads file member
    exact ⟨id, item, found, (chosen _ isChoice).2, planned⟩
  · intro file member
    obtain ⟨id, item, isChoice, found, _, planned⟩ := taken.downloads file member
    exact ⟨id, item, found, (chosen _ isChoice).2, planned⟩

/-! ### Picking one item -/

/-- Load a plan, untick everything, go to an item and toggle it. -/
def pickOps (plan : SyncPlan) (index : Nat) : List ViewOp :=
  [.load plan, .untickAll, .moveCursor index, .toggle]

theorem isTicked_foldl_setTicked (indices : List Nat) (view : SyncView)
    (bounds : ∀ index ∈ indices, index < view.ticked.length) (other : Nat) :
    (indices.foldl (fun view index => view.setTicked index false) view).isTicked other =
      (view.isTicked other && decide (other ∉ indices)) := by
  induction indices generalizing view with
  | nil => simp
  | cons index rest ih =>
    rw [List.foldl_cons, ih, isTicked_setTicked _ _ _ _ (bounds index (by simp))]
    · by_cases same : other = index <;> simp [same]
    · intro later member
      rw [setTicked, List.length_set]
      exact bounds later (by simp [member])

theorem foldl_setTicked_fields (indices : List Nat) (view : SyncView) :
    let result := indices.foldl (fun view index => view.setTicked index false) view
    result.plan = view.plan ∧ result.actions = view.actions ∧ result.visible = view.visible ∧
      result.cursor = view.cursor ∧ result.ticked.length = view.ticked.length := by
  induction indices generalizing view with
  | nil => exact ⟨rfl, rfl, rfl, rfl, rfl⟩
  | cons index rest ih =>
    obtain ⟨plan, actions, visible, cursor, ticked⟩ := ih (view.setTicked index false)
    exact ⟨plan, actions, visible, cursor, ticked.trans (List.length_set ..)⟩

/-- The screen shows all of a plan with nothing ticked and every item's own action. -/
structure Fresh (view : SyncView) (plan : SyncPlan) : Prop where
  plan_eq : view.plan = some plan
  ticked_length : view.ticked.length = plan.items.length
  actions_length : view.actions.length = plan.items.length
  visible_eq : view.visible = List.range plan.items.length
  unticked : ∀ index, view.isTicked index = false
  own : ∀ index item, plan.items[index]? = some item → view.actionAt index = item.action

theorem fresh_load (plan : SyncPlan) : ((new.load (fun _ _ => true) plan).untickAll).Fresh plan ∧
      ((new.load (fun _ _ => true) plan).untickAll).cursor = 0 := by
  have visible : (new.load (fun _ _ => true) plan).visible = List.range plan.items.length := by
    simp [load, refilter, visibleItems]
  have bounds : ∀ index ∈ (new.load (fun _ _ => true) plan).visible,
      index < (new.load (fun _ _ => true) plan).ticked.length := by
    intro index member
    rw [visible, List.mem_range] at member
    simpa [load, refilter] using member
  obtain ⟨samePlan, sameActions, sameVisible, sameCursor, sameLength⟩ := foldl_setTicked_fields
    (new.load (fun _ _ => true) plan).visible (new.load (fun _ _ => true) plan)
  constructor
  · refine ⟨samePlan, ?_, ?_, sameVisible.trans visible, ?_, ?_⟩
    · rw [untickAll, sameLength]
      simp [load, refilter]
    · rw [untickAll, sameActions]
      simp [load, refilter]
    · intro index
      rw [untickAll, isTicked_foldl_setTicked _ _ bounds, visible]
      by_cases isItem : index < plan.items.length
      · simp [isItem]
      · have none : (new.load (fun _ _ => true) plan).isTicked index = false := by
          rw [isTicked, List.getD_eq_getElem?_getD, List.getElem?_eq_none]
          · rfl
          · simpa [load, refilter] using isItem
        rw [none, Bool.false_and]
    · intro index item found
      rw [untickAll, actionAt, sameActions]
      simp [load, refilter, List.getD_eq_getElem?_getD, found]
  · rw [untickAll, sameCursor]
    simp [load, refilter]

theorem Fresh.moveCursor (fresh : view.Fresh plan) (atStart : view.cursor = 0) {index : Nat}
    (bound : index < plan.items.length) :
    (view.moveCursor index).Fresh plan ∧ (view.moveCursor index).current = some index := by
  have someVisible : view.visible ≠ [] := by
    rw [fresh.visible_eq]
    apply List.ne_nil_of_length_pos
    rw [List.length_range]
    omega
  have moved : view.moveCursor index = { view with cursor := index } := by
    have place :
        (max 0 (min ((view.cursor : Int) + index) ((view.visible.length : Int) - 1))).toNat =
          index := by
      rw [fresh.visible_eq, List.length_range, atStart]
      omega
    unfold SyncView.moveCursor
    rw [if_neg someVisible]
    dsimp only
    rw [place]
  rw [moved]
  refine ⟨⟨fresh.plan_eq, fresh.ticked_length, fresh.actions_length, fresh.visible_eq,
    fresh.unticked, fresh.own⟩, ?_⟩
  rw [current]
  dsimp only
  rw [fresh.visible_eq, List.getElem?_range bound]

theorem Fresh.toggle (fresh : view.Fresh plan) (compared : plan.Compared) {index : Nat}
    {item : SyncItem} (found : plan.items[index]? = some item) (mayCopy : item.mayCopy = true)
    (isCurrent : view.current = some index) :
    view.toggle.plan = some plan ∧ view.toggle.visible = List.range plan.items.length ∧
      (∀ other, view.toggle.isTicked other = decide (other = index)) ∧
      view.toggle.actionAt index ≠ .skip := by
  have bound : index < plan.items.length := (List.getElem?_eq_some_iff.mp found).1
  have ticks (other : Nat) (changed : SyncView) (same : changed.ticked = view.ticked) :
      (changed.setTicked index true).isTicked other = decide (other = index) := by
    rw [isTicked_setTicked _ _ _ _ (by rw [same, fresh.ticked_length]; exact bound)]
    have unticked : changed.isTicked other = false := by
      rw [isTicked, same]
      exact fresh.unticked other
    by_cases isIndex : other = index <;> simp [isIndex, unticked]
  unfold SyncView.toggle
  rw [isCurrent]
  dsimp only
  rw [fresh.unticked index, fresh.own index item found, if_neg Bool.false_ne_true]
  by_cases skips : item.action = .skip
  · rw [if_neg (not_not.mpr skips)]
    have flippable : item.flippable = true := by simpa [SyncItem.mayCopy, skips] using mayCopy
    obtain ⟨_, notKinds, hasLocal, hasRemote⟩ := compared.sides_of_flippable found flippable
    have copies : item.actionAfter (view.actionAt index) plan.options.direction ≠ .skip := by
      rw [fresh.own index item found, skips]
      exact SyncItem.actionAfter_skip notKinds hasLocal hasRemote
    have flipped : view.flipAt index = (view.setAction index
        (item.actionAfter (view.actionAt index) plan.options.direction)).setTicked index true := by
      simp [flipAt, fresh.plan_eq, found, flippable, copies]
    rw [flipped]
    refine ⟨fresh.plan_eq, fresh.visible_eq, fun other => ticks other _ rfl, ?_⟩
    have isNext := actionAt_setAction view index index
      (item.actionAfter (view.actionAt index) plan.options.direction)
      (by rw [fresh.actions_length]; exact bound)
    rw [if_pos rfl] at isNext
    exact fun same => copies (isNext.symm.trans same)
  · rw [if_pos skips]
    refine ⟨fresh.plan_eq, fresh.visible_eq, fun other => ticks other _ rfl, ?_⟩
    exact fun same => skips ((fresh.own index item found).symm.trans same)

theorem after_pickOps (compared : plan.Compared) {index : Nat} {item : SyncItem}
    (found : plan.items[index]? = some item) (mayCopy : item.mayCopy = true) :
    let view := after (fun _ _ => true) (pickOps plan index)
    view.plan = some plan ∧ view.visible = List.range plan.items.length ∧
      (∀ other, view.isTicked other = decide (other = index)) ∧ view.actionAt index ≠ .skip := by
  obtain ⟨fresh, atStart⟩ := fresh_load plan
  obtain ⟨moved, isCurrent⟩ := fresh.moveCursor atStart (List.getElem?_eq_some_iff.mp found).1
  exact moved.toggle compared found mayCopy isCurrent

theorem not_runsAsShown (compared : plan.Compared) {index : Nat} {item : SyncItem}
    (found : plan.items[index]? = some item) (mayCopy : item.mayCopy = true)
    (late : 2 ^ 32 ≤ index) : ¬ (after (fun _ _ => true) (pickOps plan index)).RunsAsShown plan := by
  obtain ⟨isPlan, visible, ticks, copies⟩ := after_pickOps compared found mayCopy
  generalize after (fun _ _ => true) (pickOps plan index) = view at *
  intro asShown
  -- The one choice names the place that the id has started over at.
  have isChoice : (index % 2 ^ 32, view.actionAt index) ∈ view.visibleChoices := by
    unfold visibleChoices
    rw [isPlan]
    refine List.mem_map.mpr ⟨index, List.mem_filter.mpr ⟨?_, ?_⟩, ?_⟩
    · rw [visible, List.mem_range]
      exact (List.getElem?_eq_some_iff.mp found).1
    · simp [chooses, ticks, copies]
    · rw [found, Option.map_some, Option.getD_some, compared.id_eq found]
  have ticked := asShown.ticked _ isChoice
  rw [ticks, decide_eq_true_eq] at ticked
  have bound := Nat.mod_lt index (by decide : 2 ^ 32 > 0)
  omega

end SyncView

/-! ### The two sides agree -/

/-- What the screen offers of a plan is what runs, whatever is done on the screen, exactly
if no item from place 2³² on can be copied. -/
theorem choices_runAsShown_iff (plan : SyncPlan) (compared : plan.Compared) :
    (∀ (passes : SyncItem → String → Bool) (ops : List ViewOp),
      (SyncView.after passes ops).plan = some plan →
        (SyncView.after passes ops).RunsAsShown plan) ↔
      ∀ index item, plan.items[index]? = some item → 2 ^ 32 ≤ index → item.mayCopy = false := by
  constructor
  · intro runs index item found late
    rw [← Bool.not_eq_true]
    intro mayCopy
    have isPlan := (SyncView.after_pickOps compared found mayCopy).1
    exact SyncView.not_runsAsShown compared found mayCopy late (runs _ _ isPlan)
  · intro few passes ops isPlan
    exact (SyncView.shows_after ops isPlan compared).runsAsShown compared few

/-- The plan for one new file runs as it is shown. -/
theorem choices_runAsShown_oneFile :
    let plan := planOf 0 0 ⟨"/l"⟩ ⟨"/r"⟩ ⟨.localToRemote, .time, true⟩ 0 true ⟨oneFileTree, 0⟩
      ⟨.new, 0⟩
    ∀ (passes : SyncItem → String → Bool) (ops : List ViewOp),
      (SyncView.after passes ops).plan = some plan →
        (SyncView.after passes ops).RunsAsShown plan := by
  intro plan
  refine (choices_runAsShown_iff plan ⟨oneFileTree, .new, 0, true, rfl⟩).mpr ?_
  intro index item found late
  have one : plan.items.length = 1 := by decide
  have bound := (List.getElem?_eq_some_iff.mp found).1
  omega

/-! ### A folder of many files -/

/-- The tree of a folder with the files 0, 1, … of one byte each. -/
def numberedTree : Nat → Tree
  | 0 => .new
  | count + 1 => (numberedTree count).insert ⟨count.repr⟩ ⟨.file, 1, none⟩

/-- The plan to upload them to an empty folder. -/
def numberedPlan (count : Nat) : SyncPlan :=
  planOf 0 0 ⟨"/l"⟩ ⟨"/r"⟩ ⟨.localToRemote, .time, true⟩ 0 true ⟨numberedTree count, 0⟩ ⟨.new, 0⟩

theorem components_repr (number : Nat) :
    (Path.mk number.repr).components = [.normal number.repr] := by
  have differs (char : Char) (notDigit : char.isDigit = false) : char ∉ number.repr.toList :=
    fun member => absurd (isDigit_of_mem_repr member) (by simp [notDigit])
  apply components_of_plain
  refine ⟨by simp, differs '/' (by decide), fun same => ?_, fun same => ?_⟩
  all_goals exact differs '.' (by decide) (by rw [same]; decide)

theorem get?_numberedTree (count : Nat) (path : Path) : (numberedTree count).get? path =
      if ∃ number < count, path.components = [.normal number.repr] then some ⟨.file, 1, none⟩
      else none := by
  induction count with
  | zero => simp [numberedTree, Tree.new, Tree.get?]
  | succ count ih =>
    rw [numberedTree, Tree.get?_insert, components_repr, ih]
    have cases : (∃ number < count + 1, path.components = [.normal number.repr]) ↔
        path.components = [.normal count.repr] ∨
          ∃ number < count, path.components = [.normal number.repr] := by
      simp only [Nat.lt_succ_iff_lt_or_eq, or_and_right, exists_or, exists_eq_left]
      exact or_comm
    by_cases isLast : path.components = [.normal count.repr]
    · rw [if_pos isLast, if_pos (cases.mpr (Or.inl isLast))]
    · rw [if_neg isLast]
      simp only [cases, isLast, false_or]

theorem get?_new (path : Path) : Tree.new.get? path = none := rfl

theorem length_comparedPaths (count : Nat) :
    (comparedPaths (numberedTree count) .new).length = count := by
  have keys : ((comparedPaths (numberedTree count) .new).map Path.components).Perm
      ((List.range count).map fun number => [Component.normal number.repr]) := by
    refine (List.perm_ext_iff_of_nodup ?_ ?_).mpr fun key => ?_
    · rw [map_components_comparedPaths]
      exact OrderedMap.nodup_keys _
    · refine List.nodup_range.map fun first second same => repr_inj ?_
      simpa using same
    · constructor
      · intro member
        obtain ⟨path, listed, rfl⟩ := List.mem_map.mp member
        have present := exists_mem_comparedPaths_iff.mp ⟨path, listed, rfl⟩
        rw [get?_numberedTree, get?_new] at present
        split_ifs at present with isFile
        · obtain ⟨number, bound, same⟩ := isFile
          exact List.mem_map.mpr ⟨number, List.mem_range.mpr bound, same.symm⟩
        · simp at present
      · intro member
        obtain ⟨number, bound, rfl⟩ := List.mem_map.mp member
        have isFile : ((numberedTree count).get? ⟨number.repr⟩).isSome := by
          rw [get?_numberedTree, if_pos ⟨number, List.mem_range.mp bound, components_repr number⟩]
          rfl
        obtain ⟨path, listed, same⟩ := exists_mem_comparedPaths_iff.mpr (Or.inl isFile)
        rw [components_repr] at same
        exact List.mem_map.mpr ⟨path, listed, same⟩
  simpa using keys.length_eq

/-- Each of the files is uploaded. -/
theorem items_numberedPlan (count : Nat) : (numberedPlan count).items.length = count ∧
      ∀ item ∈ (numberedPlan count).items, item.mayCopy = true := by
  have isNew : ∀ path ∈ comparedPaths (numberedTree count) .new,
      listedVerdict (numberedTree count) .new ⟨.localToRemote, .time, true⟩ 0 true path =
        some ⟨.upload, .onlyLocal, true⟩ := by
    intro path listed
    have notPruned : ¬ Pruned (numberedTree count) .new path := by
      rintro ⟨ancestor, _, differ⟩
      simp [kindsDiffer, get?_new] at differ
    have present := exists_mem_comparedPaths_iff.mp ⟨path, listed, rfl⟩
    rw [get?_numberedTree, get?_new] at present
    rw [listedVerdict, if_neg notPruned, get?_numberedTree, get?_new]
    split_ifs at present ⊢
    · rfl
    · simp at present
  have items : (numberedPlan count).items =
      ((comparedPaths (numberedTree count) .new).map fun path =>
        (path, (⟨.upload, .onlyLocal, true⟩ : Verdict))).mapIdx
          fun place listed => itemOf (numberedTree count) .new listed.1 place listed.2 := by
    rw [numberedPlan, planOf]
    dsimp only
    rw [compare_eq rfl, ← List.filterMap_eq_map]
    congr 1
    refine List.filterMap_congr fun path listed => ?_
    rw [isNew path listed]
    rfl
  rw [items]
  constructor
  · rw [List.length_mapIdx, List.length_map, length_comparedPaths]
  · intro item member
    obtain ⟨place, bound, rfl⟩ := List.mem_mapIdx.mp member
    simp [SyncItem.mayCopy, itemOf]

/-- Of too many new files the last one can be ticked alone, and its choice names the
first one. -/
theorem numberedPlan_runsOther :
    (numberedPlan (2 ^ 32 + 1)).Compared ∧
      (SyncView.after (fun _ _ => true)
        (SyncView.pickOps (numberedPlan (2 ^ 32 + 1)) (2 ^ 32))).plan =
          some (numberedPlan (2 ^ 32 + 1)) ∧
      ¬ (SyncView.after (fun _ _ => true)
        (SyncView.pickOps (numberedPlan (2 ^ 32 + 1)) (2 ^ 32))).RunsAsShown
          (numberedPlan (2 ^ 32 + 1)) := by
  have compared (count : Nat) : (numberedPlan count).Compared :=
    ⟨numberedTree count, .new, 0, true, rfl⟩
  have isCompared := compared (2 ^ 32 + 1)
  obtain ⟨length, mayCopy⟩ := items_numberedPlan (2 ^ 32 + 1)
  generalize numberedPlan (2 ^ 32 + 1) = plan at *
  obtain ⟨item, found⟩ : ∃ item, plan.items[2 ^ 32]? = some item :=
    ⟨_, List.getElem?_eq_getElem (by rw [length]; exact Nat.lt_succ_self _)⟩
  have copies := mayCopy item (List.mem_of_getElem? found)
  exact ⟨isCompared, (SyncView.after_pickOps isCompared found copies).1,
    SyncView.not_runsAsShown isCompared found copies le_rfl⟩

end Porthmos
