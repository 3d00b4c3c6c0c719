import Porthmos.ConflictAnswered
import Porthmos.ConflictReviews

/-!
# Conflicts between the engine and the screen

The engine tells the screen of conflicts, and the screen sends the answers back.  Both go on in the
meantime, and what was told or sent may arrive much later.
-/

namespace Porthmos

/-- The engine and the screen, and what was told and chosen so far. -/
structure Desk where
  engine : Engine
  app : App
  /-- The batches that the engine has told of, with their plans. -/
  announced : List (Nat × DirectoryPlan)
  /-- How many of them the screen has got. -/
  delivered : Nat
  choices : List Choice

inductive DeskStep
  /-- The engine does anything but take up answers. -/
  | engine (step : EngineStep)
  /-- The next conflicts that the engine told of reach the screen. -/
  | tell
  /-- The screen is given a key or any other event. -/
  | input (given : Input)
  /-- The engine takes up answers that the screen has sent. -/
  | resolve (moment : Moment) (index : Nat)

/-- Whether a step takes up answers. -/
def EngineStep.takesAnswers : EngineStep → Bool
  | .command _ (.resolveConflicts _ _) => true
  | _ => false

def Input.findsConflicts : Input → Bool
  | .event told => told.findsConflicts
  | .key _ _ => false

namespace Desk

def stepEngine (desk : Desk) (step : EngineStep) : Desk :=
  { desk with
    engine := step.next desk.engine
    announced := desk.announced ++ (step.announced desk.engine).toList }

/-- What the screen has got of the conflicts. -/
def told (desk : Desk) : List (Nat × List ConflictInfo) :=
  (desk.announced.take desk.delivered).map fun entry => (entry.1, conflictInfos entry.2)

def new (setup : Setup) (localPath : Path) (sortSpec : SortSpec) (showHidden : Bool)
    (localFs : FsTraits) (maxParallel : Nat) (onConflict : ConflictPolicy)
    (store : List HistoryEntry) : Desk where
  engine := .new localFs maxParallel onConflict store
  app := .new setup localPath sortSpec showHidden
  announced := []
  delivered := 0
  choices := []

end Desk

def DeskStep.next (setup : Setup) (desk : Desk) : DeskStep → Desk
  | .engine step => if step.takesAnswers then desk else desk.stepEngine step
  | .tell =>
    match desk.announced[desk.delivered]? with
    | none => desk
    | some (batchId, plan) =>
      { desk with
        app := desk.app.applyCoreEvent setup (.conflictsFound batchId (conflictInfos plan))
        delivered := desk.delivered + 1 }
  | .input given =>
    if given.findsConflicts then desk
    else
      { desk with
        app := given.next setup desk.app
        choices := desk.choices ++ (given.choice desk.app).toList }
  | .resolve moment index =>
    match desk.app.sent[index]? with
    | some (.resolveConflicts batchId answers) =>
      desk.stepEngine (.command moment (.resolveConflicts batchId answers))
    | _ => desk

namespace Desk

def after (setup : Setup) (desk : Desk) (steps : List DeskStep) : Desk :=
  steps.foldl (DeskStep.next setup) desk

/-! ### What holds at any time -/

structure Orderly (desk : Desk) : Prop where
  steady : desk.engine.Steady
  left : ∀ entry ∈ desk.announced, desk.engine.Left entry.1
  once : (desk.announced.map Prod.fst).Nodup
  reviews : ∀ review ∈ desk.engine.reviews, (review.batchId, review.plan) ∈ desk.announced
  delivered : desk.delivered ≤ desk.announced.length
  answering : Answering desk.told desk.choices desk.app

variable {setup : Setup} {desk : Desk}

theorem Orderly.announced_nodup (orderly : desk.Orderly) (step : EngineStep) :
    ((desk.announced ++ (step.announced desk.engine).toList).map Prod.fst).Nodup := by
  cases isAnnounced : step.announced desk.engine with
  | none =>
    rw [Option.toList_none, List.append_nil]
    exact orderly.once
  | some entry =>
    obtain ⟨batchId, plan⟩ := entry
    rw [Option.toList_some, List.map_append, List.nodup_append]
    refine ⟨orderly.once, List.nodup_singleton _, ?_⟩
    rintro _ earlier _ new rfl
    cases List.mem_singleton.mp new
    obtain ⟨other, member, same⟩ := List.mem_map.mp earlier
    have left := orderly.left other member
    rw [same] at left
    exact orderly.steady.not_announced left isAnnounced

theorem Orderly.stepEngine (orderly : desk.Orderly) (step : EngineStep) :
    (desk.stepEngine step).Orderly where
  steady := orderly.steady.next step
  left := by
    intro entry member
    rcases List.mem_append.mp member with earlier | new
    · exact orderly.steady.left_next step (orderly.left entry earlier)
    · obtain ⟨_, left, _⟩ := orderly.steady.announces (Option.mem_toList.mp new)
      exact left
  once := orderly.announced_nodup step
  reviews := by
    intro review member
    rcases orderly.steady.reviews_next step member with earlier | isAnnounced
    · exact List.mem_append_left _ (orderly.reviews review earlier)
    · exact List.mem_append_right _ (Option.mem_toList.mpr isAnnounced)
  delivered := by
    have le := orderly.delivered
    change desk.delivered ≤ (desk.announced ++ _).length
    rw [List.length_append]
    omega
  answering := by
    have same : (desk.stepEngine step).told = desk.told := by
      unfold told
      change ((desk.announced ++ _).take desk.delivered).map _ = _
      rw [List.take_append_of_le_length orderly.delivered]
    rw [same]
    exact orderly.answering

theorem Orderly.tell (orderly : desk.Orderly) : (DeskStep.tell.next setup desk).Orderly := by
  unfold DeskStep.next
  cases next : desk.announced[desk.delivered]? with
  | none => exact orderly
  | some entry =>
    obtain ⟨batchId, plan⟩ := entry
    obtain ⟨lt, _⟩ := List.getElem?_eq_some_iff.mp next
    have isTold : (desk.announced.take (desk.delivered + 1)) =
        desk.announced.take desk.delivered ++ [(batchId, plan)] := by
      rw [List.take_add_one, next]
      rfl
    refine ⟨orderly.steady, orderly.left, orderly.once, orderly.reviews, lt, ?_⟩
    unfold told
    dsimp only
    rw [isTold, List.map_append]
    apply orderly.answering.conflictsFound
    -- The batch stands further back in the list than those that were told.
    intro earlier
    obtain ⟨_, isTold, same⟩ := List.mem_map.mp earlier
    obtain ⟨other, member, rfl⟩ := List.mem_map.mp isTold
    have split := List.take_append_drop (desk.delivered + 1) desk.announced
    have distinct := orderly.once
    rw [← split, List.map_append, List.nodup_append, ‹desk.announced.take _ = _›,
      List.map_append, List.nodup_append] at distinct
    exact distinct.1.2.2 _ (List.mem_map_of_mem member) _ List.mem_cons_self same

theorem Orderly.input (orderly : desk.Orderly) (given : Input) :
    ((DeskStep.input given).next setup desk).Orderly := by
  unfold DeskStep.next
  dsimp only
  split_ifs with finds
  · exact orderly
  · refine ⟨orderly.steady, orderly.left, orderly.once, orderly.reviews, orderly.delivered, ?_⟩
    cases given with
    | key pressed elsewhere => exact orderly.answering.key_next setup elsewhere pressed
    | event told =>
      change Answering _ (desk.choices ++ []) (desk.app.applyCoreEvent setup told)
      rw [List.append_nil]
      exact orderly.answering.event_next setup (Bool.eq_false_iff.mpr finds)

theorem Orderly.next (orderly : desk.Orderly) (setup : Setup) (step : DeskStep) :
    (step.next setup desk).Orderly := by
  cases step with
  | engine step =>
    unfold DeskStep.next
    dsimp only
    split_ifs
    · exact orderly
    · exact orderly.stepEngine step
  | tell => exact orderly.tell
  | input given => exact orderly.input given
  | resolve moment index =>
    unfold DeskStep.next
    dsimp only
    split
    · exact orderly.stepEngine _
    · exact orderly

theorem Orderly.after (orderly : desk.Orderly) (setup : Setup) (steps : List DeskStep) :
    (desk.after setup steps).Orderly := by
  induction steps generalizing desk with
  | nil => exact orderly
  | cons step rest ih => exact ih (orderly.next setup step)

theorem orderly_new (setup : Setup) (localPath : Path) (sortSpec : SortSpec) (showHidden : Bool)
    (localFs : FsTraits) (maxParallel : Nat) (onConflict : ConflictPolicy)
    (store : List HistoryEntry) :
    (new setup localPath sortSpec showHidden localFs maxParallel onConflict store).Orderly where
  steady := Engine.steady_new localFs maxParallel onConflict store
  left := nofun
  once := List.nodup_nil
  reviews := nofun
  delivered := le_refl 0
  answering :=
    { sound := (App.tidy_new setup localPath sortSpec showHidden).toSound
      waiting := nofun
      distinct := List.nodup_nil
      filled := nofun
      known := fun _ member => absurd member List.not_mem_nil
      sent := nofun }

/-! ### Answers that were sent -/

/-- The answers of a batch fit its plan, and each of them reaches the file it was chosen for. -/
structure Reaches (desk : Desk) (batchId : Nat) (plan : DirectoryPlan)
    (answers : List Resolution) : Prop where
  announced : ∀ other, (batchId, other) ∈ desk.announced ↔ other = plan
  length : answers.length = (conflictIndices plan).length
  chosen : ∀ position resolution, answers[position]? = some resolution →
    Chosen desk.choices batchId (conflictInfos plan) position resolution
  infos : ∀ position : Nat, (conflictInfos plan)[position]? =
    ((conflictIndices plan)[position]?).bind fun index : Nat =>
      (plan.files[index]?).map PlannedFile.conflictInfo
  reviewed : ∀ review ∈ desk.engine.reviews, review.batchId = batchId → review.plan = plan
  resolved : resolve plan answers = treatAll plan (plan.answerOf answers)
  answered : ∀ position index : Nat, (conflictIndices plan)[position]? = some index →
    plan.answerOf answers index = answers[position]?
  others : ∀ index, index ∉ conflictIndices plan → plan.answerOf answers index = none

theorem mem_conflictIndices {plan : DirectoryPlan} {index : Nat} :
    index ∈ conflictIndices plan ↔ plan.conflictAt index = true := by
  constructor
  · exact fun member => (List.mem_filter.mp member).2
  · exact fun isConflict =>
      List.mem_filter.mpr ⟨List.mem_range.mpr (lt_of_conflictAt isConflict), isConflict⟩

theorem answerOf_conflict {plan : DirectoryPlan} {answers : List Resolution} {position index : Nat}
    (length : answers.length = (conflictIndices plan).length)
    (found : (conflictIndices plan)[position]? = some index) :
    plan.answerOf answers index = answers[position]? := by
  obtain ⟨lt, isIndex⟩ := List.getElem?_eq_some_iff.mp found
  have distinct : (conflictIndices plan).Nodup := List.nodup_range.filter _
  have place : (conflictIndices plan).idxOf index = position := by
    rw [← isIndex]
    exact distinct.idxOf_getElem position lt
  unfold DirectoryPlan.answerOf
  rw [if_pos (mem_conflictIndices.mp (List.mem_of_getElem? found)), place, List.getD_eq_getElem?_getD,
    List.getElem?_eq_getElem (length ▸ lt)]
  rfl

theorem Orderly.reaches (orderly : desk.Orderly) {batchId : Nat} {answers : List Resolution}
    (sent : AppCommand.resolveConflicts batchId (some answers) ∈ desk.app.sent) :
    ∃ plan, desk.Reaches batchId plan answers := by
  have resolves : (batchId, some answers) ∈ desk.app.resolves :=
    List.mem_filterMap.mpr ⟨_, sent, rfl⟩
  obtain ⟨_, files, isTold, length, chosen⟩ := orderly.answering.sent batchId answers resolves
  obtain ⟨⟨id, plan⟩, taken, same⟩ := List.mem_map.mp isTold
  obtain ⟨rfl, rfl⟩ := Prod.mk.inj same
  have member := List.mem_of_mem_take taken
  have only (other : DirectoryPlan) (isIn : (id, other) ∈ desk.announced) : other = plan := by
    have same := List.inj_on_of_nodup_map orderly.once isIn member rfl
    cases same
    rfl
  rw [length_conflictInfos] at length
  refine ⟨plan, ?_, length, chosen, conflictInfos_getElem? plan, ?_, resolve_eq_treatAll plan answers,
    fun position index => answerOf_conflict length, ?_⟩
  · exact fun other => ⟨only other, fun same => same ▸ member⟩
  · intro review isReview inBatch
    have isAnnounced := orderly.reviews review isReview
    rw [inBatch] at isAnnounced
    exact only _ isAnnounced
  · intro index notConflict
    unfold DirectoryPlan.answerOf
    rw [mem_conflictIndices] at notConflict
    exact if_neg notConflict

/-- In every run the answers that are sent for a batch reach the files they were chosen for. -/
theorem reaches_of_run (setup : Setup) (localPath : Path) (sortSpec : SortSpec) (showHidden : Bool)
    (localFs : FsTraits) (maxParallel : Nat) (onConflict : ConflictPolicy)
    (store : List HistoryEntry) (steps : List DeskStep) :
    let desk := (new setup localPath sortSpec showHidden localFs maxParallel onConflict store).after
      setup steps
    ∀ batchId answers, AppCommand.resolveConflicts batchId (some answers) ∈ desk.app.sent →
      ∃ plan, desk.Reaches batchId plan answers := by
  intro desk batchId answers sent
  have orderly := (orderly_new setup localPath sortSpec showHidden localFs maxParallel onConflict
    store).after setup steps
  exact orderly.reaches sent

end Desk

end Porthmos
