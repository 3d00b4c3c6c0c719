import Porthmos.Conflicts

/-!
# Which answer a file gets

`resolve` takes an answer off its list at every conflict.  So the answers belong to the
conflicts in the order of the plan, and no other file is given one.
-/

namespace Porthmos

/-- What the user is told of the files in conflict. -/
def conflictInfos (plan : DirectoryPlan) : List ConflictInfo :=
  (conflictIndices plan).filterMap fun index => (plan.files[index]?).map PlannedFile.conflictInfo

/-- Whether a file of the plan is in conflict. -/
def DirectoryPlan.conflictAt (plan : DirectoryPlan) (index : Nat) : Bool :=
  (plan.files[index]?).any PlannedFile.isConflict

/-- The answer of a file: that of the conflict it is, counted in the order of the plan. -/
def DirectoryPlan.answerOf (plan : DirectoryPlan) (answers : List Resolution) (index : Nat) :
    Option Resolution :=
  if plan.conflictAt index then some (answers.getD ((conflictIndices plan).idxOf index) .skip)
  else none

/-- What becomes of a file with its answer.  A file without one is copied as it was planned. -/
def treat (treated : TakenNames × ResolvedPlan) (file : PlannedFile) (answer : Option Resolution) :
    TakenNames × ResolvedPlan :=
  let (taken, resolved) := treated
  let blockedOr (copied : PlannedFile) : ResolvedPlan :=
    if file.existing.any ExistingFile.isDir then
      { resolved with blockedByFolder := resolved.blockedByFolder + 1 }
    else resolved.copying copied
  match answer with
  | none => (taken, resolved.copying file)
  | some .resume => (taken, blockedOr { file with resume := true })
  | some .overwrite => (taken, blockedOr { file with resume := false })
  | some .skip =>
    if file.existing.isSome then (taken, { resolved with skipped := resolved.skipped + 1 })
    else (taken, { resolved with skippedPartials := resolved.skippedPartials + 1 })
  | some .rename =>
    if file.existing.isNone then (taken, resolved.copying { file with resume := true })
    else
      let (renamed, taken) := renameDestination file taken
      (taken, resolved.copying { renamed with resume := false })

/-- The files of a plan, each treated with an answer of its own. -/
def treatAll (plan : DirectoryPlan) (answerOf : Nat → Option Resolution) : ResolvedPlan :=
  ((plan.files.mapIdx fun index file => (file, answerOf index)).foldl
    (fun treated file => treat treated file.1 file.2) (plan.takenNames, ⟨[], 0, 0, 0⟩)).2

/-! ### Counting conflicts -/

variable {plan : DirectoryPlan} {answers : List Resolution} {index : Nat}

/-- The conflicts among the first files. -/
def DirectoryPlan.conflictsBelow (plan : DirectoryPlan) (bound : Nat) : List Nat :=
  (List.range bound).filter plan.conflictAt

theorem conflictsBelow_succ (plan : DirectoryPlan) (bound : Nat) : plan.conflictsBelow (bound + 1) =
      plan.conflictsBelow bound ++ if plan.conflictAt bound then [bound] else [] := by
  unfold DirectoryPlan.conflictsBelow
  rw [List.range_succ, List.filter_append]
  cases isConflict : plan.conflictAt bound <;> simp [isConflict]

theorem conflictsBelow_prefix (plan : DirectoryPlan) {first second : Nat} (le : first ≤ second) :
    plan.conflictsBelow first <+: plan.conflictsBelow second := by
  induction second, le using Nat.le_induction with
  | base => exact List.prefix_refl _
  | succ second le ih =>
    rw [conflictsBelow_succ]
    exact ih.trans (List.prefix_append _ _)

theorem lt_of_conflictAt (isConflict : plan.conflictAt index = true) : index < plan.files.length := by
  unfold DirectoryPlan.conflictAt at isConflict
  by_contra tooLarge
  rw [List.getElem?_eq_none (by omega)] at isConflict
  exact absurd isConflict nofun

theorem idxOf_conflictIndices (isConflict : plan.conflictAt index = true) :
    (conflictIndices plan).idxOf index = (plan.conflictsBelow index).length := by
  have notBelow : index ∉ plan.conflictsBelow index := by
    intro member
    exact absurd (List.mem_range.mp (List.mem_filter.mp member).1) (lt_irrefl _)
  have isNext : plan.conflictsBelow (index + 1) = plan.conflictsBelow index ++ [index] := by
    rw [conflictsBelow_succ, if_pos isConflict]
  obtain ⟨rest, all⟩ := conflictsBelow_prefix plan (Nat.succ_le_of_lt (lt_of_conflictAt isConflict))
  change (plan.conflictsBelow plan.files.length).idxOf index = _
  rw [← all, isNext, List.append_assoc, List.idxOf_append_of_notMem notBelow]
  simp

/-! ### Resolving a plan -/

theorem resolveFile_eq (resolving : Resolving) (file : PlannedFile) : resolveFile resolving file =
      if file.isConflict then
        let (taken, resolved) := treat (resolving.taken, resolving.resolved) file
          (some (resolving.answers.headD .skip))
        ⟨resolving.answers.tail, taken, resolved⟩
      else
        let (taken, resolved) := treat (resolving.taken, resolving.resolved) file none
        ⟨resolving.answers, taken, resolved⟩ := by
  unfold resolveFile treat
  cases file.isConflict with
  | false => rfl
  | true =>
    cases resolving.answers.headD .skip with
    | resume | overwrite => rfl
    | skip => cases file.existing.isSome <;> simp
    | rename => cases file.existing.isNone <;> simp

/-- The first files of a plan, treated with the answers of their own. -/
def treatFirst (plan : DirectoryPlan) (answers : List Resolution) (bound : Nat) :
    TakenNames × ResolvedPlan :=
  (((plan.files.mapIdx fun index file => (file, plan.answerOf answers index)).take bound).foldl
    (fun treated file => treat treated file.1 file.2) (plan.takenNames, ⟨[], 0, 0, 0⟩))

theorem treatFirst_succ (plan : DirectoryPlan) (answers : List Resolution) {bound : Nat}
    {file : PlannedFile} (found : plan.files[bound]? = some file) :
    treatFirst plan answers (bound + 1) =
      treat (treatFirst plan answers bound) file (plan.answerOf answers bound) := by
  unfold treatFirst
  have isNext : (plan.files.mapIdx fun index file => (file, plan.answerOf answers index))[bound]? =
      some (file, plan.answerOf answers bound) := by
    rw [List.getElem?_mapIdx, found]
    rfl
  rw [List.take_add_one, isNext, List.foldl_append]
  rfl

theorem foldl_resolveFile (plan : DirectoryPlan) (answers : List Resolution) {bound : Nat}
    (le : bound ≤ plan.files.length) :
    (plan.files.take bound).foldl resolveFile ⟨answers, plan.takenNames, ⟨[], 0, 0, 0⟩⟩ =
      ⟨answers.drop (plan.conflictsBelow bound).length, (treatFirst plan answers bound).1,
        (treatFirst plan answers bound).2⟩ := by
  induction bound with
  | zero => rfl
  | succ bound ih =>
    have found : plan.files[bound]? = some plan.files[bound] :=
      List.getElem?_eq_getElem (Nat.lt_of_succ_le le)
    have conflict : plan.conflictAt bound = plan.files[bound].isConflict := by
      unfold DirectoryPlan.conflictAt
      rw [found]
      rfl
    rw [List.take_add_one, found, List.foldl_append, ih (by omega)]
    change resolveFile _ _ = _
    rw [resolveFile_eq, treatFirst_succ plan answers found, conflictsBelow_succ]
    unfold DirectoryPlan.answerOf
    cases isConflict : plan.conflictAt bound with
    | false =>
      rw [← conflict, isConflict]
      simp
    | true =>
      have next : (answers.drop (plan.conflictsBelow bound).length).headD .skip =
          answers.getD ((conflictIndices plan).idxOf bound) .skip := by
        rw [idxOf_conflictIndices isConflict]
        simp [List.headD_eq_head?_getD, List.head?_drop]
      rw [← conflict, isConflict, if_pos rfl, if_pos rfl, if_pos rfl, next, List.tail_drop]
      simp

theorem resolve_eq_treatAll (plan : DirectoryPlan) (answers : List Resolution) :
    resolve plan answers = treatAll plan (plan.answerOf answers) := by
  have all := foldl_resolveFile plan answers le_rfl
  rw [List.take_length] at all
  unfold resolve
  rw [all]
  unfold treatFirst treatAll
  rw [List.take_of_length_le (by simp)]

/-! ### What the user is told -/

theorem getElem?_filterMap_of_isSome {α β : Type*} (convert : α → Option β) {values : List α}
    (present : ∀ value ∈ values, (convert value).isSome = true) (position : Nat) :
    (values.filterMap convert)[position]? = values[position]?.bind convert := by
  induction values generalizing position with
  | nil => rfl
  | cons value rest ih =>
    obtain ⟨result, isResult⟩ := Option.isSome_iff_exists.mp (present value List.mem_cons_self)
    rw [List.filterMap_cons_some isResult]
    cases position with
    | zero => simp [isResult]
    | succ position =>
      simpa using ih (fun other member => present other (List.mem_cons_of_mem _ member)) position

theorem isSome_conflictInfo (member : index ∈ conflictIndices plan) :
    ((plan.files[index]?).map PlannedFile.conflictInfo).isSome = true := by
  have lt := List.mem_range.mp (List.mem_filter.mp member).1
  rw [List.getElem?_eq_getElem lt]
  rfl

theorem conflictInfos_getElem? (plan : DirectoryPlan) (position : Nat) :
    (conflictInfos plan)[position]? = ((conflictIndices plan)[position]?).bind fun index =>
        (plan.files[index]?).map PlannedFile.conflictInfo :=
  getElem?_filterMap_of_isSome _ (fun _ => isSome_conflictInfo) position

theorem length_conflictInfos (plan : DirectoryPlan) :
    (conflictInfos plan).length = (conflictIndices plan).length := by
  unfold conflictInfos
  rw [List.length_filterMap_eq_countP]
  exact List.countP_eq_length.mpr fun index => isSome_conflictInfo

end Porthmos
