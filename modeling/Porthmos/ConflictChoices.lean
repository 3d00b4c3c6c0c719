import Porthmos.ConflictAnswers
import Porthmos.QuestionRuns

/-!
# What the user chooses in conflict dialogs

A batch that waits has answers for some of its files, each of them chosen in the dialog of its
file or at an earlier file for the rest.  When the last file is answered they are sent.
-/

namespace Porthmos

/-- What the dialog of a file shows. -/
structure ConflictDialog.Displays (dialog : ConflictDialog) (index : Nat) (file : ConflictInfo) :
    Prop where
  fileName : dialog.fileName = file.displayName
  existing : dialog.existing = file.existing
  partialFile : dialog.partialFile = file.partialFile
  newSize : dialog.newSize = file.newSize
  newModified : dialog.newModified = file.newModified
  index : dialog.index = index

/-- The user chooses in a dialog about a file of a batch. -/
structure Choice where
  batchId : Nat
  dialog : ConflictDialog
  resolution : Resolution
  applyToRest : Bool
  deriving DecidableEq, Repr

/-- What a key chooses. -/
def App.choice (app : App) (key : KeyEvent) : Option Choice :=
  if app.helpVisible then none
  else
    match app.dialog, app.conflictPrompts.head? with
    | some (.conflict dialog), some prompt =>
      match dialog.outcome key with
      | .resolved (some resolution) applyToRest =>
        some ⟨prompt.batchId, dialog, resolution, applyToRest⟩
      | _ => none
    | _, _ => none

def Input.choice (app : App) : Input → Option Choice
  | .key pressed _ => app.choice pressed
  | .event _ => none

/-- The answer of a file was chosen in its dialog, or at an earlier file for the rest. -/
inductive Chosen (choices : List Choice) (batchId : Nat) (files : List ConflictInfo)
    (position : Nat) (resolution : Resolution) : Prop
  | asked {choice : Choice} {file : ConflictInfo} (member : choice ∈ choices)
      (inBatch : choice.batchId = batchId) (found : files[position]? = some file)
      (displays : choice.dialog.Displays position file) (isChosen : choice.resolution = resolution)
      (only : ∀ other ∈ choices, other.batchId = batchId → other.dialog.index = position →
        other = choice)
  | applied {choice : Choice} {earlier : Nat} {answered file : ConflictInfo}
      (member : choice ∈ choices) (inBatch : choice.batchId = batchId) (before : earlier < position)
      (foundAnswered : files[earlier]? = some answered) (found : files[position]? = some file)
      (displays : choice.dialog.Displays earlier answered) (forRest : choice.applyToRest = true)
      (isChosen : choice.resolution = resolution)
      (fits : fitsTheRest resolution answered file = true)
      (notAsked : ∀ other ∈ choices, other.batchId = batchId → other.dialog.index ≠ position)

variable {choices : List Choice} {choice : Choice} {batchId position : Nat}
  {files : List ConflictInfo} {resolution : Resolution} {prompt : ConflictPrompt}

theorem Chosen.append (chosen : Chosen choices batchId files position resolution)
    (elsewhere : choice.batchId = batchId → choice.dialog.index ≠ position) :
    Chosen (choices ++ [choice]) batchId files position resolution := by
  have earlier {other : Choice} (member : other ∈ choices ++ [choice])
      (inBatch : other.batchId = batchId) (atFile : other.dialog.index = position) :
      other ∈ choices := by
    rcases List.mem_append.mp member with isEarlier | isNew
    · exact isEarlier
    · cases List.mem_singleton.mp isNew
      exact absurd atFile (elsewhere inBatch)
  cases chosen with
  | asked member inBatch found displays isChosen only =>
    exact .asked (List.mem_append_left _ member) inBatch found displays isChosen
      fun other isIn isBatch atFile => only other (earlier isIn isBatch atFile) isBatch atFile
  | applied member inBatch before foundAnswered found displays forRest isChosen fits notAsked =>
    exact .applied (List.mem_append_left _ member) inBatch before foundAnswered found displays
      forRest isChosen fits fun other isIn isBatch atFile =>
        notAsked other (earlier isIn isBatch atFile) isBatch atFile

/-! ### A batch -/

/-- The answers of a batch were chosen, and nothing was chosen for the other files. -/
structure Filled (choices : List Choice) (prompt : ConflictPrompt) : Prop where
  given : ∀ position resolution, prompt.answers[position]? = some (some resolution) →
    Chosen choices prompt.batchId prompt.files position resolution
  missing : ∀ position, prompt.answers[position]? = some none →
    ∀ choice ∈ choices, choice.batchId = prompt.batchId → choice.dialog.index ≠ position

theorem Filled.append (filled : Filled choices prompt)
    (elsewhere : choice.batchId ≠ prompt.batchId) : Filled (choices ++ [choice]) prompt where
  given := fun position resolution isGiven =>
    (filled.given position resolution isGiven).append fun inBatch => absurd inBatch elsewhere
  missing := by
    intro position isMissing other member inBatch
    rcases List.mem_append.mp member with isEarlier | isNew
    · exact filled.missing position isMissing other isEarlier inBatch
    · cases List.mem_singleton.mp isNew
      exact absurd inBatch elsewhere

theorem filled_new (new : ∀ choice ∈ choices, choice.batchId ≠ batchId) :
    Filled choices (.new batchId files) where
  given := by
    intro position resolution isGiven
    have isNone := List.eq_of_mem_replicate (List.mem_of_getElem? isGiven)
    exact absurd isNone nofun
  missing := fun position _ choice member inBatch => absurd inBatch (new choice member)

theorem displays_dialogAt {file : ConflictInfo} {dialog : ConflictDialog}
    (same : dialog = { prompt.dialogAt position file with applyToRest := dialog.applyToRest }) :
    dialog.Displays position file := by
  rw [same]
  exact ⟨rfl, rfl, rfl, rfl, rfl, rfl⟩

theorem answers_of_current {current : Nat} (isCurrent : prompt.current = some current) :
    prompt.answers[current]? = some none := by
  obtain ⟨lt, isNone, _⟩ := List.findIdx?_eq_some_iff_getElem.mp isCurrent
  rw [List.getElem?_eq_getElem lt, Option.isNone_iff_eq_none.mp isNone]

theorem answerAt_answers (prompt : ConflictPrompt) (current : Nat) (resolution : Resolution)
    (applyToRest : Bool) (position : Nat) :
    (prompt.answerAt current resolution applyToRest).answers[position]? =
      (prompt.answers[position]?).map fun given =>
        if position = current then some resolution
        else if applyToRest && decide (current < position) && given.isNone &&
            prompt.suits resolution current position then some resolution
        else given := by
  unfold ConflictPrompt.answerAt
  rw [List.getElem?_mapIdx]

/-- A choice answers the file of its dialog, and it may answer later files that were not asked for
yet. -/
theorem Filled.answerAt {current : Nat} {file : ConflictInfo} (filled : Filled choices prompt)
    (isCurrent : prompt.current = some current) (found : prompt.files[current]? = some file)
    (inBatch : choice.batchId = prompt.batchId) (displays : choice.dialog.Displays current file) :
    Filled (choices ++ [choice]) (prompt.answerAt current choice.resolution choice.applyToRest) := by
  have stillOpen := answers_of_current isCurrent
  have isNew : choice ∈ choices ++ [choice] := List.mem_append_right _ List.mem_cons_self
  have none_at {position : Nat} (isMissing : prompt.answers[position]? = some none)
      (different : position ≠ current) :
      ∀ other ∈ choices ++ [choice], other.batchId = prompt.batchId →
        other.dialog.index ≠ position := by
    intro other member isBatch
    rcases List.mem_append.mp member with isEarlier | isLast
    · exact filled.missing position isMissing other isEarlier isBatch
    · cases List.mem_singleton.mp isLast
      rw [displays.index]
      exact different.symm
  constructor
  · intro position resolution isGiven
    rw [answerAt_answers] at isGiven
    obtain ⟨given, wasGiven, isAnswer⟩ := Option.map_eq_some_iff.mp isGiven
    split at isAnswer
    · rename_i atCurrent
      cases isAnswer
      cases atCurrent
      apply Chosen.asked isNew inBatch found displays rfl
      intro other member isBatch atFile
      rcases List.mem_append.mp member with isEarlier | isLast
      · exact absurd atFile (filled.missing _ stillOpen other isEarlier isBatch)
      · exact List.mem_singleton.mp isLast
    · rename_i different
      split at isAnswer
      · rename_i condition
        cases isAnswer
        simp only [Bool.and_eq_true, decide_eq_true_eq] at condition
        obtain ⟨⟨⟨forRest, later⟩, isNone⟩, suits⟩ := condition
        unfold ConflictPrompt.suits at suits
        rw [found, Option.any_some] at suits
        cases isFile : prompt.files[position]? with
        | none =>
          rw [isFile] at suits
          exact absurd suits nofun
        | some other =>
          rw [isFile, Option.any_some] at suits
          rw [Option.isNone_iff_eq_none.mp isNone] at wasGiven
          exact .applied isNew inBatch later found isFile displays forRest rfl suits
            (none_at wasGiven different)
      · cases isAnswer
        apply (filled.given position resolution wasGiven).append
        intro _ atFile
        exact different (atFile.symm.trans displays.index)
  · intro position isMissing
    rw [answerAt_answers] at isMissing
    obtain ⟨given, wasGiven, isAnswer⟩ := Option.map_eq_some_iff.mp isMissing
    split at isAnswer
    · exact absurd isAnswer nofun
    · rename_i different
      split at isAnswer
      · exact absurd isAnswer nofun
      · cases isAnswer
        exact none_at wasGiven different

/-- Once every file is answered, the answers are those that were given. -/
theorem complete_getElem? {answers : List Resolution} (isComplete : prompt.complete = some answers) :
    answers.length = prompt.answers.length ∧
      ∀ position : Nat, prompt.answers[position]? = (answers[position]?).map some := by
  have all (given : List (Option Resolution)) (answers : List Resolution)
      (isAll : given.mapM id = some answers) : given = answers.map some := by
    induction given generalizing answers with
    | nil =>
      cases isAll
      rfl
    | cons first rest ih =>
      cases first with
      | none => simp [List.mapM_cons] at isAll
      | some resolution =>
        rw [List.mapM_cons] at isAll
        cases others : rest.mapM id with
        | none => simp [others] at isAll
        | some later =>
          rw [others] at isAll
          cases isAll
          rw [ih later others]
          rfl
  have same := all prompt.answers answers isComplete
  constructor
  · rw [same, List.length_map]
  · intro position
    rw [same, List.getElem?_map]

end Porthmos
