import Porthmos.ConflictChoices

/-!
# The answers that the screen sends

The screen is told of batches, each of them once.  Whatever is given to it, the batches that wait
are filled with what the user chose, and so are the answers that it has sent.
-/

namespace Porthmos

/-- The answers of a batch, in the order of its files. -/
structure AnswersOf (choices : List Choice) (batchId : Nat) (files : List ConflictInfo)
    (answers : List Resolution) : Prop where
  length : answers.length = files.length
  chosen : ∀ position resolution, answers[position]? = some resolution →
    Chosen choices batchId files position resolution

/-- What holds of a screen that was told of some batches. -/
structure Answering (told : List (Nat × List ConflictInfo)) (choices : List Choice) (app : App) :
    Prop where
  sound : app.Sound
  waiting : ∀ prompt ∈ app.conflictPrompts, (prompt.batchId, prompt.files) ∈ told
  distinct : (app.conflictPrompts.map ConflictPrompt.batchId).Nodup
  filled : ∀ prompt ∈ app.conflictPrompts, Filled choices prompt
  known : ∀ choice ∈ choices, choice.batchId ∈ told.map Prod.fst
  sent : ∀ batchId answers, (batchId, some answers) ∈ app.resolves →
    batchId ∉ app.conflictPrompts.map ConflictPrompt.batchId ∧
      ∃ files, (batchId, files) ∈ told ∧ AnswersOf choices batchId files answers

theorem AnswersOf.append {choices : List Choice} {choice : Choice} {batchId : Nat}
    {files : List ConflictInfo} {answers : List Resolution}
    (isAnswers : AnswersOf choices batchId files answers) (elsewhere : choice.batchId ≠ batchId) :
    AnswersOf (choices ++ [choice]) batchId files answers where
  length := isAnswers.length
  chosen := fun position resolution isAnswer =>
    (isAnswers.chosen position resolution isAnswer).append fun inBatch => absurd inBatch elsewhere

namespace Answering

variable {told : List (Nat × List ConflictInfo)} {choices : List Choice} {app after : App}
  {setup : Setup} {elsewhere : Elsewhere} {key : KeyEvent}

theorem fewer (answering : Answering told choices app) (sound : after.Sound)
    (sublist : after.conflictPrompts.Sublist app.conflictPrompts)
    (resolves : ∀ batchId answers, (batchId, some answers) ∈ after.resolves →
      (batchId, some answers) ∈ app.resolves) : Answering told choices after where
  sound := sound
  waiting := fun prompt member => answering.waiting prompt (sublist.subset member)
  distinct := answering.distinct.sublist (sublist.map _)
  filled := fun prompt member => answering.filled prompt (sublist.subset member)
  known := answering.known
  sent := by
    intro batchId answers member
    obtain ⟨gone, found⟩ := answering.sent batchId answers (resolves batchId answers member)
    exact ⟨fun waits => gone ((sublist.map _).subset waits), found⟩

theorem settles (answering : Answering told choices app) (settles : App.Settles app after) :
    Answering told choices after := by
  apply answering.fewer settles.sound
  · rw [settles.conflictPrompts]
  · rw [settles.resolves]
    exact fun _ _ member => member

/-! ### Answering a conflict -/

theorem resolves_send (app : App) (batchId : Nat) (answers : Option (List Resolution)) :
    (app.send (.resolveConflicts batchId answers)).resolves =
      app.resolves ++ [(batchId, answers)] := by
  unfold App.resolves App.send
  rw [List.filterMap_append]
  rfl

theorem keeps_openNextConflictPrompt (app : App) :
    app.openNextConflictPrompt.conflictPrompts = app.conflictPrompts ∧
      app.openNextConflictPrompt.resolves = app.resolves := by
  have waits := App.waits_openNextConflictPrompt app
  constructor
  · exact waits.conflictPrompts
  · rw [App.resolves_eq, App.resolves_eq, waits.answers]

variable {prompt : ConflictPrompt} {rest : List ConflictPrompt} {choice : Choice}

theorem others (answering : Answering told choices app)
    (front : app.conflictPrompts = prompt :: rest) :
    prompt.batchId ∉ rest.map ConflictPrompt.batchId := by
  have distinct := answering.distinct
  rw [front, List.map_cons, List.nodup_cons] at distinct
  exact distinct.1

/-- A choice for the first batch changes nothing of the other ones. -/
theorem besides (answering : Answering told choices app)
    (front : app.conflictPrompts = prompt :: rest) (inBatch : choice.batchId = prompt.batchId) :
    (∀ other ∈ rest, Filled (choices ++ [choice]) other) ∧
      (∀ known ∈ choices ++ [choice], known.batchId ∈ told.map Prod.fst) ∧
      ∀ batchId answers, (batchId, some answers) ∈ app.resolves →
        batchId ∉ prompt.batchId :: rest.map ConflictPrompt.batchId ∧
          ∃ files, (batchId, files) ∈ told ∧
            AnswersOf (choices ++ [choice]) batchId files answers := by
  have isFirst : prompt ∈ app.conflictPrompts := front ▸ List.mem_cons_self
  refine ⟨?_, ?_, ?_⟩
  · intro other member
    apply (answering.filled other (front ▸ List.mem_cons_of_mem _ member)).append
    rw [inBatch]
    intro same
    exact answering.others front (List.mem_map.mpr ⟨other, member, same.symm⟩)
  · intro known member
    rcases List.mem_append.mp member with isEarlier | isNew
    · exact answering.known known isEarlier
    · cases List.mem_singleton.mp isNew
      rw [inBatch]
      exact List.mem_map.mpr ⟨_, answering.waiting prompt isFirst, rfl⟩
  · intro batchId answers member
    obtain ⟨gone, files, isTold, isAnswers⟩ := answering.sent batchId answers member
    rw [front, List.map_cons] at gone
    refine ⟨gone, files, isTold, isAnswers.append ?_⟩
    rw [inBatch]
    rintro rfl
    exact gone List.mem_cons_self

variable {current : Nat} {file : ConflictInfo}

/-- A file is answered, and others of its batch are still to be answered. -/
theorem chosen (answering : Answering told choices app)
    (front : app.conflictPrompts = prompt :: rest) (isCurrent : prompt.current = some current)
    (found : prompt.files[current]? = some file) (inBatch : choice.batchId = prompt.batchId)
    (displays : choice.dialog.Displays current file) (sound : after.Sound)
    (prompts : after.conflictPrompts =
      prompt.answerAt current choice.resolution choice.applyToRest :: rest)
    (resolves : after.resolves = app.resolves) :
    Answering told (choices ++ [choice]) after := by
  have isFirst : prompt ∈ app.conflictPrompts := front ▸ List.mem_cons_self
  obtain ⟨filled, known, sent⟩ := answering.besides front inBatch
  have distinct := answering.distinct
  rw [front] at distinct
  constructor
  · exact sound
  · intro other member
    rw [prompts] at member
    rcases List.mem_cons.mp member with rfl | later
    · exact answering.waiting prompt isFirst
    · exact answering.waiting other (front ▸ List.mem_cons_of_mem _ later)
  · rw [prompts]
    exact distinct
  · intro other member
    rw [prompts] at member
    rcases List.mem_cons.mp member with rfl | later
    · exact (answering.filled prompt isFirst).answerAt isCurrent found inBatch displays
    · exact filled other later
  · exact known
  · rw [resolves, prompts]
    exact sent

/-- The last file of a batch is answered. -/
theorem completed {answers : List Resolution} (answering : Answering told choices app)
    (front : app.conflictPrompts = prompt :: rest) (isCurrent : prompt.current = some current)
    (found : prompt.files[current]? = some file) (inBatch : choice.batchId = prompt.batchId)
    (displays : choice.dialog.Displays current file) (sound : after.Sound)
    (isComplete : (prompt.answerAt current choice.resolution choice.applyToRest).complete =
      some answers)
    (prompts : after.conflictPrompts = rest)
    (resolves : after.resolves = app.resolves ++ [(prompt.batchId, some answers)]) :
    Answering told (choices ++ [choice]) after := by
  have isFirst : prompt ∈ app.conflictPrompts := front ▸ List.mem_cons_self
  obtain ⟨filled, known, sent⟩ := answering.besides front inBatch
  have distinct := answering.distinct
  rw [front, List.map_cons, List.nodup_cons] at distinct
  obtain ⟨length, given⟩ := complete_getElem? isComplete
  constructor
  · exact sound
  · intro other member
    exact answering.waiting other (front ▸ List.mem_cons_of_mem _ (prompts ▸ member))
  · rw [prompts]
    exact distinct.2
  · rw [prompts]
    exact filled
  · exact known
  · intro batchId vector member
    rw [resolves] at member
    rw [prompts]
    rcases List.mem_append.mp member with isEarlier | isNew
    · obtain ⟨gone, isSent⟩ := sent batchId vector isEarlier
      exact ⟨fun waits => gone (List.mem_cons_of_mem _ waits), isSent⟩
    · cases List.mem_singleton.mp isNew
      refine ⟨distinct.1, prompt.files, answering.waiting prompt isFirst, ?_, ?_⟩
      · have kept := answering.sound.lengths prompt isFirst
        rw [length]
        unfold ConflictPrompt.answerAt
        rw [List.length_mapIdx, kept]
      · intro position resolution isAnswer
        have answered := (answering.filled prompt isFirst).answerAt isCurrent found inBatch displays
        apply answered.given position resolution
        rw [given, isAnswer]
        rfl

/-- What becomes of the first batch. -/
theorem answerConflict_keeps (front : app.conflictPrompts = prompt :: rest)
    (isCurrent : prompt.current = some current) (resolution : Resolution) (applyToRest : Bool) :
    let after := app.answerConflict (some resolution) applyToRest
    let answered := prompt.answerAt current resolution applyToRest
    (answered.complete = none ∧ after.conflictPrompts = answered :: rest ∧
      after.resolves = app.resolves) ∨
    ∃ answers, answered.complete = some answers ∧ after.conflictPrompts = rest ∧
      after.resolves = app.resolves ++ [(prompt.batchId, some answers)] := by
  dsimp only
  unfold App.answerConflict
  rw [front]
  dsimp only
  rw [isCurrent]
  dsimp only
  cases isComplete : (prompt.answerAt current resolution applyToRest).complete with
  | none =>
    left
    obtain ⟨prompts, resolves⟩ := keeps_openNextConflictPrompt
      (app.setConflictPrompts (prompt.answerAt current resolution applyToRest :: rest))
    exact ⟨rfl, prompts, resolves⟩
  | some answers =>
    right
    obtain ⟨prompts, resolves⟩ := keeps_openNextConflictPrompt
      ((app.setConflictPrompts rest).send (.resolveConflicts prompt.batchId (some answers)))
    exact ⟨answers, rfl, prompts, resolves.trans (resolves_send _ _ _)⟩

/-! ### Steps -/

theorem choice_of_help (help : app.helpVisible = true) : app.choice key = none := by
  unfold App.choice
  rw [help]
  rfl

theorem choice_of_other (other : ∀ shown, app.dialog ≠ some (.conflict shown)) :
    app.choice key = none := by
  unfold App.choice
  split_ifs
  · rfl
  · split
    · rename_i shown _ isOpen _
      exact absurd isOpen (other shown)
    · rfl

theorem choice_of_conflict {shown : ConflictDialog} (visible : app.helpVisible = false)
    (isOpen : app.dialog = some (.conflict shown)) (front : app.conflictPrompts = prompt :: rest) :
    app.choice key =
      match shown.outcome key with
      | .resolved (some resolution) applyToRest =>
          some ⟨prompt.batchId, shown, resolution, applyToRest⟩
      | _ => none := by
  unfold App.choice
  rw [visible, isOpen, front]
  rfl

/-- The outcome of a key of a conflict dialog. -/
theorem conflictKey (elsewhere : Elsewhere) {shown : ConflictDialog}
    (answering : Answering told choices app) (visible : app.helpVisible = false)
    (isOpen : app.dialog = some (.conflict shown)) :
    Answering told (choices ++ (app.choice key).toList)
      (App.applyOutcome { app with dialog := some ((Dialog.conflict shown).handleKey key) }
        ((Dialog.conflict shown).outcome elsewhere.form key)) := by
  have settled := App.settles_handleKey answering.sound isOpen key
  have isSound := (App.handled_applyOutcome elsewhere answering.sound isOpen key).sound
  obtain ⟨prompt, rest, first, front, isShown, same⟩ := answering.sound.shows shown isOpen
  obtain ⟨current, file, isCurrent, found, rfl⟩ := App.current_of_dialog isShown
  have displays : shown.Displays current file := displays_dialogAt same
  rw [choice_of_conflict visible isOpen front]
  change Answering told _ (App.applyOutcome _ (shown.outcome key))
  change (App.applyOutcome _ (shown.outcome key)).Sound at isSound
  rcases shown.outcome_cases key with eq | eq | ⟨resolution, eq⟩
  · rw [eq]
    exact (List.append_nil choices).symm ▸ answering.settles settled
  · rw [eq] at isSound ⊢
    obtain ⟨prompts, resolves⟩ := keeps_openNextConflictPrompt
      ((App.setConflictPrompts { app with dialog := none, pendingAction := none } rest).send
        (.resolveConflicts prompt.batchId none))
    have isNext : App.applyOutcome
        { app with dialog := some ((Dialog.conflict shown).handleKey key) } (.resolved none false) =
        ((App.setConflictPrompts { app with dialog := none, pendingAction := none } rest).send
          (.resolveConflicts prompt.batchId none)).openNextConflictPrompt := by
      unfold App.applyOutcome App.answerConflict App.closeDialog
      dsimp only
      rw [front]
    rw [isNext] at isSound ⊢
    apply (List.append_nil choices).symm ▸ answering.fewer isSound
    · rw [prompts]
      change rest.Sublist app.conflictPrompts
      rw [front]
      exact List.sublist_cons_self prompt rest
    · intro batchId answers member
      rw [resolves, resolves_send] at member
      rcases List.mem_append.mp member with isEarlier | isNew
      · exact isEarlier
      · exact absurd (List.mem_singleton.mp isNew) (by simp)
  · rw [eq] at isSound ⊢
    have isFront : (App.closeDialog
        { app with dialog := some ((Dialog.conflict shown).handleKey key) }).conflictPrompts =
        prompt :: rest := front
    have inBatch : (Choice.mk prompt.batchId shown resolution shown.applyToRest).batchId =
        prompt.batchId := rfl
    rcases answerConflict_keeps isFront isCurrent resolution shown.applyToRest with
      ⟨_, prompts, resolves⟩ | ⟨answers, isComplete, prompts, resolves⟩
    · exact answering.chosen front isCurrent found inBatch displays isSound prompts resolves
    · exact answering.completed front isCurrent found inBatch displays isSound isComplete prompts resolves

theorem key_next (answering : Answering told choices app) (setup : Setup) (elsewhere : Elsewhere)
    (key : KeyEvent) :
    Answering told (choices ++ (app.choice key).toList) (app.applyKey setup elsewhere key) := by
  have plain {after : App} (none : app.choice key = none) (settles : App.Settles app after) :
      Answering told (choices ++ (app.choice key).toList) after := by
    rw [none]
    exact (List.append_nil choices).symm ▸ answering.settles settles
  unfold App.applyKey
  split
  · rename_i help
    have hidden : App.Aside app { app with helpVisible := false } :=
      ⟨⟨rfl, rfl, rfl, rfl⟩, rfl, rfl⟩
    exact plain (choice_of_help help) (.aside answering.sound hidden rfl)
  · rename_i visible
    split
    · rename_i dialog isOpen
      have outcome := App.handled_applyOutcome elsewhere answering.sound isOpen key
      have after := App.settles_afterOutcome outcome.sound
      have last := after.trans (App.settles_afterDialogKey after.sound)
      cases isConflict : dialog.isConflict with
      | false =>
        have settled := App.settles_applyOutcome elsewhere answering.sound isOpen isConflict key
        apply plain (choice_of_other ?_) (settled.trans last)
        rintro shown same
        rw [isOpen] at same
        cases same
        exact absurd isConflict nofun
      | true =>
        cases dialog with
        | conflict shown =>
          have answered : Answering told (choices ++ (app.choice key).toList) _ :=
            answering.conflictKey elsewhere (Bool.eq_false_iff.mpr visible) isOpen
          exact answered.settles last
        | _ => exact absurd isConflict nofun
    · rename_i closed
      apply plain (choice_of_other ?_)
        (App.settles_idleKey setup elsewhere answering.sound closed key)
      intro shown same
      exact absurd (closed.symm.trans same) nofun

/-- The screen is told of another batch. -/
theorem conflictsFound (answering : Answering told choices app) {batchId : Nat}
    (files : List ConflictInfo) (new : batchId ∉ told.map Prod.fst) :
    Answering (told ++ [(batchId, files)]) choices (app.queueConflictPrompt batchId files) := by
  have queued := App.sound_queue answering.sound batchId files
  obtain ⟨prompts, resolves⟩ := keeps_openNextConflictPrompt
    (app.setConflictPrompts (app.conflictPrompts ++ [.new batchId files]))
  have isTold {entry : Nat × List ConflictInfo} (member : entry ∈ told) :
      entry ∈ told ++ [(batchId, files)] := List.mem_append_left _ member
  have knownIds {id : Nat} (member : id ∈ told.map Prod.fst) :
      id ∈ (told ++ [(batchId, files)]).map Prod.fst := by
    rw [List.map_append]
    exact List.mem_append_left _ member
  unfold App.queueConflictPrompt
  constructor
  · exact queued.openNextConflictPrompt
  · intro prompt member
    rw [prompts] at member
    rcases List.mem_append.mp member with isEarlier | isNew
    · exact isTold (answering.waiting prompt isEarlier)
    · cases List.mem_singleton.mp isNew
      exact List.mem_append_right _ List.mem_cons_self
  · rw [prompts]
    change ((app.conflictPrompts ++ [ConflictPrompt.new batchId files]).map _).Nodup
    rw [List.map_append, List.nodup_append]
    refine ⟨answering.distinct, List.nodup_singleton _, ?_⟩
    rintro id isEarlier _ isNew rfl
    cases List.mem_singleton.mp isNew
    obtain ⟨prompt, member, same⟩ := List.mem_map.mp isEarlier
    exact new (List.mem_map.mpr ⟨_, answering.waiting prompt member, same⟩)
  · intro prompt member
    rw [prompts] at member
    rcases List.mem_append.mp member with isEarlier | isNew
    · exact answering.filled prompt isEarlier
    · cases List.mem_singleton.mp isNew
      apply filled_new
      intro choice isChoice same
      exact new (same ▸ answering.known choice isChoice)
  · exact fun choice member => knownIds (answering.known choice member)
  · intro id answers member
    rw [resolves] at member
    obtain ⟨gone, found, isFound, isAnswers⟩ := answering.sent id answers member
    refine ⟨?_, found, isTold isFound, isAnswers⟩
    rw [prompts]
    change id ∉ (app.conflictPrompts ++ [ConflictPrompt.new batchId files]).map _
    rw [List.map_append, List.mem_append, not_or]
    refine ⟨gone, ?_⟩
    intro isNew
    cases List.mem_singleton.mp isNew
    exact new (List.mem_map.mpr ⟨_, isFound, rfl⟩)

end Answering

/-- Whether an event tells of conflicts. -/
def CoreEvent.findsConflicts : CoreEvent → Bool
  | .conflictsFound _ _ => true
  | _ => false

namespace Answering

variable {told : List (Nat × List ConflictInfo)} {choices : List Choice} {app : App}

/-- Another event may take batches away. -/
theorem event_next (answering : Answering told choices app) (setup : Setup) {event : CoreEvent}
    (other : event.findsConflicts = false) :
    Answering told choices (app.applyCoreEvent setup event) := by
  have sound := answering.sound.next setup (.event event)
  have kept {after : App} (sound : after.Sound) (waits : App.Waits app after) :
      Answering told choices after := by
    apply answering.fewer sound
    · rw [waits.conflictPrompts]
    · rw [App.resolves_eq, App.resolves_eq, waits.answers]
      exact fun _ _ member => member
  change (app.applyCoreEvent setup event).Sound at sound
  cases event
  case question requestId question =>
      obtain ⟨dialog, pending, _, _, _, eq⟩ := app.ask_cases requestId question
      change (app.ask requestId question).Sound at sound
      change Answering told choices (app.ask requestId question)
      rw [eq] at sound ⊢
      exact answering.fewer sound (List.Sublist.refl _) fun _ _ member => member
  case profiles entries =>
      have listed : App.Aside app { app with connections := entries } :=
        ⟨⟨rfl, rfl, rfl, rfl⟩, rfl, rfl⟩
      have settled := App.Settles.aside answering.sound listed rfl
      exact answering.settles (settled.trans (.announceMissingHosts settled.sound))
  case profileSaved => exact kept sound (.closeDialog app)
  case conflictsFound batchId files => exact absurd other nofun
  case conflictsWithdrawn batchIds =>
      obtain ⟨prompts, resolves⟩ := keeps_openNextConflictPrompt
        (if app.showsDropped batchIds then (app.keeping batchIds).closeDialog
          else app.keeping batchIds)
      have isNext : app.applyCoreEvent setup (.conflictsWithdrawn batchIds) =
          App.openNextConflictPrompt (if app.showsDropped batchIds then
            (app.keeping batchIds).closeDialog else app.keeping batchIds) := rfl
      rw [isNext] at sound ⊢
      apply answering.fewer sound
      · rw [prompts]
        split_ifs
        · exact List.filter_sublist
        · exact List.filter_sublist
      · intro batchId answers member
        rw [resolves] at member
        split_ifs at member
        · exact member
        · exact member
  case editQuestion editId name kind =>
      have settled : App.Settles
          { app with editQuestions := app.editQuestions ++ [⟨editId, printable name, kind⟩] }
          (app.askEditQuestion editId name kind) :=
        .openNextEditQuestion (App.sound_askEditQuestion answering.sound _)
      apply answering.fewer sound
      · exact settled.conflictPrompts ▸ List.Sublist.refl _
      · intro batchId answers member
        change _ ∈ (app.askEditQuestion editId name kind).resolves at member
        rw [settled.resolves] at member
        exact member
  all_goals exact kept sound (App.aside_event app rfl).1.toWaits

end Answering

end Porthmos
