import Porthmos.AppDialogs

/-!
# Questions through whole runs

Whatever the core asks is shown, waits, was withdrawn or was answered, and what waits has some
dialog before it.  Three events can break this: a question of the core that comes while another
one is shown, a profile that is saved while something is asked, and the withdrawal of the last
conflict while a question about an edit waits.
-/

namespace Porthmos

namespace App

variable {before middle after app : App} {dialog : Dialog}

/-! ### Keys -/

/-- The key itself, before its outcome. -/
theorem settles_handleKey (sound : app.Sound) (isOpen : app.dialog = some dialog) (key : KeyEvent) :
    Settles app { app with dialog := some (dialog.handleKey key) } := by
  have asConflict {shown : ConflictDialog} (isConflict : dialog.handleKey key = .conflict shown) :
      ∃ earlier, app.dialog = some (.conflict earlier) ∧ earlier.handleKey key = shown := by
    cases dialog with
    | conflict earlier =>
      cases isConflict
      exact ⟨earlier, isOpen, rfl⟩
    | _ => exact absurd isConflict nofun
  constructor
  · constructor
    · have fits := sound.fits
      unfold Fits at fits ⊢
      rw [isOpen] at fits
      exact (dialog.fits_handleKey key _).trans fits
    · exact sound.lengths
    · intro shown isConflict
      obtain ⟨earlier, wasOpen, _⟩ := asConflict (Option.some.inj isConflict)
      exact sound.outside earlier wasOpen
    · intro shown isConflict
      obtain ⟨earlier, wasOpen, rfl⟩ := asConflict (Option.some.inj isConflict)
      obtain ⟨prompt, rest, first, front, isShown, eq⟩ := sound.shows earlier wasOpen
      refine ⟨prompt, rest, first, front, isShown, ?_⟩
      rw [earlier.handleKey_eq key, eq]
    · exact sound.opened
  · rfl
  · rfl
  · rfl

/-- The outcome of any dialog but one about a conflict. -/
theorem settles_applyOutcome (elsewhere : Elsewhere) (sound : app.Sound)
    (isOpen : app.dialog = some dialog) (other : dialog.isConflict = false) (key : KeyEvent) :
    Settles app (App.applyOutcome { app with dialog := some (dialog.handleKey key) }
      (dialog.outcome elsewhere.form key)) := by
  have settled := settles_handleKey sound isOpen key
  apply settled.trans
  have isSound := settled.sound
  have cancelled := settles_cancel isSound
  cases dialog with
  | confirm question =>
    change Settles _ (App.applyOutcome _ (question.outcome key))
    rcases question.outcome_cases key with eq | eq | eq <;> rw [eq]
    · exact .refl isSound
    · exact cancelled
    · exact settles_confirm isSound rfl
  | textInput input =>
    change Settles _ (App.applyOutcome _ (input.outcome key))
    rcases input.outcome_cases key with eq | eq | eq <;> rw [eq]
    · exact .refl isSound
    · exact cancelled
    · exact settles_submit isSound rfl _
  | list rows =>
    change Settles _ (App.applyOutcome _ (rows.outcome key))
    rcases rows.outcome_cases key with eq | eq | eq | ⟨removable, eq⟩ <;> rw [eq]
    · exact .refl isSound
    · exact cancelled
    · exact settles_select isSound rfl _
    · have kept : (rows.handleKey key).removable = true := by
        unfold ListDialog.handleKey
        split
        · exact removable
        · split_ifs <;> exact removable
        · exact removable
      exact settles_remove isSound rfl kept _
  | form title =>
    unfold Dialog.outcome
    dsimp only
    split
    · exact .refl isSound
    · exact settles_submitForm isSound rfl _
    · exact .refl isSound
    · exact cancelled
  | conflict shown => exact absurd other nofun
  | message text =>
    change Settles _ (App.applyOutcome _ (MessageDialog.outcome key))
    unfold MessageDialog.outcome
    split
    · exact cancelled
    · exact cancelled
    · exact .refl isSound

theorem handled_applyOutcome (elsewhere : Elsewhere) (sound : app.Sound)
    (isOpen : app.dialog = some dialog) (key : KeyEvent) :
    Handled app (App.applyOutcome { app with dialog := some (dialog.handleKey key) }
      (dialog.outcome elsewhere.form key)) := by
  cases dialog with
  | conflict shown =>
    have settled := settles_handleKey sound isOpen key
    apply settled.handled.trans
    have isSound := settled.sound
    change Handled _ (App.applyOutcome _ (shown.outcome key))
    rcases shown.outcome_cases key with eq | eq | ⟨resolution, eq⟩ <;> rw [eq]
    · exact (Settles.refl isSound).handled
    · exact handled_answerConflict isSound rfl none false
    · exact handled_answerConflict isSound rfl (some resolution) shown.applyToRest
  | _ => exact (settles_applyOutcome elsewhere sound isOpen rfl key).handled

theorem settles_afterOutcome (sound : app.Sound) :
    Settles app app.openNextConflictPrompt.announceMissingHosts := by
  have opened := Settles.openNextConflictPrompt sound
  exact opened.trans (.announceMissingHosts opened.sound)

theorem handled_applyDialogKey (elsewhere : Elsewhere) (sound : app.Sound)
    (isOpen : app.dialog = some dialog) (key : KeyEvent) :
    Handled app (app.applyDialogKey elsewhere dialog key) := by
  have outcome := handled_applyOutcome elsewhere sound isOpen key
  exact outcome.trans (settles_afterOutcome outcome.sound).handled

theorem decidesEdit_of_ask {editId : Nat}
    (asked : app.pendingAction.bind PendingAction.ask = some (.edit editId)) :
    app.decidesEdit = true := by
  unfold decidesEdit
  cases found : app.pendingAction with
  | none =>
    rw [found] at asked
    exact absurd asked nofun
  | some pending =>
    rw [found] at asked
    cases pending <;> first | rfl | exact absurd asked (by simp [PendingAction.ask])

theorem settles_afterDialogKey (sound : app.Sound) : Settles app app.afterDialogKey := by
  have forgets : Settles app { app with
      openEditQuestion := if app.decidesEdit then app.openEditQuestion else none } := by
    constructor
    · constructor
      · exact sound.fits
      · exact sound.lengths
      · exact sound.outside
      · exact sound.shows
      · intro editId asked
        obtain ⟨prompt, isOpen, eq⟩ := sound.opened editId asked
        have decides := decidesEdit_of_ask asked
        exact ⟨prompt, (if_pos decides).trans isOpen, eq⟩
    · rfl
    · rfl
    · rfl
  exact forgets.trans (.openNextEditQuestion forgets.sound)

theorem settles_applySearchKey (elsewhere : Elsewhere) (sound : app.Sound)
    (closed : app.dialog = none) (key : KeyEvent) :
    Settles app (app.applySearchKey elsewhere key) := by
  have idle := sound.fits.idle closed
  have kept {after : App} (aside : Aside app after) : Settles app after :=
    .own sound idle (aside.own idle)
  have left : Settles app app.leaveSearch := by
    have ended : Aside app { app with search := none } := ⟨⟨rfl, rfl, rfl, rfl⟩, rfl, rfl⟩
    have sent : Aside app (App.send { app with search := none } .other) := ended.trans (.send _ rfl)
    have quit := kept (sent.trans (.setScreen _ .files))
    exact quit.trans (.openNextConflictPrompt quit.sound)
  unfold applySearchKey
  split
  · exact .refl sound
  · split_ifs
    · exact kept (.send app rfl)
    · split
      · exact .refl sound
      · exact kept (.send app rfl)
      · apply left.trans
        unfold openSearchResult
        dsimp only
        split
        · have moved : Aside app.leaveSearch { app.leaveSearch with activePanel := .local } :=
            ⟨⟨rfl, rfl, rfl, rfl⟩, rfl, rfl⟩
          exact .aside left.sound (moved.trans (.send _ rfl)) rfl
        · rename_i id _
          have moved : Aside app.leaveSearch { app.leaveSearch with
              sessions := (app.leaveSearch.sessions.activate id).getD app.leaveSearch.sessions
              activePanel := .remote } := ⟨⟨rfl, rfl, rfl, rfl⟩, rfl, rfl⟩
          exact .aside left.sound (moved.trans (.send _ rfl)) rfl
      · exact .refl sound
      · exact left

theorem settles_idleKey (setup : Setup) (elsewhere : Elsewhere) (sound : app.Sound)
    (closed : app.dialog = none) (key : KeyEvent) :
    Settles app (if app.screen = .search then app.applySearchKey elsewhere key
      else if app.editingFilter elsewhere then app.applyFilterKey setup elsewhere key
      else app.applyAction setup elsewhere (setup.mapKey key)) := by
  have idle := sound.fits.idle closed
  split_ifs
  · exact settles_applySearchKey elsewhere sound closed key
  · exact .own sound idle (own_applyFilterKey setup elsewhere idle key)
  · exact .own sound idle (own_applyAction setup elsewhere idle _)

theorem handled_applyKey (setup : Setup) (elsewhere : Elsewhere) (sound : app.Sound)
    (key : KeyEvent) : Handled app (app.applyKey setup elsewhere key) := by
  unfold applyKey
  split
  · have hidden : Aside app { app with helpVisible := false } := ⟨⟨rfl, rfl, rfl, rfl⟩, rfl, rfl⟩
    exact (Settles.aside sound hidden rfl).handled
  · split
    · rename_i dialog isOpen
      have handled := handled_applyDialogKey elsewhere sound isOpen key
      exact handled.trans (settles_afterDialogKey handled.sound).handled
    · rename_i closed
      exact (settles_idleKey setup elsewhere sound closed key).handled

/-! ### What the core asks -/

theorem Fits.resolves (fits : app.Fits) {shown : ConflictDialog}
    (isOpen : app.dialog = some (.conflict shown)) :
    app.pendingAction = some .resolveConflict := by
  unfold Fits at fits
  rw [isOpen] at fits
  cases found : app.pendingAction with
  | none =>
    rw [found] at fits
    exact absurd fits (by simp [Dialog.fits])
  | some pending =>
    rw [found] at fits
    cases pending <;> first | rfl | exact absurd fits (by simp [Dialog.fits])

theorem Fits.conflict_of_resolves (fits : app.Fits)
    (resolves : app.pendingAction = some .resolveConflict) :
    ∃ shown, app.dialog = some (.conflict shown) := by
  unfold Fits at fits
  rw [resolves] at fits
  cases isOpen : app.dialog with
  | none =>
    rw [isOpen] at fits
    exact absurd fits nofun
  | some dialog =>
    rw [isOpen] at fits
    cases dialog with
    | conflict shown => exact ⟨shown, rfl⟩
    | _ => exact absurd fits (by simp [Dialog.fits])

theorem Fits.isOpen (fits : app.Fits) {pending : PendingAction}
    (found : app.pendingAction = some pending) : app.dialog.isSome = true := by
  unfold Fits at fits
  cases isDialog : app.dialog with
  | none =>
    rw [isDialog, found] at fits
    exact absurd fits nofun
  | some _ => rfl

theorem ask_cases (app : App) (requestId : Nat) (question : Question) :
    ∃ dialog pending, dialog.fits (some pending) = true ∧ dialog.isConflict = false ∧
      pending.ask = some (.request requestId) ∧
      app.ask requestId question = app.requeueOpenEditQuestion.openDialog dialog pending := by
  cases question
  all_goals exact ⟨_, _, rfl, rfl, rfl, rfl⟩

theorem sound_ask (sound : app.Sound) (requestId : Nat) (question : Question) :
    (app.ask requestId question).Sound := by
  obtain ⟨dialog, pending, fits, other, asks, eq⟩ := app.ask_cases requestId question
  have noConflict (shown : ConflictDialog) : some dialog ≠ some (.conflict shown) := by
    intro isConflict
    cases isConflict
    exact absurd other nofun
  rw [eq]
  constructor
  · exact fits
  · exact sound.lengths
  · exact fun shown isConflict => absurd isConflict (noConflict shown)
  · exact fun shown isConflict => absurd isConflict (noConflict shown)
  · intro editId asked
    exact absurd (asks.symm.trans asked) nofun

/-- A question of the core waits for an answer of the user. -/
def AsksRequest (app : App) : Prop :=
  ∃ requestId, app.pendingAction.bind PendingAction.ask = some (.request requestId)

/-- A question about an edit makes room for another one, and waits again. -/
theorem held_requeue (sound : app.Sound) (free : ¬ app.AsksRequest) :
    (app.requeueOpenEditQuestion.editQuestions.map fun prompt => Ask.edit prompt.editId) =
      (app.pendingAction.bind PendingAction.ask).toList ++
        app.editQuestions.map fun prompt => Ask.edit prompt.editId := by
  unfold requeueOpenEditQuestion
  dsimp only
  cases asked : app.pendingAction.bind PendingAction.ask with
  | none =>
    have undecided : app.decidesEdit = false := by
      unfold decidesEdit
      split
      · rename_i isPending
        rw [isPending] at asked
        exact absurd asked nofun
      · rename_i isPending
        rw [isPending] at asked
        exact absurd asked nofun
      · rfl
    rw [undecided, Bool.and_false, if_neg nofun]
    rfl
  | some ask =>
    cases ask with
    | request requestId => exact absurd ⟨requestId, asked⟩ free
    | batch batchId =>
      obtain ⟨pending, isPending, isBatch⟩ := Option.bind_eq_some_iff.mp asked
      cases pending <;> exact absurd isBatch (by simp [PendingAction.ask])
    | edit editId =>
      obtain ⟨pending, isPending, _⟩ := Option.bind_eq_some_iff.mp asked
      obtain ⟨prompt, isOpen, eq⟩ := sound.opened editId asked
      rw [sound.fits.isOpen isPending, decidesEdit_of_ask asked, Bool.true_and, if_pos rfl, isOpen]
      simp [eq]

theorem balance_ask (sound : app.Sound) (free : ¬ app.AsksRequest) (requestId : Nat)
    (question : Question) (ask : Ask) :
    (app.ask requestId question).balance ask =
      app.balance ask + [Ask.request requestId].count ask := by
  obtain ⟨dialog, pending, _, _, asks, eq⟩ := app.ask_cases requestId question
  have requeued := held_requeue sound free
  have sent : app.requeueOpenEditQuestion.sent = app.sent := rfl
  have batches : app.requeueOpenEditQuestion.conflictPrompts = app.conflictPrompts := rfl
  unfold App.balance held
  rw [eq]
  simp only [openDialog, Option.bind_some, asks, requeued, sent, batches, Option.toList_some,
    List.count_append, App.answered]
  omega

/-! ### Batches of conflicts -/

theorem sound_queue (sound : app.Sound) (batchId : Nat) (files : List ConflictInfo) :
    (app.setConflictPrompts (app.conflictPrompts ++ [.new batchId files])).Sound := by
  constructor
  · exact sound.fits
  · intro prompt member
    rcases List.mem_append.mp member with earlier | new
    · exact sound.lengths prompt earlier
    · cases List.mem_singleton.mp new
      exact List.length_replicate
  · exact sound.outside
  · intro dialog isOpen
    obtain ⟨prompt, rest, shown, front, isShown, eq⟩ := sound.shows dialog isOpen
    refine ⟨prompt, rest ++ [.new batchId files], shown, ?_, isShown, eq⟩
    change app.conflictPrompts ++ _ = _
    rw [front]
    rfl
  · exact sound.opened

/-- The batches that the core has withdrawn. -/
def withdrawn (app : App) (batchIds : List Nat) : List Ask :=
  (app.conflictPrompts.filter fun prompt => decide (prompt.batchId ∈ batchIds)).map fun prompt =>
    .batch prompt.batchId

/-- The batches without those that the core has withdrawn. -/
def keeping (app : App) (batchIds : List Nat) : App :=
  app.setConflictPrompts (app.conflictPrompts.filter fun prompt => decide (prompt.batchId ∉ batchIds))

theorem balance_keeping (app : App) (batchIds : List Nat) (ask : Ask) :
    (app.keeping batchIds).balance ask + (app.withdrawn batchIds).count ask = app.balance ask := by
  have split (prompts : List ConflictPrompt) :
      ((prompts.filter fun prompt => decide (prompt.batchId ∉ batchIds)).map fun prompt =>
          Ask.batch prompt.batchId).count ask +
        ((prompts.filter fun prompt => decide (prompt.batchId ∈ batchIds)).map fun prompt =>
          Ask.batch prompt.batchId).count ask =
      (prompts.map fun prompt => Ask.batch prompt.batchId).count ask := by
    induction prompts with
    | nil => rfl
    | cons prompt rest ih =>
      by_cases member : prompt.batchId ∈ batchIds
      · simp only [member, not_true_eq_false, decide_false, decide_true, List.filter_cons,
          Bool.false_eq_true, if_false, if_true, List.map_cons, List.count_cons]
        omega
      · simp only [member, not_false_eq_true, decide_false, decide_true, List.filter_cons,
          Bool.false_eq_true, if_false, if_true, List.map_cons, List.count_cons]
        omega
  have parts := split app.conflictPrompts
  unfold App.balance held
  simp only [keeping, setConflictPrompts, withdrawn, List.count_append, App.answered]
  omega

/-- The batch that is shown is kept, or else the dialog is closed. -/
theorem sound_keeping (sound : app.Sound) (batchIds : List Nat) :
    (if app.showsDropped batchIds then (app.keeping batchIds).closeDialog
      else app.keeping batchIds).Sound := by
  have lengths : ∀ prompt ∈ (app.keeping batchIds).conflictPrompts,
      prompt.answers.length = prompt.files.length :=
    fun prompt member => sound.lengths prompt (List.mem_filter.mp member).1
  split_ifs with dropped
  · exact (Idle.ownDialog ⟨rfl, rfl⟩).sound lengths
  · constructor
    · exact sound.fits
    · exact lengths
    · exact sound.outside
    · intro dialog isOpen
      obtain ⟨prompt, rest, shown, front, isShown, eq⟩ := sound.shows dialog isOpen
      have isKept : prompt.batchId ∉ batchIds := by
        intro member
        apply dropped
        unfold showsDropped
        rw [sound.fits.resolves isOpen, front]
        simpa using member
      refine ⟨prompt, rest.filter fun other => decide (other.batchId ∉ batchIds), shown, ?_,
        isShown, eq⟩
      change app.conflictPrompts.filter _ = _
      rw [front, List.filter_cons, if_pos (decide_eq_true isKept)]
    · exact sound.opened

theorem balance_closeKeeping (app : App) (batchIds : List Nat) :
    (if app.showsDropped batchIds then (app.keeping batchIds).closeDialog
      else app.keeping batchIds).balance = (app.keeping batchIds).balance := by
  split_ifs with dropped
  · apply balance_closeDialog
    unfold showsDropped at dropped
    change app.pendingAction.bind PendingAction.ask = none
    rw [of_decide_eq_true (Bool.and_eq_true_iff.mp dropped).1]
    rfl
  · rfl

theorem sound_askEditQuestion (sound : app.Sound) (asked : EditPrompt) :
    App.Sound { app with editQuestions := app.editQuestions ++ [asked] } :=
  ⟨sound.fits, sound.lengths, sound.outside, sound.shows, sound.opened⟩

theorem balance_askEditQuestion (app : App) (asked : EditPrompt) (ask : Ask) :
    App.balance { app with editQuestions := app.editQuestions ++ [asked] } ask =
      app.balance ask + [Ask.edit asked.editId].count ask := by
  unfold App.balance held
  simp only [App.answered, List.map_append, List.map_cons, List.map_nil, List.count_append]
  omega

end App

end Porthmos
