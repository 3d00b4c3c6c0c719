import Porthmos.AppActions

/-!
# What a key does to the dialog

Whatever is asked, by a dialog or while it waits in a queue, is still asked after a key or has been
answered by it.
-/

namespace Porthmos

def Dialog.isConflict : Dialog → Bool
  | .conflict _ => true
  | _ => false

theorem Dialog.fits_handleKey (dialog : Dialog) (key : KeyEvent) (pending : Option PendingAction) :
    (dialog.handleKey key).fits pending = dialog.fits pending := by
  have removable (list : ListDialog) : (list.handleKey key).removable = list.removable := by
    unfold ListDialog.handleKey
    split
    · rfl
    · split_ifs <;> rfl
    · rfl
  cases dialog with
  | list list =>
    cases pending with
    | none => exact removable list
    | some pending => cases pending <;> simp only [Dialog.handleKey, Dialog.fits, removable]
  | confirm _ | textInput _ | form _ | conflict _ | message _ =>
    cases pending with
    | none => rfl
    | some pending => cases pending <;> rfl

theorem ConflictDialog.handleKey_eq (dialog : ConflictDialog) (key : KeyEvent) :
    dialog.handleKey key = { dialog with applyToRest := (dialog.handleKey key).applyToRest } := by
  unfold handleKey
  split
  · split_ifs <;> rfl
  · split_ifs <;> rfl
  · rfl

/-! ### Outcomes -/

theorem ConfirmDialog.outcome_cases (dialog : ConfirmDialog) (key : KeyEvent) :
    dialog.outcome key = .pending ∨ dialog.outcome key = .cancelled ∨
      dialog.outcome key = .confirmed := by
  unfold outcome
  repeat' split
  all_goals simp

theorem TextInputDialog.outcome_cases (dialog : TextInputDialog) (key : KeyEvent) :
    dialog.outcome key = .pending ∨ dialog.outcome key = .cancelled ∨
      dialog.outcome key = .submitted dialog.value := by
  unfold outcome
  split <;> simp

theorem ListDialog.outcome_cases (dialog : ListDialog) (key : KeyEvent) :
    dialog.outcome key = .pending ∨ dialog.outcome key = .cancelled ∨
      dialog.outcome key = .selected dialog.cursor ∨
      dialog.removable = true ∧ dialog.outcome key = .removed dialog.cursor := by
  unfold outcome
  repeat' split
  all_goals simp_all

theorem ConflictDialog.outcome_cases (dialog : ConflictDialog) (key : KeyEvent) :
    dialog.outcome key = .pending ∨ dialog.outcome key = .resolved none false ∨
      ∃ resolution, dialog.outcome key = .resolved (some resolution) dialog.applyToRest := by
  unfold outcome
  repeat' split
  all_goals simp

/-- The answer that a command gives to a batch. -/
def AppCommand.resolves : AppCommand → Option (Nat × Option (List Resolution))
  | .resolveConflicts batchId answers => some (batchId, answers)
  | _ => none

namespace App

/-! ### Accounts -/

/-- What is asked, by the dialog or in the queues. -/
def held (app : App) : List Ask :=
  (app.pendingAction.bind PendingAction.ask).toList ++
    (app.editQuestions.map fun prompt => Ask.edit prompt.editId) ++
    app.conflictPrompts.map fun prompt => Ask.batch prompt.batchId

/-- How often something is asked or was answered. -/
def balance (app : App) (ask : Ask) : Nat := app.answered.count ask + app.held.count ask

variable {before middle after app : App} {dialog : Dialog} {pending : PendingAction}
  {command : AppCommand}

theorem Waits.balance (waits : Waits before after)
    (same : after.pendingAction.bind PendingAction.ask =
      before.pendingAction.bind PendingAction.ask) : after.balance = before.balance := by
  unfold App.balance held
  rw [waits.answered, waits.editQuestions, waits.conflictPrompts, same]

theorem Aside.balance (aside : Aside before after) : after.balance = before.balance :=
  aside.toWaits.balance (by rw [aside.pendingAction])

theorem OwnDialog.ask_eq (own : app.OwnDialog) :
    app.pendingAction.bind PendingAction.ask = none := by
  have isOwn := own.own
  cases found : app.pendingAction with
  | none => rfl
  | some pending =>
    rw [found] at isOwn
    simp only [Option.all_some, PendingAction.isOwn, Bool.and_eq_true,
      Option.isNone_iff_eq_none] at isOwn
    exact isOwn.1

theorem Idle.ask_eq (idle : app.Idle) : app.pendingAction.bind PendingAction.ask = none := by
  rw [idle.pendingAction]
  rfl

theorem Own.balance (own : Own before after) (idle : before.Idle) :
    after.balance = before.balance :=
  own.toWaits.balance (own.toOwnDialog.ask_eq.trans idle.ask_eq.symm)

theorem answered_send (app : App) (command : AppCommand) :
    (app.send command).answered = app.answered ++ command.answered.toList := by
  unfold App.answered send
  rw [List.filterMap_append]
  cases isAnswer : command.answered <;> simp [isAnswer]

theorem balance_close_send (same : app.pendingAction.bind PendingAction.ask = command.answered) :
    (app.closeDialog.send command).balance = app.balance := by
  funext ask
  unfold App.balance held
  rw [answered_send, same]
  simp only [App.answered, send, closeDialog, Option.bind_none, Option.toList_none,
    List.nil_append, List.count_append]
  omega

theorem balance_closeDialog (plain : app.pendingAction.bind PendingAction.ask = none) :
    app.closeDialog.balance = app.balance :=
  (Waits.closeDialog app).balance plain.symm

/-! ### Sound states -/

/-- The dialog shows the file of the first batch that is next. -/
def Shows (app : App) (dialog : ConflictDialog) : Prop :=
  ∃ prompt rest shown, app.conflictPrompts = prompt :: rest ∧ prompt.dialog = some shown ∧
    dialog = { shown with applyToRest := dialog.applyToRest }

/-- What holds whatever the core tells. -/
structure Sound (app : App) : Prop where
  fits : app.Fits
  lengths : ∀ prompt ∈ app.conflictPrompts, prompt.answers.length = prompt.files.length
  outside : ∀ dialog, app.dialog = some (.conflict dialog) → app.screen ≠ .search
  shows : ∀ dialog, app.dialog = some (.conflict dialog) → app.Shows dialog
  opened : ∀ editId, app.pendingAction.bind PendingAction.ask = some (.edit editId) →
    ∃ prompt, app.openEditQuestion = some prompt ∧ prompt.editId = editId

theorem OwnDialog.noConflict (own : app.OwnDialog) (dialog : ConflictDialog) :
    app.dialog ≠ some (.conflict dialog) := by
  intro isConflict
  have fits := own.fits
  have isOwn := own.own
  unfold Fits at fits
  rw [isConflict] at fits
  cases found : app.pendingAction with
  | none => simp [found, Dialog.fits] at fits
  | some pending =>
    rw [found] at fits isOwn
    cases pending with
    | resolveConflict => exact absurd isOwn (by decide)
    | _ => simp [Dialog.fits] at fits

theorem OwnDialog.sound (own : app.OwnDialog)
    (lengths : ∀ prompt ∈ app.conflictPrompts, prompt.answers.length = prompt.files.length) :
    app.Sound where
  fits := own.fits
  lengths := lengths
  outside := fun dialog isConflict => absurd isConflict (own.noConflict dialog)
  shows := fun dialog isConflict => absurd isConflict (own.noConflict dialog)
  opened := by
    intro editId asked
    rw [own.ask_eq] at asked
    exact absurd asked nofun

theorem Idle.ownDialog (idle : app.Idle) : app.OwnDialog :=
  ⟨idle.fits, by rw [idle.pendingAction]; rfl⟩

theorem Sound.own (sound : before.Sound) (own : Own before after) : after.Sound :=
  own.toOwnDialog.sound (own.conflictPrompts ▸ sound.lengths)

theorem Shows.of_eq {dialog : ConflictDialog} (shows : before.Shows dialog)
    (same : after.conflictPrompts = before.conflictPrompts) : after.Shows dialog := by
  obtain ⟨prompt, rest, shown, front, isShown, eq⟩ := shows
  exact ⟨prompt, rest, shown, same.trans front, isShown, eq⟩

theorem Sound.aside (sound : before.Sound) (aside : Aside before after)
    (search : after.screen = .search → before.dialog.isSome → before.screen = .search) :
    after.Sound where
  fits := aside.fits sound.fits
  lengths := aside.conflictPrompts ▸ sound.lengths
  outside := by
    intro dialog isConflict inSearch
    rw [aside.dialog] at isConflict
    exact sound.outside dialog isConflict (search inSearch (by rw [isConflict]; rfl))
  shows := by
    intro dialog isConflict
    rw [aside.dialog] at isConflict
    exact (sound.shows dialog isConflict).of_eq aside.conflictPrompts
  opened := by
    rw [aside.pendingAction, aside.openEditQuestion]
    exact sound.opened

theorem Sound.close (sound : app.Sound) : app.closeDialog.Sound :=
  (Idle.ownDialog ⟨rfl, rfl⟩).sound sound.lengths

theorem Sound.closed (sound : app.Sound) (aside : Aside app.closeDialog after) : after.Sound :=
  ((aside.idle ⟨rfl, rfl⟩).ownDialog).sound (aside.conflictPrompts ▸ sound.lengths)

/-! ### Opening what waits -/

theorem waits_openNextConflictPrompt (app : App) : Waits app app.openNextConflictPrompt := by
  unfold openNextConflictPrompt
  split_ifs
  · exact .refl app
  · split
    · exact .refl app
    · exact .openDialog app _ _

theorem openNextConflictPrompt_cases (app : App) : app.openNextConflictPrompt = app ∨
      ∃ prompt rest dialog, app.dialog = none ∧ app.screen ≠ .search ∧
        app.conflictPrompts = prompt :: rest ∧ prompt.dialog = some dialog ∧
        app.openNextConflictPrompt = app.openDialog (.conflict dialog) .resolveConflict := by
  unfold openNextConflictPrompt
  split_ifs with busy
  · exact Or.inl rfl
  · obtain ⟨closed, outside⟩ := not_or.mp busy
    cases front : app.conflictPrompts with
    | nil => exact Or.inl rfl
    | cons prompt rest =>
      simp only [List.head?_cons, Option.bind_some]
      cases isShown : prompt.dialog with
      | none => exact Or.inl rfl
      | some dialog =>
        exact Or.inr ⟨prompt, rest, dialog, by simpa using closed, outside, rfl, isShown, rfl⟩

theorem Sound.openNextConflictPrompt (sound : app.Sound) : app.openNextConflictPrompt.Sound := by
  rcases openNextConflictPrompt_cases app with same | ⟨prompt, rest, dialog, closed, outside, front,
    isShown, eq⟩
  · rw [same]
    exact sound
  · rw [eq]
    constructor
    · rfl
    · exact sound.lengths
    · intro _ _
      exact outside
    · intro shown isOpen
      cases isOpen
      exact ⟨prompt, rest, dialog, front, isShown, rfl⟩
    · nofun

theorem Idle.balance_openDialog (idle : app.Idle) (plain : pending.ask = none) :
    (app.openDialog dialog pending).balance = app.balance :=
  (Waits.openDialog app dialog pending).balance (plain.trans idle.ask_eq.symm)

theorem balance_openNextConflictPrompt (fits : app.Fits) :
    app.openNextConflictPrompt.balance = app.balance := by
  rcases openNextConflictPrompt_cases app with same | ⟨_, _, _, closed, _, _, _, eq⟩
  · rw [same]
  · rw [eq]
    exact (fits.idle closed).balance_openDialog rfl

theorem announceMissingHosts_cases (app : App) : app.announceMissingHosts = app ∨
      ∃ announced dialog, app.dialog = none ∧ app.announceMissingHosts =
        { app with announcedMissing := announced, dialog := some (.message dialog) } := by
  unfold announceMissingHosts
  split_ifs with busy
  · exact Or.inl rfl
  · dsimp only
    split_ifs
    · exact Or.inl rfl
    all_goals exact Or.inr ⟨_, _, by simpa using busy, rfl⟩

theorem own_announceMissingHosts (fits : app.Fits) :
    app.announceMissingHosts = app ∨ app.dialog = none ∧ Own app app.announceMissingHosts := by
  rcases announceMissingHosts_cases app with same | ⟨announced, dialog, closed, eq⟩
  · exact Or.inl same
  · have idle := fits.idle closed
    have aside : Aside app { app with announcedMissing := announced } :=
      ⟨⟨rfl, rfl, rfl, rfl⟩, rfl, rfl⟩
    rw [eq]
    exact Or.inr ⟨closed, .after_aside aside (.shows (aside.idle idle) rfl)⟩

/-- The dialog of a question about an edit, and the action that waits for it. -/
theorem openNextEditQuestion_cases (app : App) :
    app.openNextEditQuestion = app ∧ (app.dialog = none → app.editQuestions = []) ∨
      ∃ prompt rest dialog pending, app.dialog = none ∧ app.editQuestions = prompt :: rest ∧
        dialog.fits (some pending) = true ∧ dialog.isConflict = false ∧
        pending.ask = some (.edit prompt.editId) ∧
        app.openNextEditQuestion = openDialog
          { app with editQuestions := rest, openEditQuestion := some prompt } dialog pending := by
  unfold openNextEditQuestion
  split_ifs with busy
  · refine Or.inl ⟨rfl, fun closed => ?_⟩
    rw [closed] at busy
    exact absurd busy nofun
  · have closed : app.dialog = none := by simpa using busy
    cases found : app.editQuestions with
    | nil => exact Or.inl ⟨rfl, fun _ => rfl⟩
    | cons prompt rest =>
      right
      dsimp only
      cases prompt.kind with
      | upload => exact ⟨prompt, rest, _, _, closed, rfl, rfl, rfl, rfl, rfl⟩
      | conflict => exact ⟨prompt, rest, _, _, closed, rfl, rfl, rfl, rfl, rfl⟩

theorem Sound.openNextEditQuestion (sound : app.Sound) : app.openNextEditQuestion.Sound := by
  rcases openNextEditQuestion_cases app with ⟨same, _⟩ | ⟨prompt, rest, dialog, pending, closed, front,
    fits, other, asks, eq⟩
  · rw [same]
    exact sound
  · rw [eq]
    have noConflict (shown : ConflictDialog) : some dialog ≠ some (.conflict shown) := by
      intro isConflict
      cases isConflict
      exact absurd other nofun
    constructor
    · exact fits
    · exact sound.lengths
    · exact fun shown isConflict => absurd isConflict (noConflict shown)
    · exact fun shown isConflict => absurd isConflict (noConflict shown)
    · intro editId asked
      cases asks.symm.trans asked
      exact ⟨prompt, rfl, rfl⟩

theorem balance_openNextEditQuestion (fits : app.Fits) :
    app.openNextEditQuestion.balance = app.balance := by
  rcases openNextEditQuestion_cases app with ⟨same, _⟩ | ⟨prompt, rest, dialog, pending, closed, front,
    _, _, asks, eq⟩
  · rw [same]
  · funext ask
    have idle := fits.idle closed
    unfold App.balance held
    rw [eq]
    simp only [App.answered, openDialog, Option.bind_some, asks, idle.pendingAction,
      Option.bind_none, Option.toList_some, Option.toList_none, front, List.map_cons,
      List.nil_append, List.cons_append, List.count_cons]

/-! ### The outcome of a key -/

theorem Sound.of_idle (sound : before.Sound) (idle : after.Idle)
    (same : after.conflictPrompts = before.conflictPrompts) : after.Sound :=
  idle.ownDialog.sound (same ▸ sound.lengths)

/-- Every batch that waits has a file that is still to be answered. -/
def Asking (app : App) : Prop := ∀ prompt ∈ app.conflictPrompts, none ∈ prompt.answers

theorem Asking.of_eq (asking : before.Asking)
    (same : after.conflictPrompts = before.conflictPrompts) : after.Asking := by
  unfold Asking
  rw [same]
  exact asking

/-- What is asked stays asked or is answered. -/
structure Handled (before after : App) : Prop where
  sound : after.Sound
  balance : after.balance = before.balance
  asking : before.Asking → after.Asking

theorem Handled.trans (first : Handled before middle) (second : Handled middle after) :
    Handled before after :=
  ⟨second.sound, second.balance.trans first.balance, fun asking => second.asking (first.asking asking)⟩

/-- The answers to batches that were sent. -/
def resolves (app : App) : List (Nat × Option (List Resolution)) :=
  app.sent.filterMap AppCommand.resolves

theorem resolves_eq (app : App) : app.resolves = app.answers.filterMap AppCommand.resolves := by
  unfold resolves answers
  rw [List.filterMap_filter]
  congr 1
  funext command
  cases command <;> rfl

/-- The same, and nothing is answered about conflicts. -/
structure Settles (before after : App) : Prop where
  sound : after.Sound
  balance : after.balance = before.balance
  conflictPrompts : after.conflictPrompts = before.conflictPrompts
  resolves : after.resolves = before.resolves

namespace Settles

theorem handled (settles : Settles before after) : Handled before after :=
  ⟨settles.sound, settles.balance, fun asking => asking.of_eq settles.conflictPrompts⟩

theorem refl (sound : app.Sound) : Settles app app := ⟨sound, rfl, rfl, rfl⟩

theorem trans (first : Settles before middle) (second : Settles middle after) :
    Settles before after :=
  ⟨second.sound, second.balance.trans first.balance,
    second.conflictPrompts.trans first.conflictPrompts, second.resolves.trans first.resolves⟩

theorem of_waits (waits : Waits before after) (sound : after.Sound)
    (balance : after.balance = before.balance) : Settles before after :=
  ⟨sound, balance, waits.conflictPrompts, by rw [resolves_eq, resolves_eq, waits.answers]⟩

theorem close (sound : app.Sound) (plain : app.pendingAction.bind PendingAction.ask = none) :
    Settles app app.closeDialog :=
  .of_waits (.closeDialog app) sound.close (balance_closeDialog plain)

theorem close_send (sound : app.Sound)
    (same : app.pendingAction.bind PendingAction.ask = command.answered) :
    Settles app (app.closeDialog.send command) := by
  have plain : command.resolves = none := by
    cases command
    case resolveConflicts batchId answers =>
        obtain ⟨pending, _, isBatch⟩ := Option.bind_eq_some_iff.mp same
        cases pending <;> exact absurd isBatch nofun
    all_goals rfl
  refine ⟨sound.of_idle ⟨rfl, rfl⟩ rfl, balance_close_send same, rfl, ?_⟩
  unfold App.resolves send
  rw [List.filterMap_append, List.filterMap_cons_none plain, List.filterMap_nil, List.append_nil]
  rfl

theorem close_aside (sound : app.Sound) (plain : app.pendingAction.bind PendingAction.ask = none)
    (aside : Aside app.closeDialog after) : Settles app after :=
  .of_waits ((Waits.closeDialog app).trans aside.toWaits) (sound.closed aside)
    (aside.balance.trans (balance_closeDialog plain))

theorem aside (sound : app.Sound) (aside : Aside app after) (screen : after.screen = app.screen) :
    Settles app after :=
  .of_waits aside.toWaits (sound.aside aside fun inSearch _ => screen ▸ inSearch) aside.balance

theorem own (sound : app.Sound) (idle : app.Idle) (own : Own app after) : Settles app after :=
  .of_waits own.toWaits (sound.own own) (own.balance idle)

theorem openNextConflictPrompt (sound : app.Sound) : Settles app app.openNextConflictPrompt :=
  .of_waits (waits_openNextConflictPrompt app) sound.openNextConflictPrompt
    (balance_openNextConflictPrompt sound.fits)

theorem announceMissingHosts (sound : app.Sound) : Settles app app.announceMissingHosts := by
  rcases own_announceMissingHosts sound.fits with same | ⟨closed, isOwn⟩
  · rw [same]
    exact .refl sound
  · exact .own sound (sound.fits.idle closed) isOwn

theorem openNextEditQuestion (sound : app.Sound) : Settles app app.openNextEditQuestion := by
  rcases openNextEditQuestion_cases app with ⟨same, _⟩ | ⟨_, _, _, _, _, _, _, _, _, eq⟩
  · rw [same]
    exact .refl sound
  · have balance := balance_openNextEditQuestion sound.fits
    have opened := sound.openNextEditQuestion
    rw [eq] at balance opened ⊢
    exact ⟨opened, balance, rfl, rfl⟩

end Settles

theorem aside_deleteTargets (app : App) : Aside app app.deleteTargets := by
  unfold deleteTargets
  split
  · exact .send app rfl
  · exact .refl app

theorem aside_createDirectory (app : App) (name : String) :
    Aside app (app.createDirectory name) := by
  unfold createDirectory
  split
  · exact .send app rfl
  · exact .refl app

theorem aside_renameCurrent (app : App) (newName : String) :
    Aside app (app.renameCurrent newName) := by
  unfold renameCurrent
  split
  · split
    · exact .send app rfl
    · exact .refl app
  · exact .refl app

theorem aside_addBookmark (app : App) (label : String) : Aside app (app.addBookmark label) := by
  unfold addBookmark
  split
  · exact .refl app
  · exact .send app rfl

theorem aside_navigateToBookmark (app : App) (index : Nat) :
    Aside app (app.navigateToBookmark index) := by
  unfold navigateToBookmark
  split
  · exact .refl app
  · split
    · have moved : Aside app { app with activePanel := .local } := ⟨⟨rfl, rfl, rfl, rfl⟩, rfl, rfl⟩
      exact moved.trans (.send _ rfl)
    · split
      · exact .refl app
      · rename_i session _
        have moved : Aside app { app with
            sessions := (app.sessions.activate session.id).getD app.sessions
            activePanel := .remote } := ⟨⟨rfl, rfl, rfl, rfl⟩, rfl, rfl⟩
        exact moved.trans (.send _ rfl)

theorem settles_cancel (sound : app.Sound) :
    Settles app (app.closeDialog.cancelPending app.pendingAction) := by
  have given (pending : Option PendingAction) (isPending : app.pendingAction = pending) :
      Settles app (app.closeDialog.cancelPending pending) := by
    unfold cancelPending
    split
    case h_6 =>
        apply Settles.close sound
        rw [isPending]
        cases pending with
        | none => rfl
        | some pending => cases pending <;> simp_all [PendingAction.ask]
    all_goals exact .close_send sound (by rw [isPending]; rfl)
  exact given app.pendingAction rfl

theorem settles_confirm (sound : app.Sound) {question : ConfirmDialog}
    (isOpen : app.dialog = some (.confirm question)) :
    Settles app (app.closeDialog.confirmPending app.pendingAction) := by
  have fits := sound.fits
  unfold Fits at fits
  rw [isOpen] at fits
  cases found : app.pendingAction with
  | none => exact .close sound (by rw [found]; rfl)
  | some pending =>
    rw [found] at fits
    cases pending
    case delete => exact .close_aside sound (by rw [found]; rfl) (aside_deleteTargets _)
    case quitWhileSaving =>
        exact .close_aside sound (by rw [found]; rfl) ⟨⟨rfl, rfl, rfl, rfl⟩, rfl, rfl⟩
    all_goals first
      | exact .close_send sound (by rw [found]; rfl)
      | exact absurd fits (by simp [Dialog.fits])

theorem settles_submit (sound : app.Sound) {input : TextInputDialog}
    (isOpen : app.dialog = some (.textInput input)) (value : String) :
    Settles app (app.closeDialog.submitPending value app.pendingAction) := by
  have fits := sound.fits
  unfold Fits at fits
  rw [isOpen] at fits
  cases found : app.pendingAction with
  | none => exact .close sound (by rw [found]; rfl)
  | some pending =>
    rw [found] at fits
    cases pending
    case mkdir => exact .close_aside sound (by rw [found]; rfl) (aside_createDirectory _ value)
    case rename => exact .close_aside sound (by rw [found]; rfl) (aside_renameCurrent _ value)
    case addBookmark => exact .close_aside sound (by rw [found]; rfl) (aside_addBookmark _ value)
    all_goals exact absurd fits (by simp [Dialog.fits])

theorem settles_missingHostChoice (sound : app.Sound)
    (plain : app.pendingAction.bind PendingAction.ask = none) (name : String) (index : Nat) :
    Settles app (app.closeDialog.applyMissingHostChoice name index) := by
  have closed : Aside app.closeDialog { app.closeDialog with dialog := none } :=
    ⟨⟨rfl, rfl, rfl, rfl⟩, rfl, rfl⟩
  unfold applyMissingHostChoice
  dsimp only
  split
  · split_ifs
    · exact .close_aside sound plain closed
    · have idle : App.Idle { app.closeDialog with dialog := none } := ⟨rfl, rfl⟩
      have settled := Settles.close_aside sound plain closed
      exact settled.trans (.own settled.sound idle (.opens rfl rfl))
  · exact .close_aside sound plain (closed.trans (.send _ rfl))
  · exact .close_aside sound plain closed

theorem settles_select (sound : app.Sound) {rows : ListDialog}
    (isOpen : app.dialog = some (.list rows)) (index : Nat) :
    Settles app (app.closeDialog.selectPending index app.pendingAction) := by
  have fits := sound.fits
  unfold Fits at fits
  rw [isOpen] at fits
  cases found : app.pendingAction with
  | none =>
    have kept : Aside app.closeDialog { app.closeDialog with pendingAction := none } :=
      ⟨⟨rfl, rfl, rfl, rfl⟩, rfl, rfl⟩
    exact .close_aside sound (by rw [found]; rfl) (kept.trans (aside_navigateToBookmark _ index))
  | some pending =>
    rw [found] at fits
    cases pending
    case fixMissingHost name =>
        exact settles_missingHostChoice sound (by rw [found]; rfl) name index
    case editConflict editId => exact .close_send sound (by rw [found]; rfl)
    case moveLabels source candidates =>
        have closed : Aside app.closeDialog { app.closeDialog with dialog := none } :=
          ⟨⟨rfl, rfl, rfl, rfl⟩, rfl, rfl⟩
        unfold selectPending moveLabelsTo
        dsimp only
        split
        · exact .close_aside sound (by rw [found]; rfl) (closed.trans (.send _ rfl))
        · exact .close_aside sound (by rw [found]; rfl) closed
    all_goals exact absurd fits (by simp [Dialog.fits])

/-- A row is removed from the list of bookmarks. -/
theorem settles_remove (sound : app.Sound) {rows : ListDialog}
    (isOpen : app.dialog = some (.list rows)) (removable : rows.removable = true) (index : Nat) :
    Settles app { app.send (.removeBookmark index) with
      dialog := app.dialog.map (removeListRow index) } := by
  have fits := sound.fits
  unfold Fits at fits
  rw [isOpen] at fits
  have plain : app.pendingAction = none := by
    cases found : app.pendingAction with
    | none => rfl
    | some pending =>
      rw [found] at fits
      cases pending <;> exact absurd fits (by simp [Dialog.fits, removable])
  have sent : Aside app (app.send (.removeBookmark index)) := .send app rfl
  have own : OwnDialog { app.send (.removeBookmark index) with
      dialog := app.dialog.map (removeListRow index) } := by
    constructor
    · unfold Fits
      rw [isOpen]
      change Dialog.fits (.list (rows.removeRow index)) app.pendingAction = true
      rw [plain]
      exact removable
    · change app.pendingAction.all PendingAction.isOwn = true
      rw [plain]
      rfl
  have waits : Waits app { app.send (.removeBookmark index) with
      dialog := app.dialog.map (removeListRow index) } := ⟨rfl, rfl, rfl, sent.answers⟩
  exact .of_waits waits (own.sound sound.lengths) (waits.balance rfl)

theorem settles_submitForm (sound : app.Sound) {title : String}
    (isOpen : app.dialog = some (.form title)) (values : List (String × String)) :
    Settles app (app.submitForm values) := by
  have fits := sound.fits
  unfold Fits at fits
  rw [isOpen] at fits
  unfold submitForm
  split
  · exact .aside sound (.send app rfl) rfl
  · exact .aside sound (.send app rfl) rfl
  · unfold submitSshLabels
    dsimp only
    split_ifs
    · exact .aside sound ((Aside.send app rfl).trans (.send _ rfl)) rfl
    · exact .aside sound (.send app rfl) rfl
  · rename_i requestId found
    have answers (app : App) (sound : app.Sound) (save : Bool) (answer : Option Answer)
        (found : app.pendingAction = some (.submitPassword requestId)) :
        Settles app (app.send (.answer requestId answer save)).closeDialog :=
      have same : app.pendingAction.bind PendingAction.ask =
          (AppCommand.answer requestId answer save).answered := by rw [found]; rfl
      .close_send sound same
    unfold submitPassword
    dsimp only
    split_ifs
    · have chosen (save : Bool) : Settles app { app with saveChoice := save } :=
        .aside sound ⟨⟨rfl, rfl, rfl, rfl⟩, rfl, rfl⟩ rfl
      have told (save : Bool) :
          Settles app (App.send { app with saveChoice := save } (.rememberSaveChoice save)) :=
        (chosen save).trans (.aside (chosen save).sound (.send _ rfl) rfl)
      exact (told _).trans (answers _ (told _).sound _ _ found)
    · exact answers app sound _ _ found
  · rename_i session found
    unfold submitSyncOptions
    split
    · exact .refl sound
    · dsimp only
      split
      · exact .close sound (by rw [found]; rfl)
      · exact .close_aside sound (by rw [found]; rfl) (.send _ rfl)
  · rename_i addConnection editConnection editSshLabels submitPassword startSync
    cases found : app.pendingAction with
    | none =>
      rw [found] at fits
      exact absurd fits (by simp [Dialog.fits])
    | some pending =>
      rw [found] at fits
      cases pending <;> simp_all [Dialog.fits]

/-! ### Answering a conflict -/

theorem current_of_dialog {prompt : ConflictPrompt} {shown : ConflictDialog}
    (isShown : prompt.dialog = some shown) :
    ∃ index file, prompt.current = some index ∧ prompt.files[index]? = some file ∧
      shown = prompt.dialogAt index file := by
  unfold ConflictPrompt.dialog at isShown
  obtain ⟨index, isCurrent, found⟩ := Option.bind_eq_some_iff.mp isShown
  obtain ⟨file, isFile, eq⟩ := Option.map_eq_some_iff.mp found
  exact ⟨index, file, isCurrent, isFile, eq.symm⟩

theorem mem_of_incomplete {prompt : ConflictPrompt} (incomplete : prompt.complete = none) :
    none ∈ prompt.answers := by
  have mem (answers : List (Option Resolution)) (missing : answers.mapM id = none) :
      none ∈ answers := by
    induction answers with
    | nil => simp at missing
    | cons answer rest ih =>
      cases answer with
      | none => exact List.mem_cons_self
      | some resolution =>
        apply List.mem_cons_of_mem
        cases others : rest.mapM id with
        | none => exact ih others
        | some answers => simp [List.mapM_cons, others] at missing
  exact mem prompt.answers incomplete

theorem handled_pop (sound : app.Sound) {prompt : ConflictPrompt} {rest : List ConflictPrompt}
    (front : app.conflictPrompts = prompt :: rest) (idle : app.Idle)
    (answers : Option (List Resolution)) :
    Handled app ((app.setConflictPrompts rest).send (.resolveConflicts prompt.batchId answers)) := by
  have closed : App.Idle
      ((app.setConflictPrompts rest).send (.resolveConflicts prompt.batchId answers)) :=
    ⟨idle.dialog, idle.pendingAction⟩
  constructor
  · apply closed.ownDialog.sound
    intro other member
    exact sound.lengths other (front ▸ List.mem_cons_of_mem _ member)
  · funext ask
    unfold App.balance held
    rw [answered_send]
    simp only [App.answered, setConflictPrompts, send, AppCommand.answered, Option.toList_some,
      front, List.map_cons, List.count_append, List.count_cons, List.count_nil]
    omega
  · intro asking other member
    exact asking other (front ▸ List.mem_cons_of_mem _ member)

theorem handled_answerConflict (sound : app.Sound) {shown : ConflictDialog}
    (isOpen : app.dialog = some (.conflict shown)) (resolution : Option Resolution)
    (applyToRest : Bool) : Handled app (app.closeDialog.answerConflict resolution applyToRest) := by
  obtain ⟨prompt, rest, dialog, front, isShown, _⟩ := sound.shows shown isOpen
  obtain ⟨current, file, isCurrent, _, _⟩ := current_of_dialog isShown
  have plain : app.pendingAction.bind PendingAction.ask = none := by
    have fits := sound.fits
    unfold Fits at fits
    rw [isOpen] at fits
    cases found : app.pendingAction with
    | none => rfl
    | some pending =>
      rw [found] at fits
      cases pending <;> first | rfl | exact absurd fits (by simp [Dialog.fits])
  have closed := (Settles.close sound plain).handled
  have idle : app.closeDialog.Idle := ⟨rfl, rfl⟩
  have isFront : app.closeDialog.conflictPrompts = prompt :: rest := front
  have popped (answers : Option (List Resolution)) :=
    closed.trans (handled_pop closed.sound isFront idle answers)
  have opened {after : App} (handled : Handled app after) :
      Handled app after.openNextConflictPrompt :=
    handled.trans (Settles.openNextConflictPrompt handled.sound).handled
  unfold answerConflict
  rw [isFront]
  cases resolution with
  | none => exact opened (popped none)
  | some resolution =>
    simp only [isCurrent]
    cases isComplete : (prompt.answerAt current resolution applyToRest).complete with
    | some answers => exact opened (popped (some answers))
    | none =>
      apply opened
      apply closed.trans
      have pushed : App.Idle (app.closeDialog.setConflictPrompts
          (prompt.answerAt current resolution applyToRest :: rest)) := ⟨rfl, rfl⟩
      constructor
      · apply pushed.ownDialog.sound
        intro other member
        rcases List.mem_cons.mp member with rfl | later
        · have kept := sound.lengths prompt (front ▸ List.mem_cons_self)
          unfold ConflictPrompt.answerAt
          rw [List.length_mapIdx]
          exact kept
        · exact sound.lengths other (front ▸ List.mem_cons_of_mem _ later)
      · unfold App.balance held setConflictPrompts
        rw [isFront]
        rfl
      · intro asking other member
        rcases List.mem_cons.mp member with rfl | later
        · exact mem_of_incomplete isComplete
        · exact asking other (isFront ▸ List.mem_cons_of_mem _ later)

end App

end Porthmos
