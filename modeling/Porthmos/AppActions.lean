import Porthmos.AppSteps

/-!
# What an action does to dialogs and questions

An action is taken only where no dialog is open.  It may open one of its own, which answers
nothing that the core asked, and it leaves alone what waits to be asked.
-/

namespace Porthmos

/-- What the core asks the user for. -/
inductive Ask
  | request (requestId : Nat)
  | edit (editId : Nat)
  | batch (batchId : Nat)
  deriving DecidableEq, Repr

/-- What a command answers. -/
def AppCommand.answered : AppCommand → Option Ask
  | .answer requestId _ _ => some (.request requestId)
  | .resolveEdit editId _ => some (.edit editId)
  | .resolveConflicts batchId _ => some (.batch batchId)
  | _ => none

/-- What the dialog of an action asks for, but for conflicts. -/
def PendingAction.ask : PendingAction → Option Ask
  | .submitPassword requestId | .trustHostKey requestId | .trustCertificate requestId =>
    some (.request requestId)
  | .editUpload editId | .editConflict editId => some (.edit editId)
  | _ => none

/-- Whether the user opened the dialog of an action. -/
def PendingAction.isOwn (pending : PendingAction) : Bool :=
  pending.ask.isNone && decide (pending ≠ .resolveConflict)

/-- Whether a dialog is of the kind that an action waits for. -/
def Dialog.fits : Dialog → Option PendingAction → Bool
  | .confirm _, some pending =>
    match pending with
    | .delete | .trustHostKey _ | .trustCertificate _ | .deleteConnection _ | .clearHistory
    | .editUpload _ | .quitWhileSaving => true
    | _ => false
  | .textInput _, some pending =>
    match pending with
    | .mkdir | .rename | .addBookmark => true
    | _ => false
  | .list rows, some pending =>
    match pending with
    | .fixMissingHost _ | .moveLabels _ _ | .editConflict _ => !rows.removable
    | _ => false
  | .list rows, none => rows.removable
  | .form _, some pending =>
    match pending with
    | .submitPassword _ | .addConnection | .editConnection _ | .editSshLabels _
    | .startSync _ => true
    | _ => false
  | .conflict _, some .resolveConflict => true
  | .message _, none => true
  | _, _ => false

namespace App

/-- Every command that answers a question. -/
def answers (app : App) : List AppCommand :=
  app.sent.filter fun command => command.answered.isSome

/-- Every question that was answered. -/
def answered (app : App) : List Ask := app.sent.filterMap AppCommand.answered

/-- The dialog and the action that waits for it belong together. -/
def Fits (app : App) : Prop :=
  match app.dialog with
  | none => app.pendingAction = none
  | some dialog => dialog.fits app.pendingAction = true

/-- No dialog is open. -/
structure Idle (app : App) : Prop where
  dialog : app.dialog = none
  pendingAction : app.pendingAction = none

theorem Fits.idle {app : App} (fits : app.Fits) (closed : app.dialog = none) : app.Idle := by
  unfold Fits at fits
  rw [closed] at fits
  exact ⟨closed, fits⟩

theorem Idle.fits {app : App} (idle : app.Idle) : app.Fits := by
  unfold Fits
  rw [idle.dialog]
  exact idle.pendingAction

/-- Nothing changes that waits to be asked, and nothing is answered. -/
structure Waits (before after : App) : Prop where
  editQuestions : after.editQuestions = before.editQuestions
  openEditQuestion : after.openEditQuestion = before.openEditQuestion
  conflictPrompts : after.conflictPrompts = before.conflictPrompts
  answers : after.answers = before.answers

/-- The same, and the dialog stays as it is. -/
structure Aside (before after : App) : Prop extends Waits before after where
  dialog : after.dialog = before.dialog
  pendingAction : after.pendingAction = before.pendingAction

/-- At most a dialog of the user's own is open. -/
structure OwnDialog (app : App) : Prop where
  fits : app.Fits
  own : app.pendingAction.all PendingAction.isOwn = true

structure Own (before after : App) : Prop extends Waits before after, OwnDialog after

variable {before middle after app : App} {dialog : Dialog} {pending : PendingAction}

namespace Waits

theorem refl (app : App) : Waits app app := ⟨rfl, rfl, rfl, rfl⟩

theorem trans (first : Waits before middle) (second : Waits middle after) : Waits before after :=
  ⟨second.editQuestions.trans first.editQuestions,
    second.openEditQuestion.trans first.openEditQuestion,
    second.conflictPrompts.trans first.conflictPrompts, second.answers.trans first.answers⟩

theorem openDialog (app : App) (dialog : Dialog) (pending : PendingAction) :
    Waits app (app.openDialog dialog pending) :=
  ⟨rfl, rfl, rfl, rfl⟩

theorem closeDialog (app : App) : Waits app app.closeDialog := ⟨rfl, rfl, rfl, rfl⟩

theorem answered_eq (app : App) : app.answered = app.answers.filterMap AppCommand.answered := by
  unfold App.answered App.answers
  rw [List.filterMap_filter]
  congr 1
  funext command
  cases isAnswer : command.answered <;> simp

theorem answered (waits : Waits before after) : after.answered = before.answered := by
  rw [answered_eq, answered_eq, waits.answers]

end Waits

namespace Aside

theorem refl (app : App) : Aside app app := ⟨.refl app, rfl, rfl⟩

theorem trans (first : Aside before middle) (second : Aside middle after) : Aside before after :=
  ⟨first.toWaits.trans second.toWaits, second.dialog.trans first.dialog,
    second.pendingAction.trans first.pendingAction⟩

theorem send (app : App) {command : AppCommand} (plain : command.answered = none) :
    Aside app (app.send command) := by
  have answers : (app.send command).answers = app.answers := by
    simp [App.answers, App.send, List.filter_append, plain]
  exact ⟨⟨rfl, rfl, rfl, answers⟩, rfl, rfl⟩

theorem setSessions (app : App) (sessions : Sessions) : Aside app (app.setSessions sessions) :=
  ⟨⟨rfl, rfl, rfl, rfl⟩, rfl, rfl⟩

theorem setScreen (app : App) (screen : Screen) : Aside app (app.setScreen screen) :=
  ⟨⟨rfl, rfl, rfl, rfl⟩, rfl, rfl⟩

theorem modifyPanelView (app : App) (change : PanelView → PanelView) :
    Aside app (app.modifyPanelView change) := by
  unfold App.modifyPanelView
  split
  · exact ⟨⟨rfl, rfl, rfl, rfl⟩, rfl, rfl⟩
  · exact .setSessions app _

theorem fits (aside : Aside before after) (fits : before.Fits) : after.Fits := by
  unfold Fits
  rw [aside.dialog, aside.pendingAction]
  exact fits

theorem idle (aside : Aside before after) (idle : before.Idle) : after.Idle :=
  ⟨aside.dialog.trans idle.dialog, aside.pendingAction.trans idle.pendingAction⟩

theorem own (aside : Aside before after) (idle : before.Idle) : Own before after where
  toWaits := aside.toWaits
  fits := aside.fits idle.fits
  own := by rw [aside.pendingAction, idle.pendingAction]; rfl

end Aside

namespace Own

theorem refl (idle : app.Idle) : Own app app := (Aside.refl app).own idle

theorem opens (fits : dialog.fits (some pending) = true) (own : pending.isOwn = true) :
    Own app (app.openDialog dialog pending) where
  toWaits := .openDialog app dialog pending
  fits := fits
  own := own

theorem shows (idle : app.Idle) (fits : dialog.fits none = true) :
    Own app { app with dialog := some dialog } where
  toWaits := ⟨rfl, rfl, rfl, rfl⟩
  fits := by
    change dialog.fits app.pendingAction = true
    rw [idle.pendingAction]
    exact fits
  own := by
    change app.pendingAction.all PendingAction.isOwn = true
    rw [idle.pendingAction]
    rfl

theorem after_aside (aside : Aside before middle) (own : Own middle after) : Own before after where
  toWaits := aside.toWaits.trans own.toWaits
  toOwnDialog := own.toOwnDialog

end Own

/-! ### Actions that open no dialog -/

theorem aside_applyPanelAction (setup : Setup) (app : App) (action : Action) :
    Aside app (app.applyPanelAction setup action) := by
  unfold applyPanelAction
  split
  · dsimp only
    split
    case h_6 =>
        split
        · exact .send app rfl
        · exact .refl app
    case h_7 => exact .send app rfl
    case h_8 => exact .refl app
    all_goals exact .modifyPanelView app _
  · exact .refl app

theorem aside_connectToSelected (elsewhere : Elsewhere) (app : App) :
    Aside app (app.connectToSelected elsewhere) := by
  unfold connectToSelected
  split
  · split
    · exact .setSessions app _
    · exact .send app rfl
  · exact .refl app

theorem aside_openConnectionsScreen (app : App) : Aside app app.openConnectionsScreen :=
  (Aside.setScreen app _).trans (.send _ rfl)

theorem aside_disconnectSelected (elsewhere : Elsewhere) (app : App) :
    Aside app (app.disconnectSelected elsewhere) := by
  unfold disconnectSelected
  repeat' split
  all_goals first | exact .send app rfl | exact .refl app

theorem aside_applyTransfersAction (app : App) (action : Action) :
    Aside app (app.applyTransfersAction action) := by
  unfold applyTransfersAction
  split
  · exact .send app rfl
  · exact .send app rfl
  · exact .refl app

theorem aside_runSyncPlan (elsewhere : Elsewhere) (app : App) :
    Aside app (app.runSyncPlan elsewhere) := by
  unfold runSyncPlan
  split
  · exact .refl app
  · split_ifs
    · exact .refl app
    · have cleared : Aside app { app with syncId := none } := ⟨⟨rfl, rfl, rfl, rfl⟩, rfl, rfl⟩
      exact (cleared.trans (.send _ rfl)).trans (.setScreen _ _)

theorem aside_leaveSyncScreen (app : App) : Aside app app.leaveSyncScreen := by
  have cleared (app : App) : Aside app { app with syncId := none, screen := .files } :=
    ⟨⟨rfl, rfl, rfl, rfl⟩, rfl, rfl⟩
  unfold leaveSyncScreen
  split
  · exact (Aside.send app rfl).trans (cleared _)
  · exact cleared app

theorem aside_startCopy (app : App) : Aside app app.startCopy := by
  unfold startCopy
  split_ifs
  · exact .refl app
  · cases app.sessions.active with
    | none => exact .refl app
    | some session =>
      dsimp only
      split_ifs
      · exact .refl app
      · cases app.activePanel with
        | «local» => exact .send app rfl
        | remote => exact .send app rfl

theorem aside_startEdit (app : App) : Aside app app.startEdit := by
  unfold startEdit
  repeat' split
  all_goals first | exact .send app rfl | exact .refl app

theorem aside_openSearchScreen (app : App) : Aside app app.openSearchScreen := by
  unfold openSearchScreen
  repeat' split
  all_goals exact ⟨⟨rfl, rfl, rfl, rfl⟩, rfl, rfl⟩

theorem aside_requestShell (app : App) : Aside app app.requestShell := by
  unfold requestShell
  repeat' split
  all_goals first | exact .send app rfl | exact .refl app

theorem aside_editFilter (app : App) (change : PanelView → PanelView) :
    Aside app (app.editFilter change) := by
  unfold editFilter
  split_ifs
  · exact .modifyPanelView app change
  · exact .refl app

theorem aside_handleBack (setup : Setup) (elsewhere : Elsewhere) (app : App) :
    Aside app (app.handleBack setup elsewhere) := by
  unfold handleBack
  split_ifs
  · exact aside_editFilter app _
  · exact .refl app
  · exact aside_leaveSyncScreen app
  · exact .setScreen app _

/-! ### Actions that may open a dialog -/

theorem own_requestQuit (idle : app.Idle) : Own app app.requestQuit := by
  unfold requestQuit
  split_ifs
  · exact .opens rfl rfl
  · exact Aside.own ⟨⟨rfl, rfl, rfl, rfl⟩, rfl, rfl⟩ idle

theorem own_openMkdirDialog (idle : app.Idle) : Own app app.openMkdirDialog := by
  unfold openMkdirDialog
  split_ifs
  · exact .refl idle
  · exact .opens rfl rfl

theorem own_openRenameDialog (idle : app.Idle) : Own app app.openRenameDialog := by
  unfold openRenameDialog
  split_ifs
  · exact .refl idle
  · split
    · exact .refl idle
    · exact .opens rfl rfl

theorem own_openDeleteDialog (idle : app.Idle) : Own app app.openDeleteDialog := by
  unfold openDeleteDialog
  split_ifs
  · exact .refl idle
  · split
    · exact .refl idle
    · exact .refl idle
    · exact .opens rfl rfl

theorem own_openBookmarkAddDialog (idle : app.Idle) : Own app app.openBookmarkAddDialog := by
  unfold openBookmarkAddDialog
  split_ifs
  · exact .refl idle
  · exact .opens rfl rfl

theorem own_openBookmarksDialog (idle : app.Idle) : Own app app.openBookmarksDialog := by
  unfold openBookmarksDialog
  split_ifs
  · exact .refl idle
  · exact .shows idle rfl

theorem own_openAddConnectionDialog (elsewhere : Elsewhere) (idle : app.Idle) :
    Own app (app.openAddConnectionDialog elsewhere) := by
  unfold openAddConnectionDialog
  split_ifs
  · exact .opens rfl rfl
  · exact .refl idle

theorem own_openEditConnectionDialog (elsewhere : Elsewhere) (idle : app.Idle) :
    Own app (app.openEditConnectionDialog elsewhere) := by
  unfold openEditConnectionDialog
  split
  · split_ifs
    · exact .refl idle
    · exact .opens rfl rfl
    · exact .opens rfl rfl
    · exact .refl idle
  · exact .refl idle

theorem own_openDeleteConnectionDialog (elsewhere : Elsewhere) (idle : app.Idle) :
    Own app (app.openDeleteConnectionDialog elsewhere) := by
  unfold openDeleteConnectionDialog
  split
  · split_ifs
    · exact .refl idle
    · exact .opens rfl rfl
  · exact .refl idle

theorem own_openClearHistoryDialog (elsewhere : Elsewhere) (idle : app.Idle) :
    Own app (app.openClearHistoryDialog elsewhere) := by
  unfold openClearHistoryDialog
  split_ifs
  · exact .refl idle
  · exact .opens rfl rfl

theorem own_openSync (idle : app.Idle) : Own app app.openSync := by
  unfold openSync
  split_ifs
  · exact .refl idle
  · exact (Aside.setScreen app _).own idle
  · split
    · exact .refl idle
    · split_ifs
      · exact .opens rfl rfl
      · exact .refl idle

theorem own_applyScreenAction (setup : Setup) (elsewhere : Elsewhere) (idle : app.Idle)
    (action : Action) : Own app (app.applyScreenAction setup elsewhere action) := by
  unfold applyScreenAction
  split
  · exact (aside_applyPanelAction setup app action).own idle
  · unfold applyConnectionsAction
    split
    · split
      · split_ifs
        · exact .opens rfl rfl
        · exact (aside_connectToSelected elsewhere app).own idle
      · exact .refl idle
    · exact (aside_openConnectionsScreen app).own idle
    · exact .refl idle
  · exact .refl idle
  · exact (aside_applyTransfersAction app action).own idle
  · unfold applyHistoryAction
    split
    · exact .shows idle rfl
    · exact .refl idle
  · unfold applySyncAction
    split
    · exact (aside_runSyncPlan elsewhere app).own idle
    · exact .refl idle

/-- What an action does, wherever it is taken. -/
theorem own_applyAction (setup : Setup) (elsewhere : Elsewhere) (idle : app.Idle)
    (action : Action) : Own app (app.applyAction setup elsewhere action) := by
  have kept {after : App} (aside : Aside app after) : Own app after := aside.own idle
  cases action
  case quit => exact own_requestQuit idle
  case switchPanel => exact kept ⟨⟨rfl, rfl, rfl, rfl⟩, rfl, rfl⟩
  case mkdir => exact own_openMkdirDialog idle
  case rename =>
      unfold applyAction
      dsimp only
      split
      · exact own_openEditConnectionDialog elsewhere idle
      · exact own_openRenameDialog idle
  case delete =>
      unfold applyAction
      dsimp only
      split
      · exact kept (aside_disconnectSelected elsewhere app)
      · exact kept (.send app rfl)
      · exact own_openClearHistoryDialog elsewhere idle
      · exact own_openDeleteDialog idle
  case copy => exact kept (aside_startCopy app)
  case edit => exact kept (aside_startEdit app)
  case cancelTransfer => exact kept (.send app rfl)
  case openConnections => exact kept (aside_openConnectionsScreen app)
  case addConnection => exact own_openAddConnectionDialog elsewhere idle
  case deleteConnection => exact own_openDeleteConnectionDialog elsewhere idle
  case bookmarkHere => exact own_openBookmarkAddDialog idle
  case openBookmarks => exact own_openBookmarksDialog idle
  case openSearch => exact kept (aside_openSearchScreen app)
  case filter => exact kept (aside_editFilter app _)
  case openTransfers => exact kept (.setScreen app _)
  case openHistory => exact kept ((Aside.setScreen app _).trans (.send _ rfl))
  case openSync => exact own_openSync idle
  case cycleSession =>
      unfold applyAction
      dsimp only
      split_ifs
      · exact kept (.setSessions app _)
      · exact .refl idle
  case help => exact kept ⟨⟨rfl, rfl, rfl, rfl⟩, rfl, rfl⟩
  case back => exact kept (aside_handleBack setup elsewhere app)
  case openTerminal => exact kept (aside_requestShell app)
  case noop => exact .refl idle
  all_goals exact own_applyScreenAction setup elsewhere idle _

theorem own_applyFilterKey (setup : Setup) (elsewhere : Elsewhere) (idle : app.Idle)
    (key : KeyEvent) : Own app (app.applyFilterKey setup elsewhere key) := by
  have edited (change : PanelView → PanelView) : Own app (app.editFilter change) :=
    (aside_editFilter app change).own idle
  have finished : Own app ((app.editFilter PanelView.finishFilter).applyAction setup elsewhere
      (setup.mapKey key)) :=
    have aside := aside_editFilter app PanelView.finishFilter
    .after_aside aside (own_applyAction setup elsewhere (aside.idle idle) _)
  unfold applyFilterKey
  obtain ⟨code, control, alt, shift⟩ := key
  dsimp only at finished ⊢
  cases code
  case char character =>
      dsimp only
      split_ifs
      · exact finished
      · exact edited _
  all_goals first | exact edited _ | exact finished

end App

end Porthmos
