import Porthmos.App

/-!
# Keys and events

A key goes to the help, to the dialog, to the search, to a filter line or to the action it is
bound to.  Events of the core arrive between any two keys.
-/

namespace Porthmos

namespace App

variable (setup : Setup) (elsewhere : Elsewhere)

/-! ### Actions -/

/-- `apply_panel_action` -/
def applyPanelAction (app : App) (action : Action) : App :=
  match app.activeLocation, app.activePanelView with
  | some location, some panel =>
    let list (path : Option Path) : App :=
      match path with
      | some path => app.send (.list location (some path))
      | none => app
    match action with
    | .up => app.modifyPanelView fun panel => panel.moveCursor false
    | .down => app.modifyPanelView fun panel => panel.moveCursor true
    | .toggleSelect => app.modifyPanelView PanelView.toggleSelection
    | .toggleHidden => app.modifyPanelView fun panel => panel.toggleHidden setup.lower
    | .cycleSort => app.modifyPanelView fun panel => panel.cycleSort setup.lower
    | .open => list panel.targetPathForOpen
    | .refresh => list (some panel.path)
    | _ => app
  | _, _ => app

def applyConnectionsAction (app : App) (action : Action) : App :=
  match action with
  | .open =>
    match elsewhere.selected with
    | some (.connection entry) =>
      if entry.source.isOrphanLabels then app.openMissingHostDialog entry
      else app.connectToSelected elsewhere
    | _ => app
  | .refresh => app.openConnectionsScreen
  | _ => app

def applyTransfersAction (app : App) (action : Action) : App :=
  match action with
  | .open | .refresh => app.send .other
  | _ => app

/-- The details of the selected transfer, with no action of their own. -/
def applyHistoryAction (app : App) (action : Action) : App :=
  match action, elsewhere.historyDetails with
  | .open, some details => { app with dialog := some (.message details) }
  | _, _ => app

def applySyncAction (app : App) (action : Action) : App :=
  match action with
  | .open => app.runSyncPlan elsewhere
  | _ => app

def applyScreenAction (app : App) (action : Action) : App :=
  match app.screen with
  | .files => app.applyPanelAction setup action
  | .connections => app.applyConnectionsAction elsewhere action
  | .search => app
  | .transfers => app.applyTransfersAction action
  | .history => app.applyHistoryAction elsewhere action
  | .sync => app.applySyncAction elsewhere action

def openClearHistoryDialog (app : App) : App :=
  if elsewhere.historyTotal = 0 then app
  else app.openDialog (.confirm (.new "Clear the whole transfer history?")) .clearHistory

def startCopy (app : App) : App :=
  if app.screen ≠ .files then app
  else
    match app.sessions.active with
    | none => app
    | some session =>
      let source := match app.activePanel with
        | .local => app.localPanel
        | .remote => session.panel
      if source.targetEntries = [] then app
      else
        match app.activePanel with
        | .local => app.send
            (.copy .local source.targetEntries (.session session.id) session.panel.path)
        | .remote => app.send
            (.copy (.session session.id) source.targetEntries .local app.localPanel.path)

def openSearchScreen (app : App) : App :=
  if app.screen ≠ .files then app
  else
    match app.activeLocation with
    | none => app
    | some location => { app with search := some location, screen := .search }

def requestShell (app : App) : App :=
  match app.sessions.active with
  | some session => if session.shellAvailable then app.send .other else app
  | none => app

/-- The filter line of the screen is edited from now on. -/
def startFilter (app : App) : App :=
  if app.screen = .files then app.modifyPanelView PanelView.startFilter else app

/-- Whether the screen has a filter to clear. -/
def hasActiveFilter (app : App) : Bool :=
  match app.screen with
  | .files => app.activePanelView.any fun panel => panel.filter.isSome || panel.editingFilter
  | .connections | .history | .sync => elsewhere.hasFilter
  | _ => false

def clearActiveFilter (app : App) : App :=
  if app.screen = .files then app.modifyPanelView fun panel => panel.clearFilter setup.lower
  else app

def handleBack (app : App) : App :=
  if app.hasActiveFilter elsewhere then app.clearActiveFilter setup
  else if elsewhere.showingError then app
  else if app.screen = .sync then app.leaveSyncScreen
  else app.setScreen .files

def applyAction (app : App) (action : Action) : App :=
  match action with
  | .quit => app.requestQuit
  | .switchPanel => { app with activePanel := app.activePanel.toggle }
  | .mkdir => app.openMkdirDialog
  | .rename =>
    match app.screen with
    | .connections => app.openEditConnectionDialog elsewhere
    | _ => app.openRenameDialog
  | .delete =>
    match app.screen with
    | .connections => app.disconnectSelected elsewhere
    | .transfers => app.send .other
    | .history => app.openClearHistoryDialog elsewhere
    | _ => app.openDeleteDialog
  | .copy => app.startCopy
  | .edit => app.startEdit
  | .cancelTransfer => app.send .other
  | .openConnections => app.openConnectionsScreen
  | .addConnection => app.openAddConnectionDialog elsewhere
  | .deleteConnection => app.openDeleteConnectionDialog elsewhere
  | .bookmarkHere => app.openBookmarkAddDialog
  | .openBookmarks => app.openBookmarksDialog
  | .openSearch => app.openSearchScreen
  | .filter => app.startFilter
  | .openTransfers => app.setScreen .transfers
  | .openHistory => (app.setScreen .history).send .other
  | .openSync => app.openSync
  | .cycleSession => if app.screen = .files then app.setSessions app.sessions.cycle else app
  | .help => { app with helpVisible := true }
  | .back => app.handleBack setup elsewhere
  | .openTerminal => app.requestShell
  | .up | .down | .toggleSelect | .open | .refresh | .toggleHidden | .cycleSort =>
    app.applyScreenAction setup elsewhere action
  | .noop => app

/-! ### The keys of a dialog -/

def removeListRow (index : Nat) : Dialog → Dialog
  | .list list => .list (list.removeRow index)
  | dialog => dialog

/-- The answer to a question that was cancelled. -/
def cancelPending (app : App) : Option PendingAction → App
  | some (.submitPassword requestId) | some (.trustHostKey requestId)
  | some (.trustCertificate requestId) => app.send (.answer requestId none false)
  | some (.editUpload editId) | some (.editConflict editId) => app.send (.resolveEdit editId .cancel)
  | _ => app

def confirmPending (app : App) : Option PendingAction → App
  | some .delete => app.deleteTargets
  | some (.deleteConnection name) => app.send (.deleteProfile name)
  | some .clearHistory => app.send .clearHistory
  | some .quitWhileSaving => { app with shouldQuit := true }
  | some (.editUpload editId) => app.send (.resolveEdit editId .upload)
  | some (.trustHostKey requestId) | some (.trustCertificate requestId) =>
    app.send (.answer requestId (some .confirmed) false)
  | _ => app

def submitPending (app : App) (value : String) : Option PendingAction → App
  | some .mkdir => app.createDirectory value
  | some .rename => app.renameCurrent value
  | some .addBookmark => app.addBookmark value
  | _ => app

/-- An action that has nothing to select from is kept. -/
def selectPending (app : App) (index : Nat) : Option PendingAction → App
  | some (.fixMissingHost name) => app.applyMissingHostChoice name index
  | some (.editConflict editId) => app.answerEditConflict editId index
  | some (.moveLabels source candidates) => app.moveLabelsTo source candidates index
  | other => { app with pendingAction := other }.navigateToBookmark index

def submitForm (app : App) (values : List (String × String)) : App :=
  match app.pendingAction with
  | some .addConnection => app.send (.saveProfile none values)
  | some (.editConnection original) => app.send (.saveProfile (some original.name) values)
  | some (.editSshLabels name) => app.submitSshLabels name values
  | some (.submitPassword requestId) => app.submitPassword requestId values
  | some (.startSync session) => app.submitSyncOptions session values
  | _ => { app with dialog := none }

def applyOutcome (app : App) : DialogOutcome → App
  | .pending | .formChoiceChanged => app
  | .cancelled => app.closeDialog.cancelPending app.pendingAction
  | .confirmed => app.closeDialog.confirmPending app.pendingAction
  | .submitted value => app.closeDialog.submitPending value app.pendingAction
  | .selected index => app.closeDialog.selectPending index app.pendingAction
  | .removed index =>
    let app := app.send (.removeBookmark index)
    { app with dialog := app.dialog.map (removeListRow index) }
  | .formSubmitted values => app.submitForm values
  | .resolved resolution applyToRest => app.closeDialog.answerConflict resolution applyToRest

def applyDialogKey (app : App) (dialog : Dialog) (key : KeyEvent) : App :=
  let app := { app with dialog := some (dialog.handleKey key) }
  ((app.applyOutcome (dialog.outcome elsewhere.form key)).openNextConflictPrompt).announceMissingHosts

/-! ### The other keys -/

def leaveSearch (app : App) : App :=
  let app := { app with search := none }.send .other
  (app.setScreen .files).openNextConflictPrompt

def openSearchResult (app : App) (location : Location) (entry : Entry) : App :=
  let app := app.leaveSearch
  let app := match location with
    | .local => { app with activePanel := .local }
    | .session id => { app with
        sessions := (app.sessions.activate id).getD app.sessions
        activePanel := .remote }
  app.send (.list location (some (entry.path.parent.getD entry.path)))

def applySearchKey (app : App) (key : KeyEvent) : App :=
  match app.search with
  | none => app
  | some location =>
    if key.code = .char 'c' ∧ key.control then app.send .other
    else
      match elsewhere.search with
      | .pending => app
      | .patternChanged => app.send .other
      | .open (some entry) => app.openSearchResult location entry
      | .open none => app
      | .cancel => app.leaveSearch

def editingFilter (app : App) : Bool :=
  match app.screen with
  | .files => app.editingPanelFilter
  | .connections | .history | .sync => elsewhere.editingFilter
  | _ => false

/-- A change of the panel whose filter line is edited. -/
def editFilter (app : App) (change : PanelView → PanelView) : App :=
  if app.screen = .files then app.modifyPanelView change else app

def applyFilterKey (app : App) (key : KeyEvent) : App :=
  let finish : App := (app.editFilter PanelView.finishFilter).applyAction setup elsewhere
    (setup.mapKey key)
  match key.code with
  | .char character =>
    if key.control || key.alt then finish
    else app.editFilter fun panel => panel.typeFilter setup.lower character
  | .backspace => app.editFilter fun panel => panel.eraseFilter setup.lower
  | .enter => app.editFilter PanelView.finishFilter
  | .esc => app.editFilter fun panel => panel.clearFilter setup.lower
  | .up => app.editFilter fun panel => panel.moveCursor false
  | .down => app.editFilter fun panel => panel.moveCursor true
  | _ => finish

def applyKey (app : App) (key : KeyEvent) : App :=
  if app.helpVisible then { app with helpVisible := false }
  else
    match app.dialog with
    | some dialog => (app.applyDialogKey elsewhere dialog key).afterDialogKey
    | none =>
      if app.screen = .search then app.applySearchKey elsewhere key
      else if app.editingFilter elsewhere then app.applyFilterKey setup elsewhere key
      else app.applyAction setup elsewhere (setup.mapKey key)

/-! ### Events -/

def applyListing (app : App) (location : Location) (path : Path) (entries : List Entry) : App :=
  match location with
  | .local =>
    let panel := if app.localPanel.listing.samePlace path then app.localPanel
      else { app.localPanel with cursor := 0 }
    { app with localPanel := panel.replaceListing setup.lower path entries }
  | .session id => app.setSessions (app.sessions.modify id fun session =>
    { session with panel := session.panel.replaceListing setup.lower path entries, listed := true })

def relist (app : App) (location : Location) : App :=
  match location with
  | .local => app.send (.list .local (some app.localPanel.path))
  | .session id =>
    match app.sessions.byId id with
    | some session => app.send (.list (.session id) (some session.panel.path))
    | none => app

def applyCoreEvent (app : App) : CoreEvent → App
  | .connected session name shellAvailable => app.applyConnected setup session name shellAvailable
  | .question requestId question => app.ask requestId question
  | .disconnected session => app.setSessions (app.sessions.remove session)
  | .listed location path entries => app.applyListing setup location path entries
  | .locationChanged location => app.relist location
  | .profiles entries => announceMissingHosts { app with connections := entries }
  | .profileSaved => app.closeDialog
  | .bookmarks bookmarks => { app with bookmarks }
  | .conflictsFound batchId files => app.queueConflictPrompt batchId files
  | .conflictsWithdrawn batchIds => app.dropConflictPrompts batchIds
  | .keyringStatus available => { app with keyringAvailable := available }
  | .saveChoice save => { app with saveChoice := save }
  | .editsBusy busy => { app with editsBusy := busy }
  | .editQuestion editId name kind => app.askEditQuestion editId name kind
  | .sessionCapabilities session preservesTimes =>
    app.setSessions (app.sessions.setPreservesTimes session preservesTimes)
  | .syncPlanReady syncId => app.applySyncPlan syncId
  | .syncWithdrawn syncIds => app.withdrawSync syncIds
  | .other => app

end App

/-- What the screen is given: a key, with what the parts that are not modelled make of it, or an
event. -/
inductive Input
  | key (pressed : KeyEvent) (elsewhere : Elsewhere)
  | event (told : CoreEvent)

def Input.next (setup : Setup) (app : App) : Input → App
  | .key pressed elsewhere => app.applyKey setup elsewhere pressed
  | .event told => app.applyCoreEvent setup told

/-- The screen after some inputs. -/
def App.after (setup : Setup) (app : App) (inputs : List Input) : App :=
  inputs.foldl (Input.next setup) app

end Porthmos
