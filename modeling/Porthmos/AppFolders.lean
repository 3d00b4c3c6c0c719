import Porthmos.AppSteps

/-!
# The folders that are shown

No key changes which folder a panel shows.  A key asks the core for another folder, of a panel
that is there or of the one that is searched, and the panel changes when the listing arrives.
Sessions that come or go leave the panels of the others as they are.
-/

namespace Porthmos

/-- What decides the folder of a session. -/
def Session.place (session : Session) : Nat × Path := (session.id, session.panel.path)

namespace Sessions

def places (sessions : Sessions) : List (Nat × Path) := sessions.items.map Session.place

/-- The folder of a session. -/
def placeOf (sessions : Sessions) (id : Nat) : Option Path :=
  (sessions.byId id).map fun session => session.panel.path

theorem placeOf_eq (sessions : Sessions) (id : Nat) : sessions.placeOf id =
      (sessions.places.find? fun place => decide (place.1 = id)).map Prod.snd := by
  rw [placeOf, byId, places, List.find?_map, Option.map_map]
  rfl

theorem placeOf_congr {before after : Sessions} (same : after.places = before.places) (id : Nat) :
    after.placeOf id = before.placeOf id := by
  rw [placeOf_eq, placeOf_eq, same]

theorem map_modify {α β : Type} (key : α → β) {change : α → α}
    (keeps : ∀ item, key (change item) = key item) (items : List α) (index : Nat) :
    (items.modify index change).map key = items.map key := by
  induction items generalizing index with
  | nil => cases index <;> rfl
  | cons item items ih =>
    cases index with
    | zero => simp [keeps]
    | succ index => simp [ih]

theorem places_modifyActive {change : Session → Session}
    (keeps : ∀ session, (change session).place = session.place) (sessions : Sessions) :
    (sessions.modifyActive change).places = sessions.places := by
  unfold modifyActive
  split
  · rfl
  · exact map_modify Session.place keeps _ _

theorem places_activate (sessions : Sessions) (id : Nat) :
    ((sessions.activate id).getD sessions).places = sessions.places := by
  unfold activate
  cases sessions.position id with
  | none => rfl
  | some index => rfl

theorem places_cycle (sessions : Sessions) : sessions.cycle.places = sessions.places := by
  unfold cycle
  split_ifs <;> rfl

theorem isSome_placeOf_of_mem {sessions : Sessions} {session : Session}
    (isIn : session ∈ sessions.items) : (sessions.placeOf session.id).isSome = true := by
  rw [placeOf, Option.isSome_map, byId, List.find?_isSome]
  exact ⟨session, isIn, decide_eq_true rfl⟩

theorem isSome_placeOf_of_byName {sessions : Sessions} {name : String} {session : Session}
    (found : sessions.byName name = some session) :
    (sessions.placeOf session.id).isSome = true :=
  isSome_placeOf_of_mem (List.mem_of_find?_eq_some found)

theorem isSome_placeOf_of_activeId {sessions : Sessions} {id : Nat}
    (isActive : sessions.activeId = some id) : (sessions.placeOf id).isSome = true := by
  obtain ⟨session, isSession, rfl⟩ := Option.map_eq_some_iff.mp isActive
  obtain ⟨index, _, found⟩ := Option.bind_eq_some_iff.mp isSession
  exact isSome_placeOf_of_mem (List.mem_of_getElem? found)

end Sessions

namespace PanelView

/-! ### Changes of a panel that keep its folder -/

theorem path_moveCursor (panel : PanelView) (down : Bool) :
    (panel.moveCursor down).path = panel.path := by
  unfold moveCursor
  split_ifs <;> rfl

theorem path_toggleSelection (panel : PanelView) : panel.toggleSelection.path = panel.path := by
  unfold toggleSelection
  split
  · rfl
  · split_ifs <;> rfl

theorem path_toggleHidden (lower : String → String) (panel : PanelView) :
    (panel.toggleHidden lower).path = panel.path := rfl

theorem path_cycleSort (lower : String → String) (panel : PanelView) :
    (panel.cycleSort lower).path = panel.path := rfl

end PanelView

namespace App

/-- The folder that is shown for a location. -/
def place (app : App) (location : Location) : Option Path :=
  (app.panel location).map PanelView.path

theorem place_local (app : App) : app.place .local = some app.localPanel.path := rfl

theorem place_session (app : App) (id : Nat) :
    app.place (.session id) = app.sessions.placeOf id := by
  rw [place, panel, Option.map_map]
  rfl

end App

/-- A folder is asked for where there is a panel, or where the search is. -/
def AppCommand.Placed (app : App) : AppCommand → Prop
  | .list location path =>
    path.isSome = true ∧ ((app.place location).isSome = true ∨ app.search = some location)
  | _ => True

namespace App

/-- What keys leave as it is. -/
structure KeepsFolders (before after : App) : Prop where
  places : ∀ location, after.place location = before.place location
  search : ∀ location, after.search = some location →
    before.search = some location ∨ (before.place location).isSome = true
  sent : ∃ commands, after.sent = before.sent ++ commands ∧
    ∀ command ∈ commands, command.Placed before

namespace KeepsFolders

variable {before middle after app : App}

theorem of_eq (localPanel : after.localPanel = before.localPanel)
    (sessions : after.sessions.places = before.sessions.places)
    (search : after.search = before.search) (sent : after.sent = before.sent) :
    KeepsFolders before after where
  places location := by
    cases location with
    | «local» => rw [place_local, place_local, localPanel]
    | session id => rw [place_session, place_session, Sessions.placeOf_congr sessions]
  search location isSearch := .inl (search ▸ isSearch)
  sent := ⟨[], by rw [sent, List.append_nil], nofun⟩

theorem refl (app : App) : KeepsFolders app app := .of_eq rfl rfl rfl rfl

theorem trans (first : KeepsFolders before middle) (second : KeepsFolders middle after) :
    KeepsFolders before after where
  places location := (second.places location).trans (first.places location)
  search location isSearch := by
    rcases second.search location isSearch with inSearch | isThere
    · exact first.search location inSearch
    · exact .inr (first.places location ▸ isThere)
  sent := by
    obtain ⟨firstSent, isFirst, placed⟩ := first.sent
    obtain ⟨secondSent, isSecond, laterPlaced⟩ := second.sent
    refine ⟨firstSent ++ secondSent, by rw [isSecond, isFirst, List.append_assoc], ?_⟩
    intro command isIn
    rcases List.mem_append.mp isIn with isBefore | isLater
    · exact placed command isBefore
    · have later := laterPlaced command isLater
      cases command with
      | list location path =>
        obtain ⟨named, isThere | inSearch⟩ := later
        · exact ⟨named, .inl (first.places location ▸ isThere)⟩
        · exact ⟨named, (first.search location inSearch).symm⟩
      | _ => trivial

theorem thenSend (first : KeepsFolders before after) {command : AppCommand}
    (placed : command.Placed before) : KeepsFolders before (after.send command) where
  places location := by
    rw [← first.places location]
    cases location <;> rfl
  search location isSearch := first.search location isSearch
  sent := by
    obtain ⟨commands, isSent, allPlaced⟩ := first.sent
    refine ⟨commands ++ [command], ?_, ?_⟩
    · rw [App.send, isSent, List.append_assoc]
    · intro sent isIn
      rcases List.mem_append.mp isIn with isBefore | isLast
      · exact allPlaced sent isBefore
      · rw [List.mem_singleton.mp isLast]
        exact placed

theorem send {command : AppCommand} (placed : command.Placed app) :
    KeepsFolders app (app.send command) :=
  (refl app).thenSend placed

theorem openDialog (app : App) (dialog : Dialog) (pending : PendingAction) :
    KeepsFolders app (app.openDialog dialog pending) :=
  .of_eq rfl rfl rfl rfl

theorem closeDialog (app : App) : KeepsFolders app app.closeDialog := .of_eq rfl rfl rfl rfl

theorem setScreen (app : App) (screen : Screen) : KeepsFolders app (app.setScreen screen) :=
  .of_eq rfl rfl rfl rfl

theorem setSessions {sessions : Sessions} (same : sessions.places = app.sessions.places) :
    KeepsFolders app (app.setSessions sessions) :=
  .of_eq rfl same rfl rfl

theorem modifyPanelView (app : App) {change : PanelView → PanelView}
    (keeps : ∀ panel, (change panel).path = panel.path) :
    KeepsFolders app (app.modifyPanelView change) := by
  unfold App.modifyPanelView
  split
  · constructor
    · intro location
      cases location with
      | «local» => exact congrArg some (keeps _)
      | session id => rfl
    · exact fun location isSearch => .inl isSearch
    · exact ⟨[], (List.append_nil _).symm, nofun⟩
  · apply setSessions
    apply Sessions.places_modifyActive
    intro session
    exact congrArg (Prod.mk session.id) (keeps session.panel)

end KeepsFolders

variable (setup : Setup) (elsewhere : Elsewhere) (app : App)

theorem isSome_place_of_active {app : App} {location : Location}
    (isActive : app.activeLocation = some location) : (app.place location).isSome = true := by
  unfold activeLocation at isActive
  split at isActive
  · cases isActive
    rfl
  · obtain ⟨id, isId, rfl⟩ := Option.map_eq_some_iff.mp isActive
    rw [place_session]
    exact Sessions.isSome_placeOf_of_activeId isId

/-! ### Prompts and questions -/

theorem keeps_openNextConflictPrompt : KeepsFolders app app.openNextConflictPrompt := by
  unfold openNextConflictPrompt
  repeat' split
  all_goals exact .of_eq rfl rfl rfl rfl

theorem keeps_answerConflict (resolution : Option Resolution) (applyToRest : Bool) :
    KeepsFolders app (app.answerConflict resolution applyToRest) := by
  unfold answerConflict
  split
  · exact .refl app
  · have popped (prompts : List ConflictPrompt) :
        KeepsFolders app (app.setConflictPrompts prompts) := .of_eq rfl rfl rfl rfl
    dsimp only
    split
    · exact ((popped _).thenSend (by trivial)).trans (keeps_openNextConflictPrompt _)
    · split
      · exact popped _
      · split
        · exact ((popped _).thenSend (by trivial)).trans (keeps_openNextConflictPrompt _)
        · exact (popped _).trans (keeps_openNextConflictPrompt _)

theorem keeps_openNextEditQuestion : KeepsFolders app app.openNextEditQuestion := by
  unfold openNextEditQuestion
  repeat' split
  all_goals exact .of_eq rfl rfl rfl rfl

theorem keeps_afterDialogKey : KeepsFolders app app.afterDialogKey := by
  have closed (question : Option EditPrompt) :
      KeepsFolders app { app with openEditQuestion := question } := .of_eq rfl rfl rfl rfl
  exact (closed _).trans (keeps_openNextEditQuestion _)

theorem keeps_announceMissingHosts : KeepsFolders app app.announceMissingHosts := by
  unfold announceMissingHosts
  dsimp only
  split_ifs
  all_goals exact .of_eq rfl rfl rfl rfl

/-! ### Actions -/

theorem keeps_applyPanelAction (action : Action) :
    KeepsFolders app (app.applyPanelAction setup action) := by
  unfold applyPanelAction
  split
  case h_2 => exact .refl app
  case h_1 location panel isActive _ =>
    have asks (path : Path) : KeepsFolders app (app.send (.list location (some path))) :=
      .send ⟨rfl, .inl (isSome_place_of_active isActive)⟩
    dsimp only
    split
    · exact .modifyPanelView app fun panel => panel.path_moveCursor false
    · exact .modifyPanelView app fun panel => panel.path_moveCursor true
    · exact .modifyPanelView app PanelView.path_toggleSelection
    · exact .modifyPanelView app (PanelView.path_toggleHidden setup.lower)
    · exact .modifyPanelView app (PanelView.path_cycleSort setup.lower)
    · split
      · exact asks _
      · exact .refl app
    · exact asks _
    · exact .refl app

theorem keeps_connectToSelected : KeepsFolders app (app.connectToSelected elsewhere) := by
  unfold connectToSelected
  split
  · split
    · exact .setSessions (Sessions.places_activate _ _)
    · exact .send trivial
  · exact .refl app

theorem keeps_openConnectionsScreen : KeepsFolders app app.openConnectionsScreen :=
  (KeepsFolders.setScreen app _).thenSend (by trivial)

theorem keeps_applyConnectionsAction (action : Action) :
    KeepsFolders app (app.applyConnectionsAction elsewhere action) := by
  unfold applyConnectionsAction
  split
  · split
    · split_ifs
      · exact .openDialog app _ _
      · exact keeps_connectToSelected elsewhere app
    · exact .refl app
  · exact keeps_openConnectionsScreen app
  · exact .refl app

theorem keeps_runSyncPlan : KeepsFolders app (app.runSyncPlan elsewhere) := by
  unfold runSyncPlan
  split
  · exact .refl app
  · split_ifs
    · exact .refl app
    · have cleared : KeepsFolders app { app with syncId := none } := .of_eq rfl rfl rfl rfl
      exact (cleared.thenSend (by trivial)).trans (.setScreen _ _)

theorem keeps_leaveSyncScreen : KeepsFolders app app.leaveSyncScreen := by
  have cleared (app : App) : KeepsFolders app { app with syncId := none, screen := .files } :=
    .of_eq rfl rfl rfl rfl
  unfold leaveSyncScreen
  split
  · exact (KeepsFolders.send (by trivial)).trans (cleared _)
  · exact cleared app

theorem keeps_applyScreenAction (action : Action) :
    KeepsFolders app (app.applyScreenAction setup elsewhere action) := by
  unfold applyScreenAction
  split
  · exact keeps_applyPanelAction setup app action
  · exact keeps_applyConnectionsAction elsewhere app action
  · exact .refl app
  · unfold applyTransfersAction
    split
    · exact .send trivial
    · exact .send trivial
    · exact .refl app
  · unfold applyHistoryAction
    split
    · exact .of_eq rfl rfl rfl rfl
    · exact .refl app
  · unfold applySyncAction
    split
    · exact keeps_runSyncPlan elsewhere app
    · exact .refl app

theorem keeps_startCopy : KeepsFolders app app.startCopy := by
  unfold startCopy
  split_ifs
  · exact .refl app
  · cases app.sessions.active with
    | none => exact .refl app
    | some session =>
      dsimp only
      split_ifs
      · exact .refl app
      · cases app.activePanel with
        | «local» => exact .send trivial
        | remote => exact .send trivial

theorem keeps_startEdit : KeepsFolders app app.startEdit := by
  unfold startEdit
  repeat' split
  all_goals first | exact .send trivial | exact .refl app

theorem keeps_openSearchScreen : KeepsFolders app app.openSearchScreen := by
  unfold openSearchScreen
  split_ifs
  · exact .refl app
  · split
    · exact .refl app
    · rename_i location isActive
      constructor
      · intro location
        cases location <;> rfl
      · intro other isSearch
        cases isSearch
        exact .inr (isSome_place_of_active isActive)
      · exact ⟨[], (List.append_nil _).symm, nofun⟩

theorem keeps_editFilter {change : PanelView → PanelView}
    (keeps : ∀ panel, (change panel).path = panel.path) :
    KeepsFolders app (app.editFilter change) := by
  unfold editFilter
  split_ifs
  · exact .modifyPanelView app keeps
  · exact .refl app

theorem keeps_handleBack : KeepsFolders app (app.handleBack setup elsewhere) := by
  unfold handleBack
  split_ifs
  · exact keeps_editFilter app fun panel => rfl
  · exact .refl app
  · exact keeps_leaveSyncScreen app
  · exact .setScreen app _

theorem keeps_applyAction (action : Action) :
    KeepsFolders app (app.applyAction setup elsewhere action) := by
  have unchanged {after : App} (localPanel : after.localPanel = app.localPanel)
      (sessions : after.sessions = app.sessions) (search : after.search = app.search)
      (sent : after.sent = app.sent) : KeepsFolders app after :=
    .of_eq localPanel (congrArg Sessions.places sessions) search sent
  cases action
  case quit =>
    unfold applyAction requestQuit
    dsimp only
    split_ifs <;> exact unchanged rfl rfl rfl rfl
  case switchPanel => exact unchanged rfl rfl rfl rfl
  case mkdir =>
    unfold applyAction openMkdirDialog
    dsimp only
    split_ifs <;> exact unchanged rfl rfl rfl rfl
  case rename =>
    unfold applyAction openEditConnectionDialog openRenameDialog
    dsimp only
    repeat' split
    all_goals exact unchanged rfl rfl rfl rfl
  case delete =>
    unfold applyAction disconnectSelected openClearHistoryDialog openDeleteDialog
    dsimp only
    repeat' split
    all_goals first | exact unchanged rfl rfl rfl rfl | exact .send trivial
  case copy => exact keeps_startCopy app
  case edit => exact keeps_startEdit app
  case cancelTransfer => exact .send trivial
  case openConnections => exact keeps_openConnectionsScreen app
  case addConnection =>
    unfold applyAction openAddConnectionDialog
    dsimp only
    split_ifs <;> exact unchanged rfl rfl rfl rfl
  case deleteConnection =>
    unfold applyAction openDeleteConnectionDialog
    dsimp only
    repeat' split
    all_goals exact unchanged rfl rfl rfl rfl
  case bookmarkHere =>
    unfold applyAction openBookmarkAddDialog
    dsimp only
    split_ifs <;> exact unchanged rfl rfl rfl rfl
  case openBookmarks =>
    unfold applyAction openBookmarksDialog
    dsimp only
    split_ifs <;> exact unchanged rfl rfl rfl rfl
  case openSearch => exact keeps_openSearchScreen app
  case filter => exact keeps_editFilter app fun panel => rfl
  case openTransfers => exact .setScreen app _
  case openHistory => exact (KeepsFolders.setScreen app _).thenSend (by trivial)
  case openSync =>
    unfold applyAction openSync
    dsimp only
    repeat' split
    all_goals exact unchanged rfl rfl rfl rfl
  case cycleSession =>
    unfold applyAction
    dsimp only
    split_ifs
    · exact .setSessions (Sessions.places_cycle _)
    · exact .refl app
  case help => exact unchanged rfl rfl rfl rfl
  case back => exact keeps_handleBack setup elsewhere app
  case openTerminal =>
    unfold applyAction requestShell
    dsimp only
    repeat' split
    all_goals first | exact .send trivial | exact .refl app
  case noop => exact .refl app
  all_goals exact keeps_applyScreenAction setup elsewhere app _

theorem keeps_applyFilterKey (key : KeyEvent) :
    KeepsFolders app (app.applyFilterKey setup elsewhere key) := by
  have edited {change : PanelView → PanelView} (keeps : ∀ panel, (change panel).path = panel.path) :
      KeepsFolders app (app.editFilter change) := keeps_editFilter app keeps
  have finished : KeepsFolders app ((app.editFilter PanelView.finishFilter).applyAction setup
      elsewhere (setup.mapKey key)) := by
    have filtered : KeepsFolders app (app.editFilter PanelView.finishFilter) :=
      edited fun panel => rfl
    exact filtered.trans (keeps_applyAction setup elsewhere
      (app.editFilter PanelView.finishFilter) (setup.mapKey key))
  unfold applyFilterKey
  cases key.code with
  | char character =>
    dsimp only
    split_ifs
    · exact finished
    · exact edited fun panel => rfl
  | backspace => exact edited fun panel => rfl
  | enter => exact edited fun panel => rfl
  | esc => exact edited fun panel => rfl
  | up => exact edited fun panel => panel.path_moveCursor false
  | down => exact edited fun panel => panel.path_moveCursor true
  | _ => exact finished

/-! ### The search -/

theorem keeps_leaveSearch : KeepsFolders app app.leaveSearch := by
  have left : KeepsFolders app { app with search := none } := by
    constructor
    · intro location
      cases location <;> rfl
    · nofun
    · exact ⟨[], (List.append_nil _).symm, nofun⟩
  exact ((left.thenSend (by trivial)).trans (.setScreen _ _)).trans (keeps_openNextConflictPrompt _)

theorem keeps_openSearchResult {app : App} {location : Location}
    (isSearch : app.search = some location) (entry : Entry) :
    KeepsFolders app (app.openSearchResult location entry) := by
  have placed : AppCommand.Placed app
      (.list location (some (entry.path.parent.getD entry.path))) := ⟨rfl, .inr isSearch⟩
  have left := keeps_leaveSearch app
  cases location with
  | «local» =>
    have moved : KeepsFolders app.leaveSearch { app.leaveSearch with activePanel := .local } :=
      .of_eq rfl rfl rfl rfl
    exact (left.trans moved).thenSend placed
  | session id =>
    have moved : KeepsFolders app.leaveSearch { app.leaveSearch with
        sessions := (app.leaveSearch.sessions.activate id).getD app.leaveSearch.sessions
        activePanel := .remote } := .of_eq rfl (Sessions.places_activate _ _) rfl rfl
    exact (left.trans moved).thenSend placed

theorem keeps_applySearchKey (key : KeyEvent) :
    KeepsFolders app (app.applySearchKey elsewhere key) := by
  unfold applySearchKey
  split
  · exact .refl app
  · rename_i location isSearch
    split_ifs
    · exact .send trivial
    · split
      · exact .refl app
      · exact .send trivial
      · exact keeps_openSearchResult isSearch _
      · exact .refl app
      · exact keeps_leaveSearch app

/-! ### Dialogs -/

theorem keeps_navigateToBookmark (index : Nat) :
    KeepsFolders app (app.navigateToBookmark index) := by
  unfold navigateToBookmark
  split
  · exact .refl app
  · split
    · have moved : KeepsFolders app { app with activePanel := .local } := .of_eq rfl rfl rfl rfl
      exact moved.thenSend ⟨rfl, .inl rfl⟩
    · split
      · exact .refl app
      · rename_i session found
        have moved : KeepsFolders app { app with
            sessions := (app.sessions.activate session.id).getD app.sessions
            activePanel := .remote } := .of_eq rfl (Sessions.places_activate _ _) rfl rfl
        refine moved.thenSend ⟨rfl, .inl ?_⟩
        rw [place_session]
        exact Sessions.isSome_placeOf_of_byName found

theorem keeps_cancelPending (pending : Option PendingAction) :
    KeepsFolders app (app.cancelPending pending) := by
  unfold cancelPending
  split
  all_goals first | exact .send trivial | exact .refl app

theorem keeps_confirmPending (pending : Option PendingAction) :
    KeepsFolders app (app.confirmPending pending) := by
  unfold confirmPending deleteTargets
  repeat' split
  all_goals first | exact .send trivial | exact .of_eq rfl rfl rfl rfl

theorem keeps_submitPending (value : String) (pending : Option PendingAction) :
    KeepsFolders app (app.submitPending value pending) := by
  unfold submitPending createDirectory renameCurrent addBookmark
  repeat' split
  all_goals first | exact .send trivial | exact .refl app

theorem keeps_selectPending (index : Nat) (pending : Option PendingAction) :
    KeepsFolders app (app.selectPending index pending) := by
  have closed : KeepsFolders app { app with dialog := none } := .of_eq rfl rfl rfl rfl
  unfold selectPending
  split
  · unfold applyMissingHostChoice
    dsimp only
    repeat' split
    all_goals first | exact closed.thenSend (by trivial) | exact .of_eq rfl rfl rfl rfl
  · exact .send trivial
  · unfold moveLabelsTo
    dsimp only
    split
    · exact closed.thenSend (by trivial)
    · exact closed
  · have kept : KeepsFolders app { app with pendingAction := pending } := .of_eq rfl rfl rfl rfl
    exact kept.trans (keeps_navigateToBookmark _ index)

theorem keeps_submitForm (values : List (String × String)) :
    KeepsFolders app (app.submitForm values) := by
  unfold submitForm
  split
  · exact .send trivial
  · exact .send trivial
  · unfold submitSshLabels
    dsimp only
    split_ifs
    · exact (KeepsFolders.send (by trivial)).thenSend (by trivial)
    · exact .send trivial
  · have told (save : Bool) : KeepsFolders app
        (App.send { app with saveChoice := save } (.rememberSaveChoice save)) := by
      have chosen : KeepsFolders app { app with saveChoice := save } := .of_eq rfl rfl rfl rfl
      exact chosen.thenSend trivial
    unfold submitPassword
    dsimp only
    split_ifs
    · exact ((told _).thenSend (by trivial)).trans (.closeDialog _)
    · exact (KeepsFolders.send (by trivial)).trans (.closeDialog _)
  · unfold submitSyncOptions
    split
    · exact .refl app
    · dsimp only
      split
      · exact .closeDialog app
      · exact (KeepsFolders.closeDialog app).thenSend (by trivial)
  · exact .of_eq rfl rfl rfl rfl

theorem keeps_applyOutcome (outcome : DialogOutcome) :
    KeepsFolders app (app.applyOutcome outcome) := by
  have closed := KeepsFolders.closeDialog app
  cases outcome with
  | pending => exact .refl app
  | formChoiceChanged => exact .refl app
  | cancelled => exact closed.trans (keeps_cancelPending _ _)
  | confirmed => exact closed.trans (keeps_confirmPending _ _)
  | submitted value => exact closed.trans (keeps_submitPending _ value _)
  | selected index => exact closed.trans (keeps_selectPending _ index _)
  | removed index => exact (KeepsFolders.send (by trivial)).trans (.of_eq rfl rfl rfl rfl)
  | formSubmitted values => exact keeps_submitForm app values
  | resolved resolution applyToRest => exact closed.trans (keeps_answerConflict _ _ _)

theorem keeps_applyDialogKey (dialog : Dialog) (key : KeyEvent) :
    KeepsFolders app (app.applyDialogKey elsewhere dialog key) := by
  have handled : KeepsFolders app { app with dialog := some (dialog.handleKey key) } :=
    .of_eq rfl rfl rfl rfl
  exact ((handled.trans (keeps_applyOutcome _ _)).trans (keeps_openNextConflictPrompt _)).trans
    (keeps_announceMissingHosts _)

theorem keeps_applyKey (key : KeyEvent) : KeepsFolders app (app.applyKey setup elsewhere key) := by
  unfold applyKey
  split
  · exact .of_eq rfl rfl rfl rfl
  · split
    · exact (keeps_applyDialogKey elsewhere app _ key).trans (keeps_afterDialogKey _)
    · split_ifs
      · exact keeps_applySearchKey elsewhere app key
      · exact keeps_applyFilterKey setup elsewhere app key
      · exact keeps_applyAction setup elsewhere app _

end App

/-! ### What events do to the folders shown -/

namespace Sessions

theorem find?_modify {α : Type} {p : α → Bool} {change : α → α}
    (keeps : ∀ item, p (change item) = p item) (items : List α) {index : Nat}
    (found : items.findIdx? p = some index) :
    (items.modify index change).find? p = (items.find? p).map change := by
  induction items generalizing index with
  | nil => cases found
  | cons item items ih =>
    rw [List.findIdx?_cons] at found
    cases isItem : p item with
    | true =>
      rw [isItem, if_pos rfl, Option.some.injEq] at found
      subst found
      simp [keeps, isItem]
    | false =>
      rw [isItem, if_neg Bool.false_ne_true] at found
      obtain ⟨rest, isRest, rfl⟩ := Option.map_eq_some_iff.mp found
      simp [isItem, ih isRest]

theorem find?_modify_other {α : Type} {p q : α → Bool} {change : α → α}
    (keeps : ∀ item, p (change item) = p item) (apart : ∀ item, p item = true → q item = false)
    (items : List α) {index : Nat} (found : items.findIdx? p = some index) :
    (items.modify index change).find? q = items.find? q := by
  induction items generalizing index with
  | nil => cases found
  | cons item items ih =>
    rw [List.findIdx?_cons] at found
    cases isItem : p item with
    | true =>
      rw [isItem, if_pos rfl, Option.some.injEq] at found
      subst found
      simp [apart item isItem, apart (change item) ((keeps item).trans isItem)]
    | false =>
      rw [isItem, if_neg Bool.false_ne_true] at found
      obtain ⟨rest, isRest, rfl⟩ := Option.map_eq_some_iff.mp found
      simp [List.find?_cons, ih isRest]

theorem find?_eraseIdx_other {α : Type} {p q : α → Bool}
    (apart : ∀ item, p item = true → q item = false) (items : List α) {index : Nat}
    (found : items.findIdx? p = some index) :
    (items.eraseIdx index).find? q = items.find? q := by
  induction items generalizing index with
  | nil => cases found
  | cons item items ih =>
    rw [List.findIdx?_cons] at found
    cases isItem : p item with
    | true =>
      rw [isItem, if_pos rfl, Option.some.injEq] at found
      subst found
      simp [apart item isItem]
    | false =>
      rw [isItem, if_neg Bool.false_ne_true] at found
      obtain ⟨rest, isRest, rfl⟩ := Option.map_eq_some_iff.mp found
      simp [List.find?_cons, ih isRest]

theorem apart_of_ne {id other : Nat} (differs : id ≠ other) (session : Session)
    (isId : decide (session.id = id) = true) : decide (session.id = other) = false := by
  rw [decide_eq_true_eq] at isId
  rw [isId]
  exact decide_eq_false differs

/-- A change of a session that is shown for a listing. -/
theorem placeOf_modify {change : Session → Session} {path : Path}
    (keeps : ∀ session, (change session).id = session.id)
    (shows : ∀ session, (change session).panel.path = path) (sessions : Sessions) (id other : Nat) :
    (sessions.modify id change).placeOf other =
      if id = other then (sessions.placeOf id).map fun _ => path else sessions.placeOf other := by
  have same (session : Session) :
      decide ((change session).id = id) = decide (session.id = id) := by rw [keeps]
  unfold modify position
  split
  · rename_i isNone
    have gone : sessions.byId id = none := by
      rw [byId, List.find?_eq_none]
      intro session isIn isId
      exact absurd isId (by simpa using List.findIdx?_eq_none_iff.mp isNone session isIn)
    split_ifs with isOther
    · rw [← isOther, placeOf, gone]
      rfl
    · rfl
  · rename_i index found
    split_ifs with isOther
    · rw [← isOther, placeOf, byId, find?_modify same _ found, placeOf, byId, Option.map_map,
        Option.map_map]
      exact Option.map_congr fun session _ => shows session
    · rw [placeOf, byId, find?_modify_other same (apart_of_ne isOther) _ found]
      rfl

theorem placeOf_remove {id other : Nat} (differs : id ≠ other) (sessions : Sessions) :
    (sessions.remove id).placeOf other = sessions.placeOf other := by
  unfold remove position
  split
  · rfl
  · rename_i index found
    rw [placeOf, byId, find?_eraseIdx_other (apart_of_ne differs) _ found]
    rfl

theorem placeOf_insert {sessions : Sessions} {other : Nat}
    (isThere : (sessions.placeOf other).isSome = true) (id : Nat) (name : String)
    (shellAvailable : Bool) (panel : PanelView) :
    (sessions.insert id name shellAvailable panel).placeOf other = sessions.placeOf other := by
  rw [placeOf, Option.isSome_map] at isThere
  rw [placeOf, byId, insert, List.find?_append]
  obtain ⟨session, isSession⟩ := Option.isSome_iff_exists.mp isThere
  rw [byId] at isSession
  rw [isSession, placeOf, byId, isSession]
  rfl

theorem placeOf_activate {before after : Sessions} {id : Nat}
    (activated : before.activate id = some after) (other : Nat) :
    after.placeOf other = before.placeOf other := by
  obtain ⟨index, _, rfl⟩ := Option.map_eq_some_iff.mp activated
  rfl

end Sessions

namespace App

variable (setup : Setup) (app : App)

theorem place_applyListing (location other : Location) (path : Path) (entries : List Entry) :
    (app.applyListing setup location path entries).place other =
      if location = other then (app.place location).map fun _ => path else app.place other := by
  cases location with
  | «local» =>
    cases other with
    | «local» => rfl
    | session id => rfl
  | session id =>
    cases other with
    | «local» => rfl
    | session other =>
      rw [applyListing, place_session]
      simp only [setSessions, Location.session.injEq, place_session]
      apply Sessions.placeOf_modify
      · exact fun _ => rfl
      · exact fun _ => rfl

theorem place_applyConnected {location : Location} (isThere : (app.place location).isSome = true)
    (session : Nat) (name : String) (shellAvailable : Bool) :
    (app.applyConnected setup session name shellAvailable).place location = app.place location := by
  cases location with
  | «local» =>
    unfold applyConnected
    split <;> rfl
  | session id =>
    rw [place_session] at isThere
    rw [place_session, place_session]
    unfold applyConnected
    split
    · rename_i activated
      exact Sessions.placeOf_activate activated id
    · exact Sessions.placeOf_insert isThere _ _ _ _

/-- A location that is there afterwards was there before or is the session's. -/
theorem place_connected {location : Location} {session : Nat} {name : String}
    {shellAvailable : Bool}
    (isThere : ((app.applyConnected setup session name shellAvailable).place location).isSome =
      true) : (app.place location).isSome = true ∨ location = .session session := by
  cases location with
  | «local» => exact .inl rfl
  | session id =>
    rw [place_session] at isThere ⊢
    unfold applyConnected at isThere
    split at isThere
    · rename_i activated
      exact .inl (Sessions.placeOf_activate activated id ▸ isThere)
    · rw [setSessions, Sessions.placeOf, Option.isSome_map, Sessions.byId, Sessions.insert,
        List.find?_append] at isThere
      rw [Sessions.placeOf, Option.isSome_map, Sessions.byId]
      cases found : app.sessions.items.find? fun known => decide (known.id = id) with
      | some known => exact .inl rfl
      | none =>
        rw [found, Option.none_or] at isThere
        by_cases isId : session = id
        · exact .inr (congrArg Location.session isId.symm)
        · simp [isId] at isThere

theorem place_disconnected {location : Location} {session : Nat}
    (differs : location ≠ .session session) :
    (app.setSessions (app.sessions.remove session)).place location = app.place location := by
  cases location with
  | «local» => rfl
  | session id =>
    rw [place_session, place_session]
    exact Sessions.placeOf_remove (fun same => differs (congrArg Location.session same.symm)) _

theorem keeps_relist (location : Location) : KeepsFolders app (app.relist location) := by
  unfold relist
  split
  · exact .send ⟨rfl, .inl rfl⟩
  · split
    · rename_i id _ session found
      have isThere : (app.place (.session id)).isSome = true := by
        rw [place_session, Sessions.placeOf, found]
        rfl
      exact .send ⟨rfl, .inl isThere⟩
    · exact .refl app

theorem keeps_ask (requestId : Nat) (question : Question) :
    KeepsFolders app (app.ask requestId question) := by
  have requeued : KeepsFolders app app.requeueOpenEditQuestion := .of_eq rfl rfl rfl rfl
  unfold ask
  cases question <;> exact requeued.trans (.openDialog _ _ _)

theorem keeps_dropConflictPrompts (batchIds : List Nat) :
    KeepsFolders app (app.dropConflictPrompts batchIds) := by
  unfold dropConflictPrompts
  dsimp only
  split_ifs
  · have dropped (prompts : List ConflictPrompt) :
        KeepsFolders app (app.setConflictPrompts prompts).closeDialog := .of_eq rfl rfl rfl rfl
    exact (dropped _).trans (keeps_openNextConflictPrompt _)
  · have dropped (prompts : List ConflictPrompt) :
        KeepsFolders app (app.setConflictPrompts prompts) := .of_eq rfl rfl rfl rfl
    exact (dropped _).trans (keeps_openNextConflictPrompt _)

theorem keeps_applySyncPlan (syncId : Nat) : KeepsFolders app (app.applySyncPlan syncId) := by
  unfold applySyncPlan
  split
  · split_ifs
    · exact .refl app
    · exact .send trivial
  · dsimp only
    split_ifs
    all_goals exact .of_eq rfl rfl rfl rfl

theorem keeps_withdrawSync (syncIds : List Nat) : KeepsFolders app (app.withdrawSync syncIds) := by
  unfold withdrawSync
  split_ifs
  · dsimp only
    split_ifs
    all_goals exact .of_eq rfl rfl rfl rfl
  · exact .refl app

/-- Sessions come and go and listings arrive; all other events leave the folders as they are. -/
theorem keeps_applyCoreEvent {told : CoreEvent}
    (isOther : (∀ session name shellAvailable, told ≠ .connected session name shellAvailable) ∧
      (∀ session, told ≠ .disconnected session) ∧
      ∀ location path entries, told ≠ .listed location path entries) :
    KeepsFolders app (app.applyCoreEvent setup told) := by
  cases told
  case connected session name shellAvailable => exact absurd rfl (isOther.1 _ _ _)
  case disconnected session => exact absurd rfl (isOther.2.1 _)
  case listed location path entries => exact absurd rfl (isOther.2.2 _ _ _)
  case question requestId question => exact keeps_ask app requestId question
  case locationChanged location => exact keeps_relist app location
  case profiles entries =>
    have replaced : KeepsFolders app { app with connections := entries } := .of_eq rfl rfl rfl rfl
    exact replaced.trans (keeps_announceMissingHosts _)
  case profileSaved => exact .closeDialog app
  case conflictsFound batchId files =>
    have queued (prompts : List ConflictPrompt) :
        KeepsFolders app (app.setConflictPrompts prompts) := .of_eq rfl rfl rfl rfl
    exact (queued _).trans (keeps_openNextConflictPrompt _)
  case conflictsWithdrawn batchIds => exact keeps_dropConflictPrompts app batchIds
  case editQuestion editId name kind =>
    have queued (prompts : List EditPrompt) :
        KeepsFolders app { app with editQuestions := prompts } := .of_eq rfl rfl rfl rfl
    exact (queued _).trans (keeps_openNextEditQuestion _)
  case sessionCapabilities session preservesTimes =>
    apply KeepsFolders.setSessions
    unfold Sessions.setPreservesTimes Sessions.modify
    split
    · rfl
    · apply Sessions.map_modify
      exact fun _ => rfl
  case syncPlanReady syncId => exact keeps_applySyncPlan app syncId
  case syncWithdrawn syncIds => exact keeps_withdrawSync app syncIds
  all_goals exact .of_eq rfl rfl rfl rfl

end App

end Porthmos
