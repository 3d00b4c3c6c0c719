import Porthmos.Dialogs
import Porthmos.EditSessions
import Porthmos.PanelView

/-!
# The screen

The screen is one state that keys and the events of the core change.  A dialog has a pending
action that says what to do when it is confirmed.  Questions about edits and conflicts that
cannot be shown at once wait in queues.

The connection list, the history, the transfers, the preview of a sync and the search are not
modelled: what they make of a key is given with the key.  Nor are notifications, but for
whether an error is shown.
-/

namespace Porthmos

/-! ### What the screen shows -/

structure Bookmark where
  label : String
  path : Path
  host : Option String
  deriving DecidableEq, Repr

/-- The row of a bookmark in the list. -/
def Bookmark.row (bookmark : Bookmark) : String :=
  let place := bookmark.label ++ " \u2014 " ++ bookmark.path.text
  match bookmark.host with
  | some host => place ++ " [" ++ host ++ "]"
  | none => place

inductive ConnectionSource
  | profile
  | sshConfig
  | missingSshHost
  | shadowedSshHost
  deriving DecidableEq, Repr

def ConnectionSource.isOrphanLabels : ConnectionSource → Bool
  | .missingSshHost | .shadowedSshHost => true
  | _ => false

structure ConnectionEntry where
  name : String
  protocol : String
  host : String
  port : Nat
  username : String
  password : Option String
  options : List (String × String)
  group : Option String
  tags : List String
  savedPassword : Bool
  inKeyring : List String
  source : ConnectionSource
  deriving DecidableEq, Repr

inductive Question
  | password (username name : String)
  | trustHostKey (name host : String) (port : Nat) (keyType fingerprint : String)
  | trustCertificate (name host : String) (port : Nat) (fingerprint subject expires : String)
  deriving DecidableEq, Repr

inductive Answer
  | password (secret : String)
  | confirmed
  deriving DecidableEq, Repr

inductive Screen
  | files
  | connections
  | search
  | transfers
  | history
  | sync
  deriving DecidableEq, Repr

inductive PendingAction
  | mkdir
  | rename
  | delete
  | addBookmark
  | submitPassword (requestId : Nat)
  | trustHostKey (requestId : Nat)
  | trustCertificate (requestId : Nat)
  | addConnection
  | editConnection (original : ConnectionEntry)
  | deleteConnection (name : String)
  | editSshLabels (name : String)
  | fixMissingHost (name : String)
  | moveLabels (source : String) (candidates : List String)
  | resolveConflict
  | clearHistory
  | editUpload (editId : Nat)
  | editConflict (editId : Nat)
  | quitWhileSaving
  | startSync (session : Nat)
  deriving DecidableEq, Repr

structure ConflictPrompt where
  batchId : Nat
  files : List ConflictInfo
  answers : List (Option Resolution)
  deriving DecidableEq, Repr

namespace ConflictPrompt

def new (batchId : Nat) (files : List ConflictInfo) : ConflictPrompt :=
  ⟨batchId, files, List.replicate files.length none⟩

/-- The file that is asked for next. -/
def current (prompt : ConflictPrompt) : Option Nat := prompt.answers.findIdx? Option.isNone

/-- The dialog for a file. -/
def dialogAt (prompt : ConflictPrompt) (index : Nat) (file : ConflictInfo) : ConflictDialog where
  fileName := file.displayName
  existing := file.existing
  partialFile := file.partialFile
  newSize := file.newSize
  newModified := file.newModified
  index := index
  total := prompt.files.length
  applyToRest := false

def dialog (prompt : ConflictPrompt) : Option ConflictDialog :=
  prompt.current.bind fun index => (prompt.files[index]?).map (prompt.dialogAt index)

/-- Whether the answer of a file suits another file of the prompt. -/
def suits (prompt : ConflictPrompt) (resolution : Resolution) (answered later : Nat) : Bool :=
  (prompt.files[answered]?).any fun answered =>
    (prompt.files[later]?).any fun later => fitsTheRest resolution answered later

/-- The answer of a file, and of those after it that have none yet. -/
def answerAt (prompt : ConflictPrompt) (current : Nat) (resolution : Resolution)
    (applyToRest : Bool) : ConflictPrompt :=
  { prompt with
    answers := prompt.answers.mapIdx fun index given =>
      if index = current then some resolution
      else if applyToRest && decide (current < index) && given.isNone &&
          prompt.suits resolution current index then some resolution
      else given }

/-- The answers, once every file has one. -/
def complete (prompt : ConflictPrompt) : Option (List Resolution) := prompt.answers.mapM id

end ConflictPrompt

structure EditPrompt where
  editId : Nat
  name : String
  kind : EditQuestionKind
  deriving DecidableEq, Repr

/-- The control characters and those that change the direction of the text. -/
def isUnprintable (char : Char) : Bool :=
  decide (char.toNat < 0x20 ∨ (0x7f ≤ char.toNat ∧ char.toNat < 0xa0) ∨
    (0x202a ≤ char.toNat ∧ char.toNat ≤ 0x202e) ∨ (0x2066 ≤ char.toNat ∧ char.toNat ≤ 0x2069) ∨
    char.toNat = 0x200e ∨ char.toNat = 0x200f ∨ char.toNat = 0x61c)

def printable (text : String) : String :=
  String.ofList (text.toList.map fun char => if isUnprintable char then '?' else char)

/-! ### Commands and events -/

/-- What the screen sends to the core.  `other` is a command whose data is not modelled. -/
inductive AppCommand
  | list (location : Location) (path : Option Path)
  | createDir (location : Location) (path : Path)
  | rename (location : Location) (source target : Path)
  | delete (location : Location) (paths : List Path)
  | copy (source : Location) (entries : List Entry) (target : Location) (destDir : Path)
  | editFile (location : Location) (path : Path)
  | addBookmark (label : String) (location : Location) (path : Path)
  | removeBookmark (index : Nat)
  | answer (requestId : Nat) (answer : Option Answer) (save : Bool)
  | resolveEdit (editId : Nat) (choice : EditChoice)
  | resolveConflicts (batchId : Nat) (answers : Option (List Resolution))
  | rememberSaveChoice (save : Bool)
  | connect (profile : String)
  | disconnect (session : Nat)
  | saveProfile (original : Option String) (values : List (String × String))
  | deleteProfile (name : String)
  | saveSshLabels (name group tags : String)
  | moveSshLabels (source target : String)
  | forgetSshLabels (name : String)
  | forgetSshPassword (host : String)
  | clearHistory
  | startSync (session : Nat) (localDir remoteDir : Path) (options : SyncOptions)
  | runSync (syncId : Nat) (choices : List (Nat × SyncAction))
  | cancelSync (syncId : Nat)
  | other
  deriving DecidableEq, Repr

/-- What the core tells the screen.  `other` is an event that touches nothing modelled. -/
inductive CoreEvent
  | connected (session : Nat) (name : String) (shellAvailable : Bool)
  | question (requestId : Nat) (question : Question)
  | disconnected (session : Nat)
  | listed (location : Location) (path : Path) (entries : List Entry)
  | locationChanged (location : Location)
  | profiles (entries : List ConnectionEntry)
  | profileSaved
  | bookmarks (bookmarks : List Bookmark)
  | conflictsFound (batchId : Nat) (files : List ConflictInfo)
  | conflictsWithdrawn (batchIds : List Nat)
  | keyringStatus (available : Bool)
  | saveChoice (save : Bool)
  | editsBusy (busy : Bool)
  | editQuestion (editId : Nat) (name : String) (kind : EditQuestionKind)
  | sessionCapabilities (session : Nat) (preservesTimes : Bool)
  | syncPlanReady (syncId : Nat)
  | syncWithdrawn (syncIds : List Nat)
  | other
  deriving DecidableEq, Repr

inductive Action
  | quit
  | switchPanel
  | up
  | down
  | open
  | toggleSelect
  | rename
  | mkdir
  | delete
  | refresh
  | copy
  | edit
  | cancelTransfer
  | openConnections
  | addConnection
  | deleteConnection
  | openTerminal
  | toggleHidden
  | cycleSort
  | bookmarkHere
  | openBookmarks
  | openSearch
  | filter
  | openTransfers
  | openHistory
  | openSync
  | cycleSession
  | help
  | back
  | noop
  deriving DecidableEq, Repr

/-- What the user has set up: how text is turned to lower case and which key does what. -/
structure Setup where
  lower : String → String
  mapKey : KeyEvent → Action

/-- The row under the cursor of the connection list. -/
inductive Selection
  | group
  | connection (entry : ConnectionEntry)
  deriving DecidableEq, Repr

/-- What the search makes of a key. -/
inductive SearchOutcome
  | pending
  | patternChanged
  | open (selected : Option Entry)
  | cancel
  deriving DecidableEq, Repr

/-- What the parts of the screen that are not modelled make of a key. -/
structure Elsewhere where
  form : FormOutcome
  search : SearchOutcome
  /-- Whether the filter line of a list other than a panel is being edited. -/
  editingFilter : Bool
  /-- Whether such a list has a filter or is getting one. -/
  hasFilter : Bool
  showingError : Bool
  /-- Whether there is a protocol to make a connection form for. -/
  hasProtocols : Bool
  selected : Option Selection
  historyTotal : Nat
  historyDetails : Option MessageDialog
  ticked : List (Nat × SyncAction)
  deriving DecidableEq, Repr

/-- Nothing happens elsewhere. -/
def Elsewhere.quiet : Elsewhere where
  form := .pending
  search := .pending
  editingFilter := false
  hasFilter := false
  showingError := false
  hasProtocols := true
  selected := none
  historyTotal := 0
  historyDetails := none
  ticked := []

/-! ### State -/

structure App where
  shouldQuit : Bool
  screen : Screen
  activePanel : ActivePanel
  localPanel : PanelView
  sessions : Sessions
  dialog : Option Dialog
  helpVisible : Bool
  pendingAction : Option PendingAction
  connections : List ConnectionEntry
  /-- The set of the hosts that were announced as missing. -/
  announcedMissing : List String
  keyringAvailable : Bool
  saveChoice : Bool
  /-- Where the open search looks. -/
  search : Option Location
  /-- The number of the sync plan that is shown. -/
  syncId : Option Nat
  editQuestions : List EditPrompt
  openEditQuestion : Option EditPrompt
  editsBusy : Bool
  conflictPrompts : List ConflictPrompt
  bookmarks : List Bookmark
  /-- All that was ever sent to the core. -/
  sent : List AppCommand

namespace App

def send (app : App) (command : AppCommand) : App := { app with sent := app.sent ++ [command] }

def new (setup : Setup) (localPath : Path) (sortSpec : SortSpec) (showHidden : Bool) : App where
  shouldQuit := false
  screen := .files
  activePanel := .local
  localPanel := .new setup.lower localPath sortSpec showHidden
  sessions := .new
  dialog := none
  helpVisible := false
  pendingAction := none
  connections := []
  announcedMissing := []
  keyringAvailable := true
  saveChoice := false
  search := none
  syncId := none
  editQuestions := []
  openEditQuestion := none
  editsBusy := false
  conflictPrompts := []
  bookmarks := []
  sent := [.list .local (some localPath)]

def setScreen (app : App) (screen : Screen) : App := { app with screen }

def setSessions (app : App) (sessions : Sessions) : App := { app with sessions }

/-- A dialog lies over the screen, and an action waits for it. -/
def openDialog (app : App) (dialog : Dialog) (pending : PendingAction) : App :=
  { app with dialog := some dialog, pendingAction := some pending }

/-- The dialog is gone, and so is its action. -/
def closeDialog (app : App) : App := { app with dialog := none, pendingAction := none }

def activeLocation (app : App) : Option Location :=
  match app.activePanel with
  | .local => some .local
  | .remote => app.sessions.activeId.map .session

def panel (app : App) : Location → Option PanelView
  | .local => some app.localPanel
  | .session id => (app.sessions.byId id).map Session.panel

/-- The panel at the active location. -/
def activeView (app : App) : Option PanelView := app.activeLocation.bind app.panel

/-- The panel whose filter line is meant. -/
def activePanelView (app : App) : Option PanelView :=
  match app.activePanel with
  | .local => some app.localPanel
  | .remote => app.sessions.active.map Session.panel

def modifyPanelView (app : App) (change : PanelView → PanelView) : App :=
  match app.activePanel with
  | .local => { app with localPanel := change app.localPanel }
  | .remote => app.setSessions (app.sessions.modifyActive fun session =>
    { session with panel := change session.panel })

/-! ### Conflicts -/

/-- A prompt is shown where no other dialog is; the search is not interrupted. -/
def openNextConflictPrompt (app : App) : App :=
  if app.dialog.isSome ∨ app.screen = .search then app
  else
    match app.conflictPrompts.head?.bind ConflictPrompt.dialog with
    | none => app
    | some dialog => app.openDialog (.conflict dialog) .resolveConflict

def setConflictPrompts (app : App) (prompts : List ConflictPrompt) : App :=
  { app with conflictPrompts := prompts }

def queueConflictPrompt (app : App) (batchId : Nat) (files : List ConflictInfo) : App :=
  (app.setConflictPrompts (app.conflictPrompts ++ [.new batchId files])).openNextConflictPrompt

def answerConflict (app : App) (resolution : Option Resolution) (applyToRest : Bool) : App :=
  match app.conflictPrompts with
  | [] => app
  | prompt :: rest =>
    let popped := app.setConflictPrompts rest
    match resolution with
    | none => (popped.send (.resolveConflicts prompt.batchId none)).openNextConflictPrompt
    | some resolution =>
      match prompt.current with
      | none => popped
      | some current =>
        let prompt := prompt.answerAt current resolution applyToRest
        let app := match prompt.complete with
          | some answers => popped.send (.resolveConflicts prompt.batchId (some answers))
          | none => app.setConflictPrompts (prompt :: rest)
        app.openNextConflictPrompt

/-- Whether the prompt that is shown is one of those dropped. -/
def showsDropped (app : App) (batchIds : List Nat) : Bool :=
  decide (app.pendingAction = some .resolveConflict) &&
    app.conflictPrompts.head?.any fun prompt => decide (prompt.batchId ∈ batchIds)

def dropConflictPrompts (app : App) (batchIds : List Nat) : App :=
  let dropped := app.setConflictPrompts
    (app.conflictPrompts.filter fun prompt => decide (prompt.batchId ∉ batchIds))
  (if app.showsDropped batchIds then dropped.closeDialog else dropped).openNextConflictPrompt

/-! ### Questions about edits -/

def openNextEditQuestion (app : App) : App :=
  if app.dialog.isSome then app
  else
    match app.editQuestions with
    | [] => app
    | prompt :: rest =>
      let app := { app with editQuestions := rest, openEditQuestion := some prompt }
      match prompt.kind with
      | .upload =>
        app.openDialog (.confirm (.new ("Upload your changes to " ++ prompt.name ++ "?")))
          (.editUpload prompt.editId)
      | .conflict =>
        app.openDialog
          (.list { ListDialog.new (prompt.name ++ " changed on the server while you were editing")
              ["Overwrite", "Keep mine as a copy", "Cancel"] with cursor := 1 })
          (.editConflict prompt.editId)

def askEditQuestion (app : App) (editId : Nat) (name : String) (kind : EditQuestionKind) : App :=
  openNextEditQuestion
    { app with editQuestions := app.editQuestions ++ [⟨editId, printable name, kind⟩] }

/-- Whether the pending action answers a question about an edit. -/
def decidesEdit (app : App) : Bool :=
  match app.pendingAction with
  | some (.editUpload _) | some (.editConflict _) => true
  | _ => false

/-- A question about an edit makes room for another dialog. -/
def requeueOpenEditQuestion (app : App) : App :=
  { app with
    openEditQuestion := none
    editQuestions :=
      if app.dialog.isSome && app.decidesEdit then app.openEditQuestion.toList ++ app.editQuestions
      else app.editQuestions }

def afterDialogKey (app : App) : App :=
  openNextEditQuestion
    { app with openEditQuestion := if app.decidesEdit then app.openEditQuestion else none }

def answerEditConflict (app : App) (editId index : Nat) : App :=
  app.send (.resolveEdit editId
    (match index with
    | 0 => .upload
    | 1 => .keepCopy
    | _ => .cancel))

def requestQuit (app : App) : App :=
  if app.editsBusy then
    app.openDialog (.confirm (.new ("An edit is still being saved to the server. Quit anyway? " ++
      "The remote file may be left incomplete; your copy stays in the state folder."))) .quitWhileSaving
  else { app with shouldQuit := true }

def startEdit (app : App) : App :=
  if app.screen ≠ .files then app
  else
    match app.activeLocation, app.activeView.bind PanelView.currentEntry with
    | some location, some entry =>
      if entry.isDir then app else app.send (.editFile location entry.path)
    | _, _ => app

/-! ### Missing hosts -/

/-- The entries of a source that were not announced yet. -/
def unannounced (app : App) (source : ConnectionSource) : List String :=
  ((app.connections.filter fun entry =>
      decide (entry.source = source ∧ entry.name ∉ app.announcedMissing)).map
    ConnectionEntry.name).insertionSort fun first second => first ≤ second

def announceMissingHosts (app : App) : App :=
  if app.dialog.isSome then app
  else
    let missing := app.unannounced .missingSshHost
    let shadowed := app.unannounced .shadowedSshHost
    if missing = [] ∧ shadowed = [] then app
    else
      let sentences :=
        (if missing = [] then [] else
          ["These labelled hosts are no longer in ~/.ssh/config: " ++ ", ".intercalate missing ++ "."]) ++
        (if shadowed = [] then [] else
          ["These labelled hosts are hidden by a saved connection of the same name: " ++
            ", ".intercalate shadowed ++ "."]) ++
        ["They are marked \u26A0 in the connection list."]
      { app with
        announcedMissing := app.announcedMissing ++ missing ++ shadowed
        dialog := some (.message ⟨"Labelled ssh hosts", " ".intercalate sentences⟩) }

def openMissingHostDialog (app : App) (entry : ConnectionEntry) : App :=
  let title :=
    if entry.source = .shadowedSshHost then entry.name ++ " is hidden by a saved connection"
    else entry.name ++ " is no longer in ~/.ssh/config"
  app.openDialog (.list (.new title ["Move labels to\u2026", "Forget labels", "Cancel"]))
    (.fixMissingHost entry.name)

def applyMissingHostChoice (app : App) (name : String) (index : Nat) : App :=
  let app := { app with dialog := none }
  match index with
  | 0 =>
    let candidates := (app.connections.filter fun entry =>
      decide (entry.source = .sshConfig ∧ entry.group = none ∧ entry.tags = [])).map
        ConnectionEntry.name
    if candidates = [] then app
    else
      app.openDialog (.list (.new ("Move the labels of " ++ name ++ " to") candidates))
        (.moveLabels name candidates)
  | 1 => app.send (.forgetSshLabels name)
  | _ => app

def moveLabelsTo (app : App) (source : String) (candidates : List String) (index : Nat) : App :=
  let app := { app with dialog := none }
  match candidates[index]? with
  | some target => app.send (.moveSshLabels source target)
  | none => app

/-! ### Connections -/

def openConnectionsScreen (app : App) : App := (app.setScreen .connections).send .other

def openAddConnectionDialog (elsewhere : Elsewhere) (app : App) : App :=
  if app.screen = .connections ∧ elsewhere.hasProtocols then
    app.openDialog (.form "Add connection") .addConnection
  else app

def openEditConnectionDialog (elsewhere : Elsewhere) (app : App) : App :=
  match app.screen, elsewhere.selected with
  | .connections, some (.connection entry) =>
    if entry.source.isOrphanLabels then app
    else if entry.source = .sshConfig then
      app.openDialog (.form ("Labels for " ++ entry.name)) (.editSshLabels entry.name)
    else if elsewhere.hasProtocols then
      app.openDialog (.form "Edit connection") (.editConnection entry)
    else app
  | _, _ => app

def openDeleteConnectionDialog (elsewhere : Elsewhere) (app : App) : App :=
  match app.screen, elsewhere.selected with
  | .connections, some (.connection entry) =>
    if entry.source.isOrphanLabels ∨ entry.source = .sshConfig then app
    else
      app.openDialog (.confirm (.new ("Delete connection \"" ++ entry.name ++ "\"?")))
        (.deleteConnection entry.name)
  | _, _ => app

/-- The value of a field of a form. -/
def fieldValue (values : List (String × String)) (key : String) : Option String :=
  (values.find? fun field => decide (field.1 = key)).map Prod.snd

def submitSshLabels (app : App) (name : String) (values : List (String × String)) : App :=
  let saved := app.send (.saveSshLabels name ((fieldValue values "group").getD "")
    ((fieldValue values "tags").getD ""))
  if fieldValue values "saved_password" = some "forget" then saved.send (.forgetSshPassword name)
  else saved

def openPasswordPrompt (app : App) (requestId : Nat) (username name : String) : App :=
  app.openDialog (.form ("Password for " ++ username ++ "@" ++ name)) (.submitPassword requestId)

def submitPassword (app : App) (requestId : Nat) (values : List (String × String)) : App :=
  let save := decide (fieldValue values "save" = some "true")
  let app :=
    if (fieldValue values "save").isSome ∧ save ≠ app.saveChoice then
      { app with saveChoice := save }.send (.rememberSaveChoice save)
    else app
  (app.send (.answer requestId (some (.password ((fieldValue values "password").getD ""))) save)).closeDialog

def connectToSelected (elsewhere : Elsewhere) (app : App) : App :=
  match elsewhere.selected with
  | some (.connection entry) =>
    match app.sessions.byName entry.name with
    | some session => app.setSessions ((app.sessions.activate session.id).getD app.sessions)
    | none => app.send (.connect entry.name)
  | _ => app

def disconnectSelected (elsewhere : Elsewhere) (app : App) : App :=
  match elsewhere.selected with
  | some (.connection entry) =>
    if entry.source.isOrphanLabels then app
    else
      match app.sessions.byName entry.name with
      | some session => app.send (.disconnect session.id)
      | none => app
  | _ => app

def applyConnected (setup : Setup) (app : App) (session : Nat) (name : String)
    (shellAvailable : Bool) : App :=
  match app.sessions.activate session with
  | some sessions => app.setSessions sessions
  | none => app.setSessions
      (app.sessions.insert session name shellAvailable (.fromListing setup.lower ⟨"/"⟩ []))

/-! ### Questions -/

def ask (app : App) (requestId : Nat) (question : Question) : App :=
  let app := app.requeueOpenEditQuestion
  match question with
  | .password username name => app.openPasswordPrompt requestId username name
  | .trustHostKey name host port keyType fingerprint =>
    app.openDialog (.confirm (.new (name ++ " (" ++ host ++ ":" ++ port.repr ++
      ") is not a known host.\n" ++ keyType ++ " " ++ fingerprint ++
      "\nTrust this key and add it to ~/.ssh/known_hosts?"))) (.trustHostKey requestId)
  | .trustCertificate name host port fingerprint subject expires =>
    app.openDialog (.confirm (.new (name ++ " (" ++ host ++ ":" ++ port.repr ++
      ") presented a certificate that isn't trusted.\nSubject: " ++ subject ++ "   Expires: " ++
      expires ++ "\n" ++ fingerprint ++ "\nTrust it and remember it?"))) (.trustCertificate requestId)

/-! ### Files -/

/-- Whether the active panel belongs to no session. -/
def withoutSession (app : App) : Bool :=
  decide (app.activePanel = .remote) && app.sessions.active.isNone

def openMkdirDialog (app : App) : App :=
  if app.screen ≠ .files ∨ app.withoutSession then app
  else app.openDialog (.textInput (.new "New directory name" "")) .mkdir

def openRenameDialog (app : App) : App :=
  if app.screen ≠ .files then app
  else
    match app.activeView.bind PanelView.currentEntryName with
    | none => app
    | some name => app.openDialog (.textInput (.new "Rename to" name)) .rename

/-- The question before a deletion. -/
def deleteMessage : List Path → String
  | [path] => "Delete \"" ++ path.fileName.getD "?" ++ "\"?"
  | paths => "Delete " ++ paths.length.repr ++ " selected items?"

def openDeleteDialog (app : App) : App :=
  if app.screen ≠ .files then app
  else
    match app.activeView.map PanelView.targets with
    | none | some [] => app
    | some targets => app.openDialog (.confirm (.new (deleteMessage targets))) .delete

def createDirectory (app : App) (name : String) : App :=
  match app.activeLocation, app.activeView with
  | some location, some panel => app.send (.createDir location (panel.path.join ⟨name⟩))
  | _, _ => app

def renameCurrent (app : App) (newName : String) : App :=
  match app.activeLocation, app.activeView with
  | some location, some panel =>
    match panel.currentEntryName with
    | some name =>
      app.send (.rename location (panel.path.join ⟨name⟩) (panel.path.join ⟨newName⟩))
    | none => app
  | _, _ => app

def deleteTargets (app : App) : App :=
  match app.activeLocation, app.activeView with
  | some location, some panel => app.send (.delete location panel.targets)
  | _, _ => app

/-- The path of the active panel; there may be none. -/
def activePanelPath (app : App) : Path := (app.activeView.map PanelView.path).getD ⟨""⟩

/-! ### Bookmarks -/

def openBookmarkAddDialog (app : App) : App :=
  if app.screen ≠ .files then app
  else
    app.openDialog (.textInput (.new "Bookmark name" (app.activePanelPath.fileName.getD "bookmark")))
      .addBookmark

def addBookmark (app : App) (label : String) : App :=
  match app.activeLocation with
  | none => app
  | some location => app.send (.addBookmark label location app.activePanelPath)

def openBookmarksDialog (app : App) : App :=
  if app.screen ≠ .files then app
  else
    { app with
      dialog := some (.list { ListDialog.new "Bookmarks" (app.bookmarks.map Bookmark.row) with
        removable := true }) }

def navigateToBookmark (app : App) (index : Nat) : App :=
  match app.bookmarks[index]? with
  | none => app
  | some bookmark =>
    match bookmark.host with
    | none => { app with activePanel := .local }.send (.list .local (some bookmark.path))
    | some host =>
      match app.sessions.byName host with
      | none => app
      | some session =>
        let sessions := (app.sessions.activate session.id).getD app.sessions
        { app with sessions, activePanel := .remote }.send
          (.list (.session session.id) (some bookmark.path))

/-! ### Syncs -/

def openSync (app : App) : App :=
  if app.screen ≠ .files then app
  else if app.syncId.isSome then app.setScreen .sync
  else
    match app.sessions.active with
    | none => app
    | some session =>
      if session.listed then
        app.openDialog (.form ("Synchronize with " ++ session.name)) (.startSync session.id)
      else app

/-- `parse_options`, as far as there are options. -/
def parseOptions (values : List (String × String)) : Option SyncOptions :=
  let direction : Option SyncDirection := match fieldValue values "direction" with
    | some "local_to_remote" => some .localToRemote
    | some "remote_to_local" => some .remoteToLocal
    | some "both" => some .both
    | _ => none
  let syncBy : Option SyncBy := match fieldValue values "by" with
    | some "time" => some .time
    | some "size" => some .size
    | _ => none
  let subfolders : Option Bool := match fieldValue values "subfolders" with
    | some "yes" => some true
    | some "no" => some false
    | _ => none
  match direction, syncBy, subfolders with
  | some direction, some syncBy, some subfolders =>
    let options : SyncOptions := ⟨direction, syncBy, subfolders⟩
    if options.validate.isOk then some options else none
  | _, _, _ => none

/-- Options that are refused leave the form open. -/
def submitSyncOptions (app : App) (session : Nat) (values : List (String × String)) : App :=
  match parseOptions values with
  | none => app
  | some options =>
    let app := app.closeDialog
    match app.sessions.byId session with
    | none => app
    | some live => app.send (.startSync session app.localPanel.path live.panel.path options)

/-- Whether the filter line of a panel is being edited. -/
def editingPanelFilter (app : App) : Bool :=
  decide (app.screen = .files) && app.activePanelView.any PanelView.editingFilter

def applySyncPlan (app : App) (syncId : Nat) : App :=
  match app.syncId with
  | some shown => if shown = syncId then app else app.send (.cancelSync syncId)
  | none =>
    let app := { app with syncId := some syncId }
    if app.screen = .files ∧ app.dialog = none ∧ app.helpVisible = false ∧
        app.editingPanelFilter = false then app.setScreen .sync
    else app

def withdrawSync (app : App) (syncIds : List Nat) : App :=
  if app.syncId.any fun shown => decide (shown ∈ syncIds) then
    let app := { app with syncId := none }
    if app.screen = .sync then app.setScreen .files else app
  else app

def runSyncPlan (elsewhere : Elsewhere) (app : App) : App :=
  match app.syncId with
  | none => app
  | some syncId =>
    if elsewhere.ticked = [] then app
    else
      ({ app with syncId := none }.send (.runSync syncId elsewhere.ticked)).setScreen .files

def leaveSyncScreen (app : App) : App :=
  let app := match app.syncId with
    | some syncId => app.send (.cancelSync syncId)
    | none => app
  { app with syncId := none, screen := .files }

end App

end Porthmos
