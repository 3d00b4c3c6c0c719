import Porthmos.AppFolders

/-!
# The order of listings

The screen asks for a folder by a command.  The core takes the commands in order and lists every
folder in a task of its own, and the tasks finish in any order.  A listing arrives as an event, and
the panel shows the folder of the listing that arrived last.
-/

namespace Porthmos

/-- The answers of a file system to a task. -/
structure FolderAnswers where
  home : Except String Path
  list : Path → Except String (List Entry)

/-- What a listing task was given: `start` opens the first folder of a session. -/
inductive ListingTask
  | list (location : Location) (path : Option Path)
  | start (session : Nat) (requested : String)
  deriving DecidableEq, Repr

namespace ListingTask

def location : ListingTask → Location
  | .list location _ => location
  | .start session _ => .session session

/-- The folder that the screen asked for. -/
def asks : ListingTask → Option Path
  | .list _ path => path
  | .start _ _ => none

/-- `list_into`; a failure is only noticed. -/
def listInto (answers : FolderAnswers) (location : Location) (path : Option Path) :
    List CoreEvent :=
  let listed (path : Path) : List CoreEvent :=
    match answers.list path with
    | .ok entries => [.listed location path entries]
    | .error _ => [.other]
  match path with
  | some path => listed path
  | none =>
    match answers.home with
    | .ok home => listed home
    | .error _ => [.other]

def startDirectory (home : Path) (requested : String) : Path :=
  match requested.toList with
  | ['~'] => home
  | '~' :: '/' :: rest => home.join ⟨String.ofList (rest.dropWhile fun char => char = '/')⟩
  | _ => home.join ⟨requested⟩

def resolveStartDirectory (answers : FolderAnswers) (requested : String) : Except String Path :=
  if (Path.mk requested).isAbsolute then .ok ⟨requested⟩
  else answers.home.map fun home => startDirectory home requested

def listStartInto (answers : FolderAnswers) (session : Nat) (requested : String) :
    List CoreEvent :=
  match resolveStartDirectory answers requested with
  | .error _ => [.other]
  | .ok path =>
    match answers.list path with
    | .ok entries => [.listed (.session session) path entries]
    | .error _ => .other :: listInto answers (.session session) none

/-- What a task tells at its end. -/
def run (answers : FolderAnswers) : ListingTask → List CoreEvent
  | .list location path => listInto answers location path
  | .start session requested => listStartInto answers session requested

end ListingTask

/-- The folder that a command asks to list at a location. -/
def AppCommand.asks (location : Location) : AppCommand → Option (Option Path)
  | .list target path => if target = location then some path else none
  | _ => none

/-- The folder of a listing at a location. -/
def CoreEvent.listedAt (location : Location) : CoreEvent → Option Path
  | .listed target path _ => if target = location then some path else none
  | _ => none

/-- The task of a command, if its location is live. -/
def AppCommand.listingTask (isLive : Location → Bool) : AppCommand → Option ListingTask
  | .list location path => if isLive location then some (.list location path) else none
  | _ => none

/-- The folder that was asked for last. -/
def App.asked (app : App) (location : Location) : Option (Option Path) :=
  (app.sent.filterMap (AppCommand.asks location)).getLast?

structure ListingSystem where
  app : App
  /-- How many commands of the screen were taken. -/
  taken : Nat
  tasks : List ListingTask
  /-- What was told and has not arrived. -/
  events : List CoreEvent
  nextSession : Nat

inductive ListingInput
  | key (pressed : KeyEvent) (elsewhere : Elsewhere)
  /-- The next event arrives. -/
  | deliver
  /-- The next command is taken. -/
  | take (isLive : Location → Bool)
  /-- A session is opened, and its first folder listed. -/
  | connect (name : String) (shellAvailable : Bool) (requested : Option String)
  /-- A session that was opened before is told again. -/
  | again (session : Nat) (name : String) (shellAvailable : Bool)
  /-- A task ends. -/
  | finish (index : Nat) (answers : FolderAnswers)
  /-- Anything else is told. -/
  | tell (told : CoreEvent)

namespace ListingSystem

def start (setup : Setup) (localPath : Path) (sortSpec : SortSpec) (showHidden : Bool) :
    ListingSystem :=
  ⟨.new setup localPath sortSpec showHidden, 0, [], [], 0⟩

def openStartDirectory (session : Nat) : Option String → ListingTask
  | some requested => .start session requested
  | none => .list (.session session) none

def next (setup : Setup) (system : ListingSystem) : ListingInput → ListingSystem
  | .key pressed elsewhere => { system with app := system.app.applyKey setup elsewhere pressed }
  | .deliver =>
    match system.events with
    | [] => system
    | told :: events => { system with app := system.app.applyCoreEvent setup told, events }
  | .take isLive =>
    match system.app.sent[system.taken]? with
    | none => system
    | some command => { system with
        taken := system.taken + 1
        tasks := system.tasks ++ (command.listingTask isLive).toList }
  | .connect name shellAvailable requested => { system with
      tasks := system.tasks ++ [openStartDirectory system.nextSession requested]
      events := system.events ++ [.connected system.nextSession name shellAvailable]
      nextSession := system.nextSession + 1 }
  | .again session name shellAvailable =>
    if session < system.nextSession then
      { system with events := system.events ++ [.connected session name shellAvailable] }
    else system
  | .finish index answers =>
    match system.tasks[index]? with
    | none => system
    | some task => { system with
        tasks := system.tasks.eraseIdx index
        events := system.events ++ task.run answers }
  | .tell told =>
    match told with
    | .listed _ _ _ | .connected _ _ _ => system
    | told => { system with events := system.events ++ [told] }

def after (setup : Setup) (system : ListingSystem) (inputs : List ListingInput) : ListingSystem :=
  inputs.foldl (next setup) system

/-- The folders of the listings that have not ended, running or not taken. -/
def outstanding (system : ListingSystem) (location : Location) : List (Option Path) :=
  ((system.tasks.filter fun task => task.location = location).map ListingTask.asks) ++
    (system.app.sent.drop system.taken).filterMap (AppCommand.asks location)

/-- The folders of the listings that have not arrived. -/
def arriving (system : ListingSystem) (location : Location) : List Path :=
  system.events.filterMap (CoreEvent.listedAt location)

/-- All listings of a location have ended and arrived. -/
structure Finished (system : ListingSystem) (location : Location) : Prop where
  ended : system.outstanding location = []
  arrived : system.arriving location = []

/-- Listings of a location are successful, and it is not closed. -/
def Succeeds (system : ListingSystem) (location : Location) : ListingInput → Prop
  | .take isLive => ∀ path, system.app.sent[system.taken]? = some (.list location path) →
      isLive location = true
  | .finish index answers => ∀ path, system.tasks[index]? = some (.list location (some path)) →
      (answers.list path).isOk = true
  | .tell told => ∀ session, told = .disconnected session → location ≠ .session session
  | _ => True

/-- A folder is asked for only when no listing of another one is outstanding. -/
def Waits (setup : Setup) (system : ListingSystem) (location : Location) (input : ListingInput) :
    Prop :=
  ∀ path ∈ ((system.next setup input).app.sent.drop system.app.sent.length).filterMap
      (AppCommand.asks location),
    ∀ other ∈ (system.next setup input).outstanding location, other = path

/-- Every step of a run meets a condition. -/
def Along (setup : Setup) (meets : ListingSystem → ListingInput → Prop) :
    ListingSystem → List ListingInput → Prop
  | _, [] => True
  | system, input :: inputs =>
    meets system input ∧ Along setup meets (system.next setup input) inputs

instance decidableAlong (setup : Setup) (meets : ListingSystem → ListingInput → Prop)
    [∀ system input, Decidable (meets system input)] :
    ∀ inputs system, Decidable (Along setup meets system inputs)
  | [], _ => isTrue trivial
  | input :: inputs, system =>
    have : Decidable (Along setup meets (system.next setup input) inputs) :=
      decidableAlong setup meets inputs (system.next setup input)
    inferInstanceAs (Decidable (meets system input ∧ _))

instance (setup : Setup) (system : ListingSystem) (location : Location) (input : ListingInput) :
    Decidable (system.Waits setup location input) :=
  inferInstanceAs (Decidable (∀ path ∈ _, ∀ other ∈ _, other = path))

/-- No listing of a location fails, and it is not closed. -/
def Successful (setup : Setup) (location : Location) : ListingSystem → List ListingInput → Prop :=
  Along setup fun system input => system.Succeeds location input

/-- No listing of a location is overtaken. -/
def Orderly (setup : Setup) (location : Location) : ListingSystem → List ListingInput → Prop :=
  Along setup fun system input => system.Waits setup location input

end ListingSystem

namespace ListingSystem

variable {setup : Setup} {system : ListingSystem} {location : Location}

/-- The folder that the panel shows when everything told has arrived. -/
def shownAtLast (system : ListingSystem) (location : Location) : Option Path :=
  (system.arriving location).getLast?.or (system.app.place location)

/-- The screen has a location, or will have it. -/
def Heard (system : ListingSystem) (location : Location) : Prop :=
  (system.app.place location).isSome = true ∨
    ∃ session name shellAvailable, location = .session session ∧
      .connected session name shellAvailable ∈ system.events

/-- The panel shows, or will show, what was asked for last. -/
structure Current (location : Location) (system : ListingSystem) : Prop where
  taken : system.taken ≤ system.app.sent.length
  isOpen : ∀ session, .disconnected session ∈ system.events → location ≠ .session session
  known : system.Heard location → ∀ session, location = .session session →
    session < system.nextSession
  search : system.app.search = some location → (system.app.place location).isSome = true
  shown : ∀ path, system.app.asked location = some path →
    (system.app.place location).isSome = true
  named : ∀ path, system.app.asked location = some path → path.isSome = true
  same : ∀ path, system.app.asked location = some path →
    ∀ other ∈ system.outstanding location, other = path
  settled : ∀ path, system.app.asked location = some path → system.outstanding location = [] →
    system.shownAtLast location = path

theorem current_start (setup : Setup) (localPath : Path) (sortSpec : SortSpec)
    (showHidden : Bool) (location : Location) :
    Current location (start setup localPath sortSpec showHidden) := by
  cases location with
  | «local» =>
    have isAsked : App.asked (App.new setup localPath sortSpec showHidden) .local =
        some (some localPath) := rfl
    have isOutstanding : outstanding (start setup localPath sortSpec showHidden) .local =
        [some localPath] := rfl
    refine ⟨Nat.zero_le _, nofun, nofun, fun _ => rfl, fun _ _ => rfl, ?_, ?_, ?_⟩
    · intro path asked
      rw [← Option.some.inj (isAsked.symm.trans asked)]
      rfl
    · intro path asked other isIn
      rw [isOutstanding] at isIn
      rw [List.mem_singleton.mp isIn]
      exact Option.some.inj (isAsked.symm.trans asked)
    · intro path _ isEmpty
      cases isOutstanding.symm.trans isEmpty
  | session id =>
    have notAsked : App.asked (App.new setup localPath sortSpec showHidden) (.session id) =
        none := rfl
    have never {path : Option Path} {claim : Prop}
        (asked : App.asked (App.new setup localPath sortSpec showHidden) (.session id) =
          some path) : claim := nomatch notAsked.symm.trans asked
    have unheard : ¬Heard (start setup localPath sortSpec showHidden) (.session id) := by
      rintro (isThere | ⟨_, _, _, _, isIn⟩)
      · cases isThere
      · cases isIn
    exact ⟨Nat.zero_le _, nofun, fun heard => absurd heard unheard, nofun, fun _ => never,
      fun _ => never, fun _ => never, fun _ => never⟩

/-- What a step may do to the screen: the folder of the location stays the same, and whatever was
told arrives as before. -/
structure Goes (location : Location) (before after : ListingSystem) : Prop where
  tasks : after.tasks = before.tasks
  taken : after.taken = before.taken
  nextSession : after.nextSession = before.nextSession
  isOpen : ∀ session, .disconnected session ∈ after.events → location ≠ .session session
  heard : after.Heard location → before.Heard location
  search : after.app.search = some location →
    before.app.search = some location ∨ (before.app.place location).isSome = true
  isThere : (before.app.place location).isSome = true →
    (after.app.place location).isSome = true
  shownAtLast : (before.app.place location).isSome = true →
    after.shownAtLast location = before.shownAtLast location
  sent : ∃ commands, after.app.sent = before.app.sent ++ commands ∧
    ∀ command ∈ commands, command.Placed before.app

theorem asked_append (app after : App) {commands : List AppCommand}
    (isSent : after.sent = app.sent ++ commands) (location : Location) :
    after.asked location =
      (commands.filterMap (AppCommand.asks location)).getLast?.or (app.asked location) := by
  rw [App.asked, isSent, List.filterMap_append, List.getLast?_append]
  rfl

theorem asks_eq_some {command : AppCommand} {path : Option Path} :
    command.asks location = some path ↔ command = .list location path := by
  cases command with
  | list target other => simp [AppCommand.asks]
  | _ => simp [AppCommand.asks]

/-- A step of the screen that waits. -/
theorem Current.goes {after : ListingSystem} (current : Current location system)
    (goes : Goes location system after)
    (waits : ∀ path ∈ (after.app.sent.drop system.app.sent.length).filterMap
        (AppCommand.asks location),
      ∀ other ∈ after.outstanding location, other = path) : Current location after := by
  obtain ⟨commands, isSent, placed⟩ := goes.sent
  have isNew : after.app.sent.drop system.app.sent.length = commands := by
    rw [isSent, List.drop_left]
  have isAsked := asked_append system.app after.app isSent location
  have isOutstanding : after.outstanding location =
      system.outstanding location ++ commands.filterMap (AppCommand.asks location) := by
    rw [outstanding, goes.tasks, goes.taken, isSent, List.drop_append_of_le_length current.taken,
      List.filterMap_append, ← List.append_assoc]
    rfl
  have isTaken : after.taken ≤ after.app.sent.length := by
    rw [goes.taken, isSent, List.length_append]
    exact Nat.le_add_right_of_le current.taken
  have inSearch (isSearch : after.app.search = some location) :
      (after.app.place location).isSome = true := by
    rcases goes.search isSearch with wasSearch | wasThere
    · exact goes.isThere (current.search wasSearch)
    · exact goes.isThere wasThere
  have known (heard : after.Heard location) (session : Nat) (isSession : location = .session session) :
      session < after.nextSession := by
    rw [goes.nextSession]
    exact current.known (goes.heard heard) session isSession
  cases isLast : (commands.filterMap (AppCommand.asks location)).getLast? with
  | none =>
    have isNone := List.getLast?_eq_none_iff.mp isLast
    rw [isLast, Option.none_or] at isAsked
    rw [isNone, List.append_nil] at isOutstanding
    refine ⟨isTaken, goes.isOpen, known, inSearch, ?_, ?_, ?_, ?_⟩
    · intro path asked
      exact goes.isThere (current.shown path (isAsked ▸ asked))
    · intro path asked
      exact current.named path (isAsked ▸ asked)
    · intro path asked
      rw [isOutstanding]
      exact current.same path (isAsked ▸ asked)
    · intro path asked ended
      rw [isOutstanding] at ended
      have wasAsked := isAsked ▸ asked
      rw [goes.shownAtLast (current.shown path wasAsked)]
      exact current.settled path wasAsked ended
  | some last =>
    rw [isLast, Option.some_or] at isAsked
    have isIn := List.mem_of_getLast? isLast
    obtain ⟨command, isCommand, isList⟩ := List.mem_filterMap.mp isIn
    obtain rfl := asks_eq_some.mp isList
    obtain ⟨isNamed, wasPlaced⟩ := placed _ isCommand
    have isPlaced : (after.app.place location).isSome = true := by
      rcases wasPlaced with wasThere | wasSearch
      · exact goes.isThere wasThere
      · exact goes.isThere (current.search wasSearch)
    have isAskedFor {path : Option Path} (asked : after.app.asked location = some path) :
        last = path := Option.some.inj (isAsked.symm.trans asked)
    refine ⟨isTaken, goes.isOpen, known, inSearch, fun _ _ => isPlaced, ?_, ?_, ?_⟩
    · intro path asked
      rw [← isAskedFor asked]
      exact isNamed
    · intro path asked other isOther
      rw [← isAskedFor asked]
      exact waits last (isNew ▸ isIn) other isOther
    · intro path _ ended
      rw [isOutstanding] at ended
      rw [(List.append_eq_nil_iff.mp ended).2] at isIn
      cases isIn

/-! ### Steps -/

theorem goes_of_keeps {app : App} {events : List CoreEvent} (keeps : system.app.KeepsFolders app)
    (isOpen : ∀ session, .disconnected session ∈ events → location ≠ .session session)
    (fewer : events ⊆ system.events)
    (same : events.filterMap (CoreEvent.listedAt location) = system.arriving location) :
    Goes location system { system with app, events } where
  tasks := rfl
  taken := rfl
  nextSession := rfl
  isOpen := isOpen
  heard := by
    rintro (isThere | ⟨session, name, shellAvailable, isSession, isIn⟩)
    · exact .inl (keeps.places location ▸ isThere)
    · exact .inr ⟨session, name, shellAvailable, isSession, fewer isIn⟩
  search := keeps.search location
  isThere isThere := (keeps.places location).symm ▸ isThere
  shownAtLast _ := by
    rw [shownAtLast, shownAtLast, arriving, same, keeps.places location]
  sent := keeps.sent

theorem goes_of_silent {app : App} {events : List CoreEvent}
    (isOpen : ∀ session, .disconnected session ∈ events → location ≠ .session session)
    (search : app.search = system.app.search) (sent : app.sent = system.app.sent)
    (heard : Heard { system with app, events } location → system.Heard location)
    (isThere : (system.app.place location).isSome = true → (app.place location).isSome = true)
    (shownAtLast : (system.app.place location).isSome = true →
      ListingSystem.shownAtLast { system with app, events } location =
        system.shownAtLast location) :
    Goes location system { system with app, events } where
  tasks := rfl
  taken := rfl
  nextSession := rfl
  isOpen := isOpen
  heard := heard
  search isSearch := .inl (search ▸ isSearch)
  isThere := isThere
  shownAtLast := shownAtLast
  sent := ⟨[], by rw [sent, List.append_nil], nofun⟩

theorem sent_applyListing (setup : Setup) (app : App) (location : Location) (path : Path)
    (entries : List Entry) :
    (app.applyListing setup location path entries).sent = app.sent ∧
      (app.applyListing setup location path entries).search = app.search := by
  cases location <;> exact ⟨rfl, rfl⟩

theorem sent_applyConnected (setup : Setup) (app : App) (session : Nat) (name : String)
    (shellAvailable : Bool) :
    (app.applyConnected setup session name shellAvailable).sent = app.sent ∧
      (app.applyConnected setup session name shellAvailable).search = app.search := by
  unfold App.applyConnected
  split <;> exact ⟨rfl, rfl⟩

theorem shownAtLast_listed {app : App} {events : List CoreEvent} {target : Location} {path : Path}
    {entries : List Entry} (isNext : system.events = .listed target path entries :: events)
    (isPlace : app.place location =
      if target = location then (system.app.place target).map fun _ => path
      else system.app.place location)
    (isThere : (system.app.place location).isSome = true) :
    ListingSystem.shownAtLast { system with app, events } location =
      system.shownAtLast location := by
  rw [shownAtLast, shownAtLast, arriving, arriving, isNext, isPlace]
  by_cases isTarget : target = location
  · subst isTarget
    obtain ⟨before, isBefore⟩ := Option.isSome_iff_exists.mp isThere
    have isListed : CoreEvent.listedAt target (.listed target path entries) = some path :=
      if_pos rfl
    rw [List.filterMap_cons_some isListed, if_pos rfl, isBefore, List.getLast?_cons]
    cases (events.filterMap (CoreEvent.listedAt target)).getLast? <;> rfl
  · have notListed : CoreEvent.listedAt location (.listed target path entries) = none :=
      if_neg isTarget
    rw [List.filterMap_cons_none notListed, if_neg isTarget]

theorem goes_deliver (current : Current location system) {told : CoreEvent}
    {events : List CoreEvent} (isNext : system.events = told :: events) :
    Goes location system { system with app := system.app.applyCoreEvent setup told, events } := by
  have isOpen (session : Nat) (isIn : .disconnected session ∈ events) :
      location ≠ .session session :=
    current.isOpen session (isNext ▸ List.mem_cons_of_mem told isIn)
  have arrives (notListed : told.listedAt location = none) :
      events.filterMap (CoreEvent.listedAt location) = system.arriving location := by
    rw [arriving, isNext, List.filterMap_cons_none notListed]
  have fewer : events ⊆ system.events := by
    rw [isNext]
    exact List.subset_cons_self told events
  have heard {app : App} (isSame : (app.place location).isSome = (system.app.place location).isSome)
      (isHeard : Heard { system with app, events } location) : system.Heard location := by
    rcases isHeard with isThere | ⟨session, name, shellAvailable, isSession, isIn⟩
    · exact .inl (isSame.symm.trans isThere)
    · exact .inr ⟨session, name, shellAvailable, isSession, fewer isIn⟩
  have silent {app : App} (search : app.search = system.app.search)
      (sent : app.sent = system.app.sent) (notListed : told.listedAt location = none)
      (heard : Heard { system with app, events } location → system.Heard location)
      (isPlace : (system.app.place location).isSome = true →
        app.place location = system.app.place location) :
      Goes location system { system with app, events } := by
    apply goes_of_silent isOpen search sent heard
    · intro isThere
      rw [isPlace isThere]
      exact isThere
    · intro isThere
      rw [shownAtLast, shownAtLast, arriving, arrives notListed, isPlace isThere]
  cases told with
  | listed target path entries =>
    have isSent := sent_applyListing setup system.app target path entries
    have isPlace := system.app.place_applyListing setup target location path entries
    have isSame : ((system.app.applyListing setup target path entries).place location).isSome =
        (system.app.place location).isSome := by
      rw [isPlace]
      split_ifs with isTarget
      · rw [Option.isSome_map, isTarget]
      · rfl
    apply goes_of_silent isOpen isSent.2 isSent.1 (heard isSame)
    · exact fun isThere => isSame.trans isThere
    · exact shownAtLast_listed isNext isPlace
  | connected session name shellAvailable =>
    have isSent := sent_applyConnected setup system.app session name shellAvailable
    apply silent isSent.2 isSent.1 rfl
    · rintro (isThere | ⟨other, otherName, isShell, isSession, isIn⟩)
      · have isPlaced := system.app.place_connected setup isThere
        rcases isPlaced with wasThere | isSession
        · exact .inl wasThere
        · exact .inr ⟨session, name, shellAvailable, isSession, isNext ▸ List.mem_cons_self⟩
      · exact .inr ⟨other, otherName, isShell, isSession, fewer isIn⟩
    · exact fun isThere => system.app.place_applyConnected setup isThere session name shellAvailable
  | disconnected session =>
    have differs := current.isOpen session (isNext ▸ List.mem_cons_self)
    have isPlace := system.app.place_disconnected differs
    exact silent rfl rfl rfl (heard (congrArg Option.isSome isPlace)) fun _ => isPlace
  | _ =>
    apply goes_of_keeps _ isOpen fewer (arrives rfl)
    exact system.app.keeps_applyCoreEvent setup ⟨nofun, nofun, nofun⟩

theorem Current.core (current : Current location system) {after : ListingSystem}
    (isApp : after.app = system.app) (isTaken : after.taken ≤ system.app.sent.length)
    (isOpen : ∀ session, .disconnected session ∈ after.events → location ≠ .session session)
    (known : after.Heard location → ∀ session, location = .session session →
      session < after.nextSession)
    (fewer : ∀ path, system.app.asked location = some path →
      after.outstanding location ⊆ system.outstanding location)
    (settled : ∀ path, system.app.asked location = some path → after.outstanding location = [] →
      after.shownAtLast location = path) : Current location after where
  taken := isApp.symm ▸ isTaken
  isOpen := isOpen
  known := known
  search := isApp.symm ▸ current.search
  shown := isApp.symm ▸ current.shown
  named := isApp.symm ▸ current.named
  same path asked other isIn :=
    have asked : system.app.asked location = some path := isApp ▸ asked
    current.same path asked other (fewer path asked isIn)
  settled path asked := settled path (isApp ▸ asked)

theorem mem_listInto {answers : FolderAnswers} {path : Option Path} {told : CoreEvent}
    (isTold : told ∈ ListingTask.listInto answers location path) :
    told = .other ∨ ∃ path entries, told = .listed location path entries := by
  have listed (path : Path) (isTold : told ∈ (match answers.list path with
      | .ok entries => [CoreEvent.listed location path entries]
      | .error _ => [CoreEvent.other])) :
      told = .other ∨ ∃ path entries, told = .listed location path entries := by
    cases isList : answers.list path with
    | ok entries =>
      rw [isList] at isTold
      exact .inr ⟨path, entries, List.mem_singleton.mp isTold⟩
    | error err =>
      rw [isList] at isTold
      exact .inl (List.mem_singleton.mp isTold)
  cases path with
  | some path => exact listed path isTold
  | none =>
    unfold ListingTask.listInto at isTold
    cases isHome : answers.home with
    | ok home =>
      rw [isHome] at isTold
      exact listed home isTold
    | error err =>
      rw [isHome] at isTold
      exact .inl (List.mem_singleton.mp isTold)

/-- A task tells listings of its own location only. -/
theorem mem_run {answers : FolderAnswers} {task : ListingTask} {told : CoreEvent}
    (isTold : told ∈ task.run answers) :
    told = .other ∨ ∃ path entries, told = .listed task.location path entries := by
  cases task with
  | list target path => exact mem_listInto isTold
  | start session requested =>
    rw [ListingTask.run, ListingTask.listStartInto] at isTold
    cases isPath : ListingTask.resolveStartDirectory answers requested with
    | error err =>
      rw [isPath] at isTold
      exact .inl (List.mem_singleton.mp isTold)
    | ok path =>
      rw [isPath] at isTold
      cases isList : answers.list path with
      | ok entries =>
        simp only [isList] at isTold
        exact .inr ⟨path, entries, List.mem_singleton.mp isTold⟩
      | error err =>
        simp only [isList, List.mem_cons] at isTold
        rcases isTold with isOther | isTold
        · exact .inl isOther
        · exact mem_listInto isTold

theorem take_outstanding {isLive : Location → Bool} {command : AppCommand}
    (isCommand : system.app.sent[system.taken]? = some command)
    (succeeds : system.Succeeds location (.take isLive)) :
    outstanding { system with
      taken := system.taken + 1
      tasks := system.tasks ++ (command.listingTask isLive).toList } location =
        system.outstanding location := by
  obtain ⟨inside, rfl⟩ := List.getElem?_eq_some_iff.mp isCommand
  have isDrop := List.drop_eq_getElem_cons inside
  rw [outstanding, outstanding, isDrop, List.filter_append, List.map_append, List.append_assoc]
  congr 1
  cases isList : system.app.sent[system.taken] with
  | list target path =>
    by_cases isTarget : target = location
    · subst isTarget
      have isLiveTarget := succeeds path (isCommand.trans (congrArg some isList))
      have isTask : AppCommand.listingTask isLive (.list target path) =
          some (.list target path) := if_pos isLiveTarget
      have isAsked : AppCommand.asks target (.list target path) = some path := if_pos rfl
      rw [isTask, List.filterMap_cons_some isAsked]
      simp [ListingTask.location, ListingTask.asks]
    · have notAsked : AppCommand.asks location (.list target path) = none := if_neg isTarget
      rw [List.filterMap_cons_none notAsked, AppCommand.listingTask]
      split_ifs
      · simp [ListingTask.location, isTarget]
      · rfl
  | _ => rfl

theorem current_take (current : Current location system) {isLive : Location → Bool}
    (succeeds : system.Succeeds location (.take isLive)) :
    Current location (system.next setup (.take isLive)) := by
  rw [next]
  split
  · exact current
  · rename_i command isCommand
    have same := take_outstanding isCommand succeeds
    have inside := (List.getElem?_eq_some_iff.mp isCommand).1
    refine current.core rfl inside current.isOpen current.known ?_ ?_
    · intro path _
      rw [same]
      exact List.Subset.refl _
    · intro path asked ended
      exact current.settled path asked (same ▸ ended)

theorem current_connect (current : Current location system) (name : String)
    (shellAvailable : Bool) (requested : Option String) :
    Current location (system.next setup (.connect name shellAvailable requested)) := by
  have isLocation : (openStartDirectory system.nextSession requested).location =
      .session system.nextSession := by cases requested <;> rfl
  have notOwn {path : Option Path} (asked : system.app.asked location = some path) :
      ¬(openStartDirectory system.nextSession requested).location = location := by
    rw [isLocation]
    intro isOwn
    have known := current.known (.inl (current.shown path asked)) _ isOwn.symm
    exact Nat.lt_irrefl _ known
  have same {path : Option Path} (asked : system.app.asked location = some path) :
      (system.next setup (.connect name shellAvailable requested)).outstanding location =
        system.outstanding location := by
    have notTask : [openStartDirectory system.nextSession requested].filter
        (fun task => task.location = location) = [] := by simp [notOwn asked]
    rw [next, outstanding, outstanding, List.filter_append, notTask, List.append_nil]
  refine current.core rfl current.taken ?_ ?_ ?_ ?_
  · intro session isIn
    rcases List.mem_append.mp isIn with isBefore | isLast
    · exact current.isOpen session isBefore
    · cases List.mem_singleton.mp isLast
  · rintro (isThere | ⟨session, name, shellAvailable, isSession, isIn⟩)
    · intro session isSession
      exact Nat.lt_succ_of_lt (current.known (.inl isThere) session isSession)
    · rcases List.mem_append.mp isIn with isBefore | isLast
      · intro other isOther
        have heard : system.Heard location :=
          .inr ⟨session, name, shellAvailable, isSession, isBefore⟩
        exact Nat.lt_succ_of_lt (current.known heard other isOther)
      · cases List.mem_singleton.mp isLast
        intro other isOther
        cases isSession.symm.trans isOther
        exact Nat.lt_succ_self _
  · intro path asked
    rw [same asked]
    exact List.Subset.refl _
  · intro path asked ended
    rw [same asked] at ended
    rw [next, shownAtLast, arriving, List.filterMap_append]
    change ((system.arriving location) ++ []).getLast?.or (system.app.place location) = path
    rw [List.append_nil]
    exact current.settled path asked ended

/-- An event that is no listing is told. -/
theorem current_told (current : Current location system) {told : CoreEvent}
    (isOpen : ∀ session, told = .disconnected session → location ≠ .session session)
    (known : ∀ session name shellAvailable, told = .connected session name shellAvailable →
      session < system.nextSession)
    (notListed : told.listedAt location = none) :
    Current location { system with events := system.events ++ [told] } := by
  refine current.core rfl current.taken ?_ ?_ ?_ ?_
  · intro session isIn
    rcases List.mem_append.mp isIn with isBefore | isLast
    · exact current.isOpen session isBefore
    · exact isOpen session (List.mem_singleton.mp isLast).symm
  · rintro (isThere | ⟨session, name, shellAvailable, isSession, isIn⟩)
    · exact current.known (.inl isThere)
    · rcases List.mem_append.mp isIn with isBefore | isLast
      · exact current.known (.inr ⟨session, name, shellAvailable, isSession, isBefore⟩)
      · intro other isOther
        cases isSession.symm.trans isOther
        exact known session name shellAvailable (List.mem_singleton.mp isLast).symm
  · exact fun path _ => List.Subset.refl _
  · intro path asked ended
    rw [shownAtLast, arriving, List.filterMap_append, List.filterMap_cons_none notListed,
      List.filterMap_nil, List.append_nil]
    exact current.settled path asked ended

theorem current_tell (current : Current location system) {told : CoreEvent}
    (succeeds : system.Succeeds location (.tell told)) :
    Current location (system.next setup (.tell told)) := by
  unfold next
  dsimp only
  split
  · exact current
  · exact current
  · rename_i notListed notConnected
    refine current_told current succeeds ?_ ?_
    · intro session name shellAvailable same
      exact absurd same (notConnected session name shellAvailable)
    · cases isTold : told with
      | listed target path entries => exact absurd isTold (notListed target path entries)
      | _ => rfl

theorem current_again (current : Current location system) (session : Nat) (name : String)
    (shellAvailable : Bool) :
    Current location (system.next setup (.again session name shellAvailable)) := by
  rw [next]
  split_ifs with isKnown
  · refine current_told current ?_ ?_ rfl
    · intro other isOther
      cases isOther
    · intro other otherName isShell same
      cases same
      exact isKnown
  · exact current

theorem run_list {answers : FolderAnswers} {path : Path} (isOk : (answers.list path).isOk = true) :
    ∃ entries, (ListingTask.list location (some path)).run answers =
      [.listed location path entries] := by
  cases isList : answers.list path with
  | ok entries =>
    refine ⟨entries, ?_⟩
    simp only [ListingTask.run, ListingTask.listInto, isList]
  | error err =>
    rw [isList] at isOk
    cases isOk

theorem outstanding_finish {index : Nat} {task : ListingTask} (events : List CoreEvent)
    (isTask : system.tasks[index]? = some task) :
    outstanding { system with tasks := system.tasks.eraseIdx index, events } location ⊆
        system.outstanding location ∧
      (task.location ≠ location →
        outstanding { system with tasks := system.tasks.eraseIdx index, events } location =
          system.outstanding location) ∧
      (task.location = location → task.asks ∈ system.outstanding location) := by
  refine ⟨?_, ?_, ?_⟩
  · intro path isIn
    rcases List.mem_append.mp isIn with isTaskOf | isCommand
    · have fewer := ((List.eraseIdx_sublist system.tasks index).filter
        fun task => task.location = location).map ListingTask.asks
      exact List.mem_append_left _ (fewer.subset isTaskOf)
    · exact List.mem_append_right _ isCommand
  · intro elsewhere
    obtain ⟨inside, rfl⟩ := List.getElem?_eq_some_iff.mp isTask
    have isSplit : system.tasks = system.tasks.take index ++
        system.tasks[index] :: system.tasks.drop (index + 1) := by
      rw [List.getElem_cons_drop, List.take_append_drop]
    have isFilter : (system.tasks.eraseIdx index).filter (fun task => task.location = location) =
        system.tasks.filter fun task => task.location = location := by
      conv_rhs => rw [isSplit]
      rw [List.eraseIdx_eq_take_drop_succ, List.filter_append, List.filter_append,
        List.filter_cons_of_neg (by simpa using elsewhere)]
    rw [outstanding, outstanding, isFilter]
  · intro isOwn
    apply List.mem_append_left
    apply List.mem_map_of_mem
    rw [List.mem_filter]
    exact ⟨List.mem_of_getElem? isTask, decide_eq_true isOwn⟩

theorem current_finish (current : Current location system) {index : Nat}
    {answers : FolderAnswers} (succeeds : system.Succeeds location (.finish index answers)) :
    Current location (system.next setup (.finish index answers)) := by
  rw [next]
  split
  · exact current
  · rename_i task isTask
    obtain ⟨fewer, elsewhere, own⟩ :=
      @outstanding_finish system location index task (system.events ++ task.run answers) isTask
    refine current.core rfl current.taken ?_ ?_ (fun _ _ => fewer) ?_
    · intro session isIn
      rcases List.mem_append.mp isIn with isBefore | isTold
      · exact current.isOpen session isBefore
      · rcases mem_run isTold with isOther | ⟨path, entries, isListed⟩
        · cases isOther
        · cases isListed
    · rintro (isThere | ⟨session, name, shellAvailable, isSession, isIn⟩)
      · exact current.known (.inl isThere)
      · rcases List.mem_append.mp isIn with isBefore | isTold
        · exact current.known (.inr ⟨session, name, shellAvailable, isSession, isBefore⟩)
        · rcases mem_run isTold with isOther | ⟨path, entries, isListed⟩
          · cases isOther
          · cases isListed
    · intro path asked ended
      rw [shownAtLast, arriving, List.filterMap_append]
      by_cases isOwn : task.location = location
      · -- the task asked for the folder that was asked for last
        have isAsked := current.same path asked _ (own isOwn)
        have isNamed := current.named path asked
        cases task with
        | start session requested =>
          rw [← isAsked] at isNamed
          cases isNamed
        | list target folder =>
          obtain rfl : target = location := isOwn
          obtain rfl : folder = path := isAsked
          obtain ⟨folder, rfl⟩ := Option.isSome_iff_exists.mp isNamed
          obtain ⟨entries, isRun⟩ :=
            @run_list target answers folder (succeeds folder isTask)
          have isListed : CoreEvent.listedAt target (.listed target folder entries) =
              some folder := if_pos rfl
          rw [isRun, List.filterMap_cons_some isListed, List.filterMap_nil,
            List.getLast?_concat, Option.some_or]
      · have silent : (task.run answers).filterMap (CoreEvent.listedAt location) = [] := by
          rw [List.filterMap_eq_nil_iff]
          intro told isTold
          rcases mem_run isTold with rfl | ⟨folder, entries, rfl⟩
          · rfl
          · exact if_neg isOwn
        rw [silent, List.append_nil]
        exact current.settled path asked (elsewhere isOwn ▸ ended)

/-! ### Runs -/

theorem current_next (current : Current location system) {input : ListingInput}
    (succeeds : system.Succeeds location input) (waits : system.Waits setup location input) :
    Current location (system.next setup input) := by
  cases input with
  | key pressed elsewhere =>
    have keeps := App.keeps_applyKey setup elsewhere system.app pressed
    exact current.goes (goes_of_keeps keeps current.isOpen (List.Subset.refl _) rfl) waits
  | deliver =>
    cases isNext : system.events with
    | nil =>
      rw [next, isNext]
      exact current
    | cons told events =>
      have isStep : system.next setup .deliver =
          { system with app := system.app.applyCoreEvent setup told, events } := by
        rw [next, isNext]
      rw [Waits, isStep] at waits
      rw [isStep]
      exact current.goes (goes_deliver current isNext) waits
  | take isLive => exact current_take current succeeds
  | connect name shellAvailable requested =>
    exact current_connect current name shellAvailable requested
  | again session name shellAvailable => exact current_again current session name shellAvailable
  | finish index answers => exact current_finish current succeeds
  | tell told => exact current_tell current succeeds

theorem current_after (current : Current location system) {inputs : List ListingInput}
    (successful : Successful setup location system inputs)
    (orderly : Orderly setup location system inputs) :
    Current location (system.after setup inputs) := by
  induction inputs generalizing system with
  | nil => exact current
  | cons input inputs ih =>
    obtain ⟨succeeds, allSucceed⟩ := successful
    obtain ⟨waits, allWait⟩ := orderly
    exact ih (current_next current succeeds waits) allSucceed allWait

/-- The panel shows the folder that was asked for last when all listings have ended. -/
theorem shows_asked (setup : Setup) (localPath : Path) (sortSpec : SortSpec) (showHidden : Bool)
    {location : Location} {inputs : List ListingInput}
    (successful : Successful setup location (start setup localPath sortSpec showHidden) inputs)
    (orderly : Orderly setup location (start setup localPath sortSpec showHidden) inputs)
    {path : Option Path}
    (asked : ((start setup localPath sortSpec showHidden).after setup inputs).app.asked location =
      some path)
    (finished : ((start setup localPath sortSpec showHidden).after setup inputs).Finished
      location) :
    ((start setup localPath sortSpec showHidden).after setup inputs).app.place location = path := by
  have current := current_after (current_start setup localPath sortSpec showHidden location)
    successful orderly
  have settled := current.settled path asked finished.ended
  rw [shownAtLast, finished.arrived] at settled
  exact settled

/-! ### Two folders asked for in a row -/

/-- Enter opens a folder, and the arrow goes to the next one. -/
def arrowSetup : Setup where
  lower := fun text => text
  mapKey key := match key.code with
    | .enter => .open
    | .down => .down
    | _ => .noop

/-- A home folder with two others. -/
def homeAnswers : FolderAnswers where
  home := .ok ⟨"/home"⟩
  list path := .ok (if path = ⟨"/home"⟩ then [⟨"a", ⟨"/home/a"⟩, true, 0⟩, ⟨"b", ⟨"/home/b"⟩, true, 0⟩]
    else [])

def press (code : KeyCode) : ListingInput := .key code.plain .quiet

def takeNext : ListingInput := .take fun _ => true

/-- The home folder is listed. -/
def opened : List ListingInput := [takeNext, .finish 0 homeAnswers, .deliver]

/-- The first folder is entered. -/
def entered : List ListingInput :=
  opened ++ [press .down, press .enter, takeNext, .finish 0 homeAnswers, .deliver]

def arrows : ListingSystem := start arrowSetup ⟨"/home"⟩ .default false

theorem shows_asked_entered :
    (arrows.after arrowSetup entered).app.place .local = some ⟨"/home/a"⟩ := by
  have successful : Successful arrowSetup .local arrows entered :=
    ⟨fun _ _ => rfl, fun _ _ => rfl, trivial, trivial, trivial, fun _ _ => rfl, fun _ _ => rfl,
      trivial, trivial⟩
  have orderly : Orderly arrowSetup .local arrows entered := by
    unfold Orderly
    decide
  exact shows_asked arrowSetup ⟨"/home"⟩ .default false successful orderly (by decide)
    ⟨by decide, by decide⟩

/-- Both folders are entered, and the listing of the second one ends first. -/
def overtaken : List ListingInput :=
  opened ++ [press .down, press .enter, press .down, press .enter, takeNext, takeNext,
    .finish 1 homeAnswers, .finish 0 homeAnswers, .deliver, .deliver]

/-- The panel shows the folder that was asked for first. -/
theorem shows_asked_fails :
    Successful arrowSetup .local arrows overtaken ∧
      (arrows.after arrowSetup overtaken).Finished .local ∧
      (arrows.after arrowSetup overtaken).app.asked .local = some (some ⟨"/home/b"⟩) ∧
      (arrows.after arrowSetup overtaken).app.place .local = some ⟨"/home/a"⟩ := by
  have successful : Successful arrowSetup .local arrows overtaken :=
    ⟨fun _ _ => rfl, fun _ _ => rfl, trivial, trivial, trivial, trivial, trivial, fun _ _ => rfl,
      fun _ _ => rfl, fun _ _ => rfl, fun _ _ => rfl, trivial, trivial, trivial⟩
  exact ⟨successful, ⟨by decide, by decide⟩, by decide,
    by decide⟩

end ListingSystem

end Porthmos
