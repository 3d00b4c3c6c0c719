import Porthmos.AppQuestions

/-!
# Runs of questions

A step keeps the account of what was asked, as long as no event takes away what is shown.  So
through every such run each question is shown, waits in a queue, was withdrawn or was answered,
each of them once.
-/

namespace Porthmos

/-- What the core asks with an event. -/
def Input.asked : Input → List Ask
  | .event (.question requestId _) => [.request requestId]
  | .event (.editQuestion editId _ _) => [.edit editId]
  | .event (.conflictsFound batchId _) => [.batch batchId]
  | _ => []

/-- Whether an event opens and closes no dialog. -/
def CoreEvent.isPlain : CoreEvent → Bool
  | .question _ _ | .profiles _ | .profileSaved | .conflictsFound _ _ | .conflictsWithdrawn _
  | .editQuestion _ _ _ => false
  | _ => true

/-- What the core takes back with an event. -/
def Input.withdrawn (app : App) : Input → List Ask
  | .event (.conflictsWithdrawn batchIds) => app.withdrawn batchIds
  | _ => []

namespace App

/-- What the open dialog asks for. -/
def shown (app : App) : List Ask :=
  match app.dialog, app.pendingAction with
  | some (.conflict _), _ => (app.conflictPrompts.head?.map fun prompt =>
    Ask.batch prompt.batchId).toList
  | some _, some pending => pending.ask.toList
  | _, _ => []

/-- The batches that wait behind the dialog. -/
def waiting (app : App) : List ConflictPrompt :=
  match app.dialog with
  | some (.conflict _) => app.conflictPrompts.tail
  | _ => app.conflictPrompts

/-- What waits in the queues. -/
def queued (app : App) : List Ask :=
  (app.editQuestions.map fun prompt => Ask.edit prompt.editId) ++
    app.waiting.map fun prompt => Ask.batch prompt.batchId

variable {setup : Setup} {elsewhere : Elsewhere} {before after app : App} {input : Input}

theorem count_held (fits : app.Fits) (ask : Ask) :
    app.held.count ask = app.shown.count ask + app.queued.count ask := by
  unfold held shown queued waiting
  cases isOpen : app.dialog with
  | none =>
    have idle := fits.idle isOpen
    simp only [idle.pendingAction, Option.bind_none, Option.toList_none, List.nil_append,
      List.count_append, List.count_nil]
    omega
  | some dialog =>
    cases dialog with
    | conflict dialog =>
      rw [fits.resolves isOpen]
      cases app.conflictPrompts with
      | nil => simp [PendingAction.ask]
      | cons prompt rest =>
        simp only [Option.bind_some, PendingAction.ask, Option.toList_none, List.nil_append,
          List.map_cons, List.head?_cons, Option.map_some, Option.toList_some, List.tail_cons,
          List.count_append, List.count_cons, List.count_nil]
        omega
    | _ =>
      cases app.pendingAction with
      | none => simp
      | some pending =>
        simp only [Option.bind_some, List.count_append]
        omega

/-! ### States where what waits has a dialog before it -/

/-- No question about an edit waits without a dialog. -/
def Edits (app : App) : Prop := app.dialog = none → app.editQuestions = []

/-- No batch waits without a dialog, but for the search. -/
def Batches (app : App) : Prop :=
  app.dialog = none → app.screen ≠ .search → app.conflictPrompts = []

structure Tidy (app : App) : Prop extends Sound app where
  asking : app.Asking
  edits : app.Edits
  batches : app.Batches

theorem Edits.aside (edits : before.Edits) (aside : Aside before after) : after.Edits := by
  unfold Edits
  rw [aside.dialog, aside.editQuestions]
  exact edits

theorem Batches.aside (batches : before.Batches) (aside : Aside before after)
    (search : before.screen = .search → after.screen = .search) : after.Batches := by
  unfold Batches
  rw [aside.dialog, aside.conflictPrompts]
  intro closed outside
  exact batches closed fun inSearch => outside (search inSearch)

theorem screen_openNextConflictPrompt (app : App) :
    app.openNextConflictPrompt.screen = app.screen := by
  rcases openNextConflictPrompt_cases app with same | ⟨_, _, _, _, _, _, _, eq⟩
  · rw [same]
  · rw [eq]
    rfl

theorem dialog_of_asking {prompt : ConflictPrompt} (asking : none ∈ prompt.answers)
    (length : prompt.answers.length = prompt.files.length) :
    ∃ dialog, prompt.dialog = some dialog := by
  cases isCurrent : prompt.current with
  | none =>
    have all := List.findIdx?_eq_none_iff.mp isCurrent none asking
    exact absurd all nofun
  | some index =>
    obtain ⟨lt, _⟩ := List.findIdx?_eq_some_iff_getElem.mp isCurrent
    rw [length] at lt
    unfold ConflictPrompt.dialog
    rw [isCurrent, Option.bind_some, List.getElem?_eq_getElem lt]
    exact ⟨_, rfl⟩

theorem batches_openNextConflictPrompt (sound : app.Sound) (asking : app.Asking) :
    app.openNextConflictPrompt.Batches := by
  intro closed outside
  unfold openNextConflictPrompt at closed outside ⊢
  by_cases busy : app.dialog.isSome ∨ app.screen = .search
  · rw [if_pos busy] at closed outside
    rcases busy with isOpen | inSearch
    · rw [closed] at isOpen
      exact absurd isOpen nofun
    · exact absurd inSearch outside
  · rw [if_neg busy] at closed ⊢
    cases front : app.conflictPrompts with
    | nil =>
      rw [List.head?_nil, Option.bind_none]
      exact front
    | cons prompt rest =>
      have member : prompt ∈ app.conflictPrompts := front ▸ List.mem_cons_self
      obtain ⟨dialog, isShown⟩ := dialog_of_asking (asking prompt member)
        (sound.lengths prompt member)
      rw [front, List.head?_cons, Option.bind_some, isShown] at closed
      exact absurd closed nofun

theorem edits_openNextConflictPrompt (edits : app.Edits) : app.openNextConflictPrompt.Edits := by
  rcases openNextConflictPrompt_cases app with same | ⟨_, _, _, _, _, _, _, eq⟩
  · rw [same]
    exact edits
  · rw [eq]
    exact fun closed => absurd closed nofun

theorem batches_announceMissingHosts (batches : app.Batches) :
    app.announceMissingHosts.Batches := by
  rcases announceMissingHosts_cases app with same | ⟨_, _, _, eq⟩
  · rw [same]
    exact batches
  · rw [eq]
    exact fun closed => absurd closed nofun

theorem edits_announceMissingHosts (edits : app.Edits) : app.announceMissingHosts.Edits := by
  rcases announceMissingHosts_cases app with same | ⟨_, _, _, eq⟩
  · rw [same]
    exact edits
  · rw [eq]
    exact fun closed => absurd closed nofun

theorem batches_openNextEditQuestion (batches : app.Batches) :
    app.openNextEditQuestion.Batches := by
  rcases openNextEditQuestion_cases app with ⟨same, _⟩ | ⟨_, _, _, _, _, _, _, _, _, eq⟩
  · rw [same]
    exact batches
  · rw [eq]
    exact fun closed => absurd closed nofun

theorem edits_openNextEditQuestion (app : App) : app.openNextEditQuestion.Edits := by
  rcases openNextEditQuestion_cases app with ⟨same, edits⟩ | ⟨_, _, _, _, _, _, _, _, _, eq⟩
  · rw [same]
    exact edits
  · rw [eq]
    exact fun closed => absurd closed nofun

theorem Tidy.own (tidy : before.Tidy) (closed : before.dialog = none)
    (outside : before.screen ≠ .search) (own : Own before after) : after.Tidy where
  toSound := tidy.toSound.own own
  asking := tidy.asking.of_eq own.conflictPrompts
  edits := fun _ => own.editQuestions.trans (tidy.edits closed)
  batches := fun _ _ => own.conflictPrompts.trans (tidy.batches closed outside)

theorem Tidy.aside (tidy : before.Tidy) (aside : Aside before after)
    (screen : after.screen = before.screen) : after.Tidy where
  toSound := tidy.toSound.aside aside fun inSearch _ => screen ▸ inSearch
  asking := tidy.asking.of_eq aside.conflictPrompts
  edits := tidy.edits.aside aside
  batches := tidy.batches.aside aside fun inSearch => screen.trans inSearch

/-! ### Keys -/

theorem batches_leaveSearch (sound : app.Sound) (asking : app.Asking) (closed : app.dialog = none) :
    app.leaveSearch.Batches := by
  have ended : Aside app { app with search := none } := ⟨⟨rfl, rfl, rfl, rfl⟩, rfl, rfl⟩
  have sent : Aside app (App.send { app with search := none } .other) := ended.trans (.send _ rfl)
  have quit := sent.trans (.setScreen _ .files)
  exact batches_openNextConflictPrompt (sound.own (quit.own (sound.fits.idle closed)))
    (asking.of_eq quit.conflictPrompts)

theorem edits_leaveSearch (edits : app.Edits) : app.leaveSearch.Edits := by
  have ended : Aside app { app with search := none } := ⟨⟨rfl, rfl, rfl, rfl⟩, rfl, rfl⟩
  have sent : Aside app (App.send { app with search := none } .other) := ended.trans (.send _ rfl)
  exact edits_openNextConflictPrompt (edits.aside (sent.trans (.setScreen _ .files)))

theorem tidy_applySearchKey (elsewhere : Elsewhere) (tidy : app.Tidy) (closed : app.dialog = none)
    (key : KeyEvent) : (app.applySearchKey elsewhere key).Tidy := by
  have handled := (settles_applySearchKey elsewhere tidy.toSound closed key).handled
  have sent : (app.send .other).Tidy := tidy.aside (.send app rfl) rfl
  have batchesLeft := batches_leaveSearch tidy.toSound tidy.asking closed
  have editsLeft := edits_leaveSearch tidy.edits
  refine ⟨handled.sound, handled.asking tidy.asking, ?_, ?_⟩
  all_goals
    unfold applySearchKey
    split
    · first | exact tidy.edits | exact tidy.batches
    · split_ifs
      · first | exact sent.edits | exact sent.batches
      · split
        · first | exact tidy.edits | exact tidy.batches
        · first | exact sent.edits | exact sent.batches
        · unfold openSearchResult
          dsimp only
          split
          · first | exact editsLeft | exact batchesLeft
          · first | exact editsLeft | exact batchesLeft
        · first | exact tidy.edits | exact tidy.batches
        · first | exact editsLeft | exact batchesLeft

theorem tidy_applyKey (setup : Setup) (elsewhere : Elsewhere) (tidy : app.Tidy) (key : KeyEvent) :
    (app.applyKey setup elsewhere key).Tidy := by
  unfold applyKey
  split
  · exact tidy.aside ⟨⟨rfl, rfl, rfl, rfl⟩, rfl, rfl⟩ rfl
  · split
    · rename_i dialog isOpen
      have outcome := handled_applyOutcome elsewhere tidy.toSound isOpen key
      have handled := handled_applyDialogKey elsewhere tidy.toSound isOpen key
      have last := handled.trans (settles_afterDialogKey handled.sound).handled
      have batches : (app.applyDialogKey elsewhere dialog key).Batches :=
        batches_announceMissingHosts
          (batches_openNextConflictPrompt outcome.sound (outcome.asking tidy.asking))
      exact ⟨last.sound, last.asking tidy.asking, edits_openNextEditQuestion _,
        batches_openNextEditQuestion batches⟩
    · rename_i closed
      have idle := tidy.fits.idle closed
      split
      · exact tidy_applySearchKey elsewhere tidy closed key
      · rename_i outside
        split
        · exact tidy.own closed outside (own_applyFilterKey setup elsewhere idle key)
        · exact tidy.own closed outside (own_applyAction setup elsewhere idle _)

/-! ### Events -/

theorem sound_dropConflictPrompts (sound : app.Sound) (batchIds : List Nat) :
    (app.dropConflictPrompts batchIds).Sound :=
  (sound_keeping sound batchIds).openNextConflictPrompt

theorem asking_keeping (asking : app.Asking) (batchIds : List Nat) :
    (if app.showsDropped batchIds then (app.keeping batchIds).closeDialog
      else app.keeping batchIds).Asking := by
  have kept : (app.keeping batchIds).Asking :=
    fun prompt member => asking prompt (List.mem_filter.mp member).1
  split_ifs
  · exact kept
  · exact kept

theorem aside_applySyncPlan (app : App) (syncId : Nat) : Aside app (app.applySyncPlan syncId) := by
  unfold applySyncPlan
  split
  · split_ifs
    · exact .refl app
    · exact .send app rfl
  · have loaded : Aside app { app with syncId := some syncId } := ⟨⟨rfl, rfl, rfl, rfl⟩, rfl, rfl⟩
    dsimp only
    split_ifs
    · exact loaded.trans (.setScreen _ _)
    · exact loaded

theorem aside_withdrawSync (app : App) (syncIds : List Nat) :
    Aside app (app.withdrawSync syncIds) := by
  have cleared : Aside app { app with syncId := none } := ⟨⟨rfl, rfl, rfl, rfl⟩, rfl, rfl⟩
  unfold withdrawSync
  dsimp only
  split_ifs
  · exact cleared.trans (.setScreen _ _)
  · exact cleared
  · exact .refl app

theorem search_applySyncPlan (app : App) (syncId : Nat) :
    (app.applySyncPlan syncId).screen = .search ↔ app.screen = .search := by
  unfold applySyncPlan
  split
  · split_ifs <;> rfl
  · dsimp only
    split_ifs with free
    · rw [free.1]
      exact ⟨nofun, nofun⟩
    · rfl

theorem search_withdrawSync (app : App) (syncIds : List Nat) :
    (app.withdrawSync syncIds).screen = .search ↔ app.screen = .search := by
  unfold withdrawSync
  dsimp only
  split_ifs with _ inSync
  · rw [inSync]
    exact ⟨nofun, nofun⟩
  · rfl
  · rfl

/-- The events that touch no question, and where they leave the screen. -/
theorem aside_event (app : App) {told : CoreEvent} (plain : told.isPlain = true) :
    Aside app (app.applyCoreEvent setup told) ∧
      ((app.applyCoreEvent setup told).screen = .search ↔ app.screen = .search) := by
  cases told
  case syncPlanReady syncId => exact ⟨aside_applySyncPlan app syncId, search_applySyncPlan app syncId⟩
  case syncWithdrawn syncIds =>
      exact ⟨aside_withdrawSync app syncIds, search_withdrawSync app syncIds⟩
  case connected session name shellAvailable =>
      unfold applyCoreEvent applyConnected
      dsimp only
      split
      · exact ⟨.setSessions app _, .rfl⟩
      · exact ⟨.setSessions app _, .rfl⟩
  case listed location path entries =>
      cases location with
      | «local» => exact ⟨⟨⟨rfl, rfl, rfl, rfl⟩, rfl, rfl⟩, .rfl⟩
      | session id => exact ⟨.setSessions app _, .rfl⟩
  case locationChanged location =>
      unfold applyCoreEvent relist
      dsimp only
      repeat' split
      · exact ⟨.send app rfl, .rfl⟩
      · exact ⟨.send app rfl, .rfl⟩
      · exact ⟨.refl app, .rfl⟩
  case disconnected session => exact ⟨.setSessions app _, .rfl⟩
  case sessionCapabilities session preservesTimes => exact ⟨.setSessions app _, .rfl⟩
  case question | profiles | profileSaved | conflictsFound | conflictsWithdrawn | editQuestion =>
      exact absurd plain nofun
  all_goals exact ⟨⟨⟨rfl, rfl, rfl, rfl⟩, rfl, rfl⟩, .rfl⟩

/-- Whatever is given, the state stays sound. -/
theorem Sound.next (sound : app.Sound) (setup : Setup) (input : Input) :
    (input.next setup app).Sound := by
  cases input with
  | key pressed elsewhere => exact (handled_applyKey setup elsewhere sound pressed).sound
  | event told =>
    have plain {told : CoreEvent} (isPlain : told.isPlain = true) :
        (app.applyCoreEvent setup told).Sound :=
      have found := aside_event app isPlain
      sound.aside found.1 fun inSearch _ => found.2.mp inSearch
    change (app.applyCoreEvent setup told).Sound
    cases told
    case question requestId question => exact sound_ask sound requestId question
    case profiles entries =>
        have listed : Aside app { app with connections := entries } :=
          ⟨⟨rfl, rfl, rfl, rfl⟩, rfl, rfl⟩
        have isSound := (Settles.aside sound listed rfl).sound
        exact (Settles.announceMissingHosts isSound).sound
    case profileSaved => exact sound.close
    case conflictsFound batchId files => exact (sound_queue sound batchId files).openNextConflictPrompt
    case conflictsWithdrawn batchIds => exact sound_dropConflictPrompts sound batchIds
    case editQuestion editId name kind => exact (sound_askEditQuestion sound _).openNextEditQuestion
    all_goals exact plain rfl

end App

/-! ### Steps -/

/-- A step that takes nothing away that is shown: no question replaces another one, a profile is saved
only while nothing is asked, and the last conflict is withdrawn only while no question about an
edit waits.  A batch of conflicts has a file, as the core has it. -/
def Input.Gentle (app : App) : Input → Prop
  | .event (.question _ _) => ∀ requestId, Ask.request requestId ∉ app.shown
  | .event .profileSaved =>
    app.shown = [] ∧ app.editQuestions = [] ∧ (app.screen = .search ∨ app.conflictPrompts = [])
  | .event (.conflictsWithdrawn batchIds) =>
    app.showsDropped batchIds = true →
      (∀ prompt ∈ app.conflictPrompts, prompt.batchId ∈ batchIds) → app.editQuestions = []
  | .event (.conflictsFound _ files) => files ≠ []
  | _ => True

namespace App

variable {setup : Setup} {elsewhere : Elsewhere} {before after app : App} {input : Input}

theorem ask_of_shown (fits : app.Fits) {ask : Ask}
    (asked : app.pendingAction.bind PendingAction.ask = some ask) : ask ∈ app.shown := by
  obtain ⟨pending, isPending, isAsk⟩ := Option.bind_eq_some_iff.mp asked
  unfold shown
  cases isOpen : app.dialog with
  | none =>
    have isSome := fits.isOpen isPending
    rw [isOpen] at isSome
    exact absurd isSome nofun
  | some dialog =>
    cases dialog with
    | conflict dialog =>
      have resolves := fits.resolves isOpen
      rw [isPending] at resolves
      cases resolves
      exact absurd isAsk nofun
    | _ =>
      rw [isPending]
      simp [isAsk]

/-- What a step keeps: what waits has a dialog before it, and the account is right. -/
structure Accounts (before after : App) (asked withdrawn : List Ask) : Prop where
  tidy : after.Tidy
  balance : ∀ ask, after.balance ask + withdrawn.count ask = before.balance ask + asked.count ask

theorem Accounts.of_aside (tidy : app.Tidy) (aside : Aside app after)
    (search : after.screen = .search ↔ app.screen = .search) : Accounts app after [] [] where
  tidy := by
    refine ⟨tidy.toSound.aside aside fun inSearch _ => search.mp inSearch,
      tidy.asking.of_eq aside.conflictPrompts, tidy.edits.aside aside, ?_⟩
    exact tidy.batches.aside aside search.mpr
  balance := fun ask => by rw [aside.balance]

theorem accounts_question (tidy : app.Tidy) {requestId : Nat} {question : Question}
    (gentle : ∀ requestId, Ask.request requestId ∉ app.shown) :
    Accounts app (app.ask requestId question) [.request requestId] [] := by
  have free : ¬ app.AsksRequest := fun ⟨other, asked⟩ => gentle other (ask_of_shown tidy.fits asked)
  obtain ⟨dialog, pending, _, _, _, eq⟩ := app.ask_cases requestId question
  have isOpen : (app.ask requestId question).dialog ≠ none := by
    rw [eq]
    exact nofun
  constructor
  · refine ⟨sound_ask tidy.toSound requestId question, ?_, fun closed => absurd closed isOpen,
      fun closed => absurd closed isOpen⟩
    rw [eq]
    exact tidy.asking
  · exact balance_ask tidy.toSound free requestId question

theorem accounts_profileSaved (tidy : app.Tidy) (gentle : app.shown = [] ∧ app.editQuestions = [] ∧
      (app.screen = .search ∨ app.conflictPrompts = [])) :
    Accounts app app.closeDialog [] [] := by
  obtain ⟨nothing, edits, batches⟩ := gentle
  constructor
  · refine ⟨tidy.toSound.close, tidy.asking, fun _ => edits, fun _ outside => ?_⟩
    rcases batches with inSearch | empty
    · exact absurd inSearch outside
    · exact empty
  · intro ask
    rw [balance_closeDialog]
    cases asked : app.pendingAction.bind PendingAction.ask with
    | none => rfl
    | some ask =>
      have isShown := ask_of_shown tidy.fits asked
      rw [nothing] at isShown
      exact absurd isShown nofun

theorem accounts_profiles (tidy : app.Tidy) (entries : List ConnectionEntry) :
    Accounts app (announceMissingHosts { app with connections := entries }) [] [] := by
  have listed : Aside app { app with connections := entries } := ⟨⟨rfl, rfl, rfl, rfl⟩, rfl, rfl⟩
  have isTidy := tidy.aside listed rfl
  have announced := (Settles.announceMissingHosts isTidy.toSound).handled
  constructor
  · exact ⟨announced.sound, announced.asking isTidy.asking,
      edits_announceMissingHosts isTidy.edits, batches_announceMissingHosts isTidy.batches⟩
  · intro ask
    rw [announced.balance, listed.balance]

theorem accounts_conflictsFound (tidy : app.Tidy) (batchId : Nat) {files : List ConflictInfo}
    (gentle : files ≠ []) :
    Accounts app (app.queueConflictPrompt batchId files) [.batch batchId] [] := by
  have queued := sound_queue tidy.toSound batchId files
  have opened := (Settles.openNextConflictPrompt queued).handled
  have asking : (app.setConflictPrompts (app.conflictPrompts ++ [.new batchId files])).Asking := by
    intro prompt member
    rcases List.mem_append.mp member with earlier | new
    · exact tidy.asking prompt earlier
    · cases List.mem_singleton.mp new
      exact List.mem_replicate.mpr ⟨by simpa using gentle, rfl⟩
  constructor
  · exact ⟨opened.sound, opened.asking asking, edits_openNextConflictPrompt tidy.edits,
      batches_openNextConflictPrompt queued asking⟩
  · intro ask
    change App.balance (app.setConflictPrompts _).openNextConflictPrompt ask + _ = _
    rw [opened.balance]
    unfold App.balance held
    simp only [setConflictPrompts, App.answered, List.map_append, List.map_cons, List.map_nil,
      List.count_append, ConflictPrompt.new, List.count_nil]
    omega

theorem accounts_conflictsWithdrawn (tidy : app.Tidy) {batchIds : List Nat}
    (gentle : app.showsDropped batchIds = true →
      (∀ prompt ∈ app.conflictPrompts, prompt.batchId ∈ batchIds) → app.editQuestions = []) :
    Accounts app (app.dropConflictPrompts batchIds) [] (app.withdrawn batchIds) := by
  have kept := sound_keeping tidy.toSound batchIds
  have asking := asking_keeping tidy.asking batchIds
  have opened := (Settles.openNextConflictPrompt kept).handled
  have edits : (app.dropConflictPrompts batchIds).Edits := by
    by_cases dropped : app.showsDropped batchIds = true
    · by_cases all : ∀ prompt ∈ app.conflictPrompts, prompt.batchId ∈ batchIds
      · have none : app.editQuestions = [] := gentle dropped all
        apply edits_openNextConflictPrompt
        rw [if_pos dropped]
        exact fun _ => none
      · -- another batch is shown at once
        intro closed
        push Not at all
        obtain ⟨prompt, member, isKept⟩ := all
        have remains : prompt ∈ (app.dropConflictPrompts batchIds).conflictPrompts := by
          have same := (waits_openNextConflictPrompt (if app.showsDropped batchIds then
            (app.keeping batchIds).closeDialog else app.keeping batchIds)).conflictPrompts
          unfold dropConflictPrompts
          change prompt ∈ (App.openNextConflictPrompt (if app.showsDropped batchIds then
            (app.keeping batchIds).closeDialog else app.keeping batchIds)).conflictPrompts
          rw [same, if_pos dropped]
          exact List.mem_filter.mpr ⟨member, decide_eq_true isKept⟩
        have outside : (app.dropConflictPrompts batchIds).screen ≠ .search := by
          obtain ⟨shown, isOpen⟩ := tidy.fits.conflict_of_resolves
            (of_decide_eq_true (Bool.and_eq_true_iff.mp dropped).1)
          have screen := screen_openNextConflictPrompt (if app.showsDropped batchIds then
            (app.keeping batchIds).closeDialog else app.keeping batchIds)
          rw [if_pos dropped] at screen
          unfold dropConflictPrompts
          dsimp only
          rw [if_pos dropped]
          exact screen ▸ tidy.outside shown isOpen
        have empty := batches_openNextConflictPrompt kept asking closed outside
        exact absurd (empty ▸ remains) List.not_mem_nil
    · apply edits_openNextConflictPrompt
      rw [if_neg dropped]
      exact tidy.edits
  constructor
  · exact ⟨opened.sound, opened.asking asking, edits, batches_openNextConflictPrompt kept asking⟩
  · intro ask
    change App.balance (App.openNextConflictPrompt (if app.showsDropped batchIds then
      (app.keeping batchIds).closeDialog else app.keeping batchIds)) ask + _ = _
    rw [opened.balance, balance_closeKeeping]
    exact balance_keeping app batchIds ask

theorem accounts_editQuestion (tidy : app.Tidy) (editId : Nat) (name : String)
    (kind : EditQuestionKind) :
    Accounts app (app.askEditQuestion editId name kind) [.edit editId] [] := by
  have asked := sound_askEditQuestion tidy.toSound ⟨editId, printable name, kind⟩
  have opened := (Settles.openNextEditQuestion asked).handled
  constructor
  · exact ⟨opened.sound, opened.asking tidy.asking, edits_openNextEditQuestion _,
      batches_openNextEditQuestion tidy.batches⟩
  · intro ask
    unfold askEditQuestion
    rw [opened.balance]
    exact balance_askEditQuestion app _ ask

/-- A step keeps the account. -/
theorem accounts_next (setup : Setup) (tidy : app.Tidy) (gentle : input.Gentle app) :
    Accounts app (input.next setup app) input.asked (input.withdrawn app) := by
  cases input with
  | key pressed elsewhere =>
    refine ⟨tidy_applyKey setup elsewhere tidy pressed, fun ask => ?_⟩
    change (app.applyKey setup elsewhere pressed).balance ask + 0 = _
    rw [(handled_applyKey setup elsewhere tidy.toSound pressed).balance]
    rfl
  | event told =>
    have plain {told : CoreEvent} (isPlain : told.isPlain = true) :
        Accounts app (app.applyCoreEvent setup told) [] [] :=
      have found := aside_event app isPlain
      .of_aside tidy found.1 found.2
    change Accounts app (app.applyCoreEvent setup told) _ _
    cases told
    case question requestId question => exact accounts_question tidy gentle
    case profiles entries => exact accounts_profiles tidy entries
    case profileSaved => exact accounts_profileSaved tidy gentle
    case conflictsFound batchId files => exact accounts_conflictsFound tidy batchId gentle
    case conflictsWithdrawn batchIds => exact accounts_conflictsWithdrawn tidy gentle
    case editQuestion editId name kind => exact accounts_editQuestion tidy editId name kind
    all_goals exact plain rfl

/-! ### Runs -/

/-- What the core takes back in the course of a run. -/
def withdrawnIn (setup : Setup) (app : App) : List Input → List Ask
  | [] => []
  | input :: rest => input.withdrawn app ++ withdrawnIn setup (input.next setup app) rest

/-- Every step of a run is gentle. -/
def GentleRun (setup : Setup) (app : App) : List Input → Prop
  | [] => True
  | input :: rest => input.Gentle app ∧ GentleRun setup (input.next setup app) rest

/-- Whatever was asked is in one place, and what waits has a dialog before it. -/
structure Accounted (asked withdrawn : List Ask) (app : App) : Prop where
  once : ∀ ask, asked.count ask =
    app.answered.count ask + withdrawn.count ask + app.shown.count ask + app.queued.count ask
  edits : app.editQuestions ≠ [] → app.dialog.isSome = true
  batches : app.waiting ≠ [] → app.screen ≠ .search → app.dialog.isSome = true

theorem accounts_of_run (setup : Setup) {inputs : List Input} (tidy : app.Tidy)
    (gentle : GentleRun setup app inputs) :
    Accounts app (app.after setup inputs) (inputs.flatMap Input.asked)
      (withdrawnIn setup app inputs) := by
  induction inputs generalizing app with
  | nil => exact ⟨tidy, fun _ => rfl⟩
  | cons input rest ih =>
    have step := accounts_next setup tidy gentle.1
    have later := ih step.tidy gentle.2
    refine ⟨later.tidy, fun ask => ?_⟩
    have now := step.balance ask
    have soon := later.balance ask
    simp only [List.flatMap_cons, withdrawnIn, List.count_append]
    change ((input.next setup app).after setup rest).balance ask + _ = _
    omega

theorem tidy_new (setup : Setup) (localPath : Path) (sortSpec : SortSpec) (showHidden : Bool) :
    (App.new setup localPath sortSpec showHidden).Tidy where
  toSound := (Idle.ownDialog ⟨rfl, rfl⟩).sound nofun
  asking := nofun
  edits := fun _ => rfl
  batches := fun _ _ => rfl

theorem Tidy.accounted {asked withdrawn : List Ask} (tidy : app.Tidy)
    (balance : ∀ ask, app.balance ask + withdrawn.count ask = asked.count ask) :
    Accounted asked withdrawn app where
  once := by
    intro ask
    rw [← balance ask, App.balance, count_held tidy.fits]
    omega
  edits := by
    intro waits
    cases isOpen : app.dialog with
    | none => exact absurd (tidy.edits isOpen) waits
    | some _ => rfl
  batches := by
    intro waits outside
    cases isOpen : app.dialog with
    | none =>
      unfold waiting at waits
      rw [isOpen] at waits
      exact absurd (tidy.batches isOpen outside) waits
    | some _ => rfl

/-- In every run of gentle steps each question is in one place, and what waits has a dialog
before it. -/
theorem accounted_of_run (setup : Setup) (localPath : Path) (sortSpec : SortSpec)
    (showHidden : Bool) (inputs : List Input)
    (gentle : GentleRun setup (App.new setup localPath sortSpec showHidden) inputs) :
    let start := App.new setup localPath sortSpec showHidden
    Accounted (inputs.flatMap Input.asked) (withdrawnIn setup start inputs)
      (start.after setup inputs) := by
  have tidy := tidy_new setup localPath sortSpec showHidden
  have accounts := accounts_of_run setup tidy gentle
  apply accounts.tidy.accounted
  intro ask
  rw [accounts.balance ask]
  have empty : (App.new setup localPath sortSpec showHidden).balance ask = 0 := rfl
  omega

end App

/-! ### Two questions at once -/

/-- A user who has bound no keys, and whose texts are in lower case. -/
def Setup.plain : Setup := ⟨fun text => text, fun _ => .noop⟩

/-- The screen at its start, in the home folder. -/
def App.home : App := .new .plain ⟨"/home"⟩ .default false

/-- An edit is asked about, a password comes before it and is refused. -/
def refusedPassword : List Input :=
  [.event (.editQuestion 5 "notes" .upload), .event (.question 0 (.password "me" "server")),
    .key KeyCode.esc.plain { Elsewhere.quiet with form := .cancelled }]

theorem App.accounted_of_run_refused :
    App.GentleRun .plain .home refusedPassword ∧
      App.Accounted [.edit 5, .request 0] [] (App.home.after .plain refusedPassword) := by
  have gentle : App.GentleRun .plain .home refusedPassword := by
    refine ⟨trivial, fun requestId asked => ?_, trivial, trivial⟩
    have shown : (Input.next .plain .home
      (.event (.editQuestion 5 "notes" .upload))).shown = [.edit 5] := by decide
    rw [shown] at asked
    exact absurd (List.mem_singleton.mp asked) nofun
  exact ⟨gentle, App.accounted_of_run .plain ⟨"/home"⟩ .default false refusedPassword gentle⟩

/-- Two connections ask for their passwords. -/
def twoPasswords : List Input :=
  [.event (.question 0 (.password "me" "first")), .event (.question 1 (.password "me" "second"))]

/-- The first of two questions is neither shown nor answered. -/
theorem App.accounted_of_run_fails :
    ¬ App.Accounted (twoPasswords.flatMap Input.asked)
      (App.withdrawnIn .plain .home twoPasswords) (App.home.after .plain twoPasswords) := by
  intro accounted
  exact absurd (accounted.once (.request 0)) (by decide)

end Porthmos
