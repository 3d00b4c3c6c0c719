import Porthmos.EngineConnecting

/-!
# Attempts to connect

While a connection is being made its profile is in `connecting`, so that it is not connected
twice.  The result of the task takes it out again; a panic of the task does not, since the
engine tells panics apart by their scope only.
-/

namespace Porthmos

open TransferQueue

/-- The engine, and for each message of its channel the profile whose connect task has sent it
as its last one. -/
structure Attempts where
  engine : Engine
  senders : List (Option String)

namespace Engine

/-- Whose message a step sends, if it sends one. -/
def sent (engine : Engine) : EngineStep → Option (Option String)
  | .report task told =>
    (engine.tasks.live.get? task).bind fun live => (live.work.report told).map fun _ => none
  | .finish task result =>
    (engine.tasks.live.get? task).bind fun live =>
      (live.work.result result).map fun _ => live.work.profile
  | .panic task => (engine.tasks.live.get? task).map fun live => live.work.profile
  | .elsewhere none => some none
  | .elsewhere (some (_, scope)) => if scope.isElsewhere then some none else none
  | _ => none

end Engine

namespace Attempts

def start (engine : Engine) : Attempts := ⟨engine, []⟩

def next (attempts : Attempts) (step : EngineStep) : Attempts where
  engine := step.next attempts.engine
  senders := match step with
    | .handle _ => attempts.senders.tail
    | _ => attempts.senders ++ (attempts.engine.sent step).toList

def after (attempts : Attempts) (steps : List EngineStep) : Attempts := steps.foldl next attempts

/-- The profiles in `connecting` are those whose connect task runs or whose last message waits. -/
def Connecting (attempts : Attempts) : Prop :=
  ∀ name, name ∈ attempts.engine.connecting ↔
    (∃ task live, attempts.engine.tasks.live.get? task = some live ∧ live.work = .connect name) ∨
      some name ∈ attempts.senders

/-- The names of the sessions and of what is being connected are pairwise distinct. -/
structure NamesApart (engine : Engine) : Prop where
  nodup : engine.connecting.Nodup
  sessions : ∀ first second firstLive secondLive, engine.sessions.get? first = some firstLive →
    engine.sessions.get? second = some secondLive → firstLive.name = secondLive.name →
    first = second
  apart : ∀ session live, engine.sessions.get? session = some live →
    live.name ∉ engine.connecting

/-- The step does not handle the panic of a connect task. -/
def Settles (attempts : Attempts) (step : EngineStep) : Prop :=
  ∀ moment name scope rest profile, step = .handle moment →
    attempts.engine.internal = .taskPanicked name scope :: rest →
    attempts.senders.head? ≠ some (some profile)

def SettlesAll : Attempts → List EngineStep → Prop
  | _, [] => True
  | attempts, step :: rest => attempts.Settles step ∧ SettlesAll (attempts.next step) rest

end Attempts

/-! ### What is kept -/

/-- The message may come from the connect task of the profile, or from no connect task. -/
inductive Fits : Internal → Option String → Prop
  | connected {name : String} {fs : FsTraits} : Fits (.connected name fs) (some name)
  | failed {name : String} : Fits (.connectFailed name) (some name)
  | panicked {name : String} : Fits (.taskPanicked "connect" .background) (some name)
  | other {message : Internal} (notConnected : ∀ name fs, message ≠ .connected name fs)
      (notFailed : ∀ name, message ≠ .connectFailed name) : Fits message none

namespace Attempts

/-- Each profile in `connecting` has one connect task, or one last message of it. -/
structure Tracked (attempts : Attempts) : Prop where
  bounded : attempts.engine.tasks.Bounded
  fits : List.Forall₂ Fits attempts.engine.internal attempts.senders
  count : ∀ name, attempts.engine.tasks.connects name + attempts.senders.count (some name) =
    attempts.engine.connecting.count name
  apart : NamesApart attempts.engine

variable {attempts : Attempts} {engine : Engine} {senders : List (Option String)} {step : EngineStep}
  {name : String}

theorem NamesApart.of_eq {before after : Engine} (apart : NamesApart before)
    (connecting : after.connecting = before.connecting)
    (fewer : ∀ session live, after.sessions.get? session = some live →
      before.sessions.get? session = some live) : NamesApart after := by
  constructor
  · exact connecting ▸ apart.nodup
  · intro first second firstLive secondLive isFirst isSecond
    exact apart.sessions first second firstLive secondLive (fewer _ _ isFirst) (fewer _ _ isSecond)
  · intro session live found
    exact connecting ▸ apart.apart session live (fewer _ _ found)

theorem Tracked.aside {before after : Engine} (tracked : Tracked ⟨before, senders⟩)
    (aside : Aside before after) : Tracked ⟨after, senders⟩ := by
  obtain ⟨bounded, same⟩ := aside.tasks tracked.bounded
  constructor
  · exact bounded
  · exact aside.internal ▸ tracked.fits
  · intro name
    change after.tasks.connects name + senders.count (some name) = after.connecting.count name
    rw [same, aside.connecting]
    exact tracked.count name
  · exact tracked.apart.of_eq aside.connecting fun session live found => aside.sessions ▸ found

theorem connects_eq_zero_iff {tasks : Tasks} : tasks.connects name = 0 ↔
      ¬ ∃ task live, tasks.live.get? task = some live ∧ live.work = .connect name := by
  constructor
  · rintro none ⟨task, live, found, connects⟩
    have counted := OrderedMap.le_total
      (fun _ live => if live.work.profile = some name then 1 else 0) found
    rw [connects, if_pos (show (Work.connect name).profile = some name from rfl)] at counted
    have positive : 1 ≤ tasks.connects name := counted
    omega
  · intro none
    refine OrderedMap.total_eq_zero fun task live found => if_neg fun isProfile => none ?_
    cases work : live.work with
    | connect other =>
      rw [work] at isProfile
      cases isProfile
      exact ⟨task, live, found, work⟩
    | _ =>
      rw [work] at isProfile
      cases isProfile

theorem Tracked.connecting (tracked : attempts.Tracked) : attempts.Connecting := by
  intro name
  have count := tracked.count name
  rw [← List.count_pos_iff, ← count, ← List.count_pos_iff (a := some name), Nat.add_pos_iff_pos_or_pos,
    Nat.pos_iff_ne_zero, Ne, connects_eq_zero_iff, not_not]

/-! ### Commands -/

theorem tracked_connect (tracked : Tracked ⟨engine, senders⟩) (profile : String) (found : Bool) :
    Tracked ⟨engine.connect profile found, senders⟩ := by
  unfold Engine.connect
  split_ifs with isSession isConnecting
  · exact tracked
  · exact tracked
  · constructor
    · exact tracked.bounded.spawn _
    · exact tracked.fits
    · intro name
      change (engine.tasks.spawn (.connect profile)).connects name + senders.count (some name) =
        (profile :: engine.connecting).count name
      have count := tracked.count name
      dsimp only at count
      have spawned : (engine.tasks.spawn (.connect profile)).connects name =
          engine.tasks.connects name + if profile = name then 1 else 0 :=
        tracked.bounded.connects_spawn profile name
      rw [spawned, List.count_cons]
      simp only [beq_iff_eq]
      omega
    · obtain ⟨nodup, sessions, apart⟩ := tracked.apart
      refine ⟨List.nodup_cons.mpr ⟨isConnecting, nodup⟩, sessions, ?_⟩
      intro session live isLive member
      rcases List.mem_cons.mp member with same | earlier
      · apply isSession
        exact List.any_eq_true.mpr
          ⟨live, OrderedMap.mem_values_iff.mpr ⟨session, isLive⟩, decide_eq_true same⟩
      · exact apart session live isLive earlier
  · exact tracked

theorem tracked_disconnect (tracked : Tracked ⟨engine, senders⟩) (session : Nat) :
    Tracked ⟨engine.disconnect session, senders⟩ := by
  unfold Engine.disconnect
  cases engine.sessions.get? session with
  | none => exact tracked
  | some live =>
    have left : Tracked ⟨{ engine with
        sessions := engine.sessions.erase session
        history := engine.history.rememberSession session live.name }, senders⟩ := by
      refine ⟨tracked.bounded, tracked.fits, tracked.count, tracked.apart.of_eq rfl ?_⟩
      intro other found isFound
      change (engine.sessions.erase session).get? other = some found at isFound
      rw [OrderedMap.get?_erase] at isFound
      split_ifs at isFound
      exact isFound
    exact left.aside ((((Aside.setTransfers _ _).trans (.cancelSessionTransfers _ _)).trans
      (.dropConflictReviews _ _)).trans (.setPlans _ _))

theorem tracked_applyCommand (tracked : Tracked ⟨engine, senders⟩) (moment : Moment)
    (command : Command) : Tracked ⟨engine.applyCommand moment command, senders⟩ := by
  cases command with
  | connect profile found => exact tracked_connect tracked profile found
  | disconnect session => exact tracked_disconnect tracked session
  | copy source entries target => exact tracked.aside (.copy _ _ _ _ _)
  | resolveConflicts batchId answers => exact tracked.aside (.resolveConflicts _ _ _ _)
  | cancelAllTransfers => exact tracked.aside (.cancelAllCopies _)
  | cancelRow kind => exact tracked.aside (.cancelRow _ _)
  | retryRow kind => exact tracked.aside (.retryRow _ _ _)
  | clearFinished => exact tracked.aside (.clearFinishedRows _ _)
  | clearHistory => exact tracked.aside (.setHistory _ _)
  | startSync session localDir remoteDir options => exact tracked.aside (.startSync _ _ _ _ _)
  | runSync syncId choices => exact tracked.aside (.runSync _ _ _)
  | cancelSync syncId => exact tracked.aside (.cancelSync _ _)
  | other => exact tracked

/-! ### Messages -/

/-- The message at the front is taken. -/
def take (engine : Engine) (rest : List Internal) (senders : List (Option String)) : Attempts :=
  ⟨engine.take rest, senders⟩

theorem Tracked.take_other {message : Internal} {rest : List Internal}
    (tracked : Tracked ⟨engine, none :: senders⟩) (front : engine.internal = message :: rest) :
    Tracked (take engine rest senders) := by
  obtain ⟨bounded, fits, count, apart⟩ := tracked
  dsimp only at fits
  rw [front, List.forall₂_cons] at fits
  refine ⟨bounded, fits.2, fun name => ?_, apart.of_eq rfl fun _ _ found => found⟩
  have counted := count name
  dsimp only at counted
  rwa [List.count_cons_of_ne (by simp)] at counted

/-- A profile is taken out of `connecting` together with the message of its task. -/
theorem Tracked.take_ended {message : Internal} {rest : List Internal}
    (tracked : Tracked ⟨engine, some name :: senders⟩) (front : engine.internal = message :: rest) :
    Tracked ⟨(engine.take rest).endConnecting name, senders⟩ := by
  obtain ⟨bounded, fits, count, apart⟩ := tracked
  dsimp only at fits
  rw [front, List.forall₂_cons] at fits
  refine ⟨bounded, fits.2, fun other => ?_, apart.nodup.filter _, apart.sessions, ?_⟩
  · change engine.tasks.connects other + senders.count (some other) =
      (engine.connecting.filter fun other => decide (other ≠ name)).count other
    have counted := count other
    dsimp only at counted
    by_cases same : other = name
    · subst same
      have atMostOne : engine.connecting.count other ≤ 1 :=
        List.nodup_iff_count_le_one.mp apart.nodup other
      rw [List.count_cons_self] at counted
      have gone : other ∉ engine.connecting.filter fun name => decide (name ≠ other) := by simp
      rw [List.count_eq_zero.mpr gone]
      omega
    · rw [List.count_cons_of_ne fun isName => same (Option.some.inj isName).symm] at counted
      rw [List.count_filter (by simpa using same)]
      exact counted
  · intro session live found member
    exact apart.apart session live found (List.mem_filter.mp member).1

/-- The session of a profile that was being connected is new by its name. -/
theorem Tracked.take_connected {fs : FsTraits} {rest : List Internal}
    (tracked : Tracked ⟨engine, some name :: senders⟩)
    (front : engine.internal = .connected name fs :: rest) :
    Tracked ⟨(engine.take rest).finishConnect name fs, senders⟩ := by
  have isConnecting : name ∈ engine.connecting :=
    (tracked.connecting name).mpr (Or.inr List.mem_cons_self)
  have ended := tracked.take_ended front
  obtain ⟨nodup, sessions, apart⟩ := ended.apart
  have others (session : Nat) (live : LiveSession) (found : engine.sessions.get? session = some live) :
      live.name ≠ name := by
    rintro rfl
    exact tracked.apart.apart session live found isConnecting
  have cases {session : Nat} {live : LiveSession}
      (found : ((engine.take rest).finishConnect name fs).sessions.get? session = some live) :
      (session = engine.nextSessionId ∧ live = ⟨name, fs⟩) ∨
        engine.sessions.get? session = some live := by
    rcases OrderedMap.get?_insert_cases found with ⟨isNew, rfl⟩ | ⟨_, earlier⟩
    · exact Or.inl ⟨isNew, rfl⟩
    · exact Or.inr earlier
  refine ⟨ended.bounded, ended.fits, ended.count, nodup, ?_, ?_⟩
  · intro first second firstLive secondLive isFirst isSecond sameName
    rcases cases isFirst with ⟨rfl, rfl⟩ | firstEarlier
    · rcases cases isSecond with ⟨rfl, _⟩ | secondEarlier
      · rfl
      · exact absurd sameName.symm (others _ _ secondEarlier)
    · rcases cases isSecond with ⟨_, rfl⟩ | secondEarlier
      · exact absurd sameName (others _ _ firstEarlier)
      · exact sessions _ _ _ _ firstEarlier secondEarlier sameName
  · intro session live found member
    rcases cases found with ⟨_, rfl⟩ | earlier
    · exact of_decide_eq_true (List.mem_filter.mp member).2 rfl
    · exact apart session live earlier member

theorem Tracked.then_publish (tracked : Tracked ⟨engine, senders⟩) (moment : Moment) :
    Tracked ⟨(engine.processRowChanges moment.now).requestPublish moment, senders⟩ :=
  tracked.aside ((Aside.processRowChanges _ engine).trans (.requestPublish moment _))

theorem tracked_handle {message : Internal} {rest : List Internal} {sender : Option String}
    (tracked : Tracked ⟨engine, sender :: senders⟩) (front : engine.internal = message :: rest)
    (moment : Moment) (settles : Settles ⟨engine, sender :: senders⟩ (.handle moment)) :
    Tracked ⟨(engine.take rest).handleInternal moment message, senders⟩ := by
  have fits := tracked.fits
  dsimp only at fits
  rw [front, List.forall₂_cons] at fits
  cases fits.1 with
  | connected => exact (tracked.take_connected front).then_publish moment
  | failed => exact (tracked.take_ended front).then_publish moment
  | panicked => exact absurd rfl (settles moment _ _ _ _ rfl front)
  | other notConnected notFailed =>
    have taken := tracked.take_other front
    cases message with
    | connected name fs => exact absurd rfl (notConnected name fs)
    | connectFailed name => exact absurd rfl (notFailed name)
    | transfer event =>
      have handled := taken.aside (.handleTransferEvent moment _ event)
      cases event with
      | progress id transferred => exact handled.aside (.requestPublish moment _)
      | _ => exact handled.then_publish moment
    | taskPanicked name scope =>
      exact (taken.aside (.recoverFromPanic moment _ name scope)).then_publish moment
    | other => exact taken.then_publish moment

/-! ### Tasks -/

theorem Tracked.send (tracked : Tracked ⟨engine, senders⟩) {message : Internal}
    (notConnected : ∀ name fs, message ≠ .connected name fs)
    (notFailed : ∀ name, message ≠ .connectFailed name) :
    Tracked ⟨engine.send message, senders ++ [none]⟩ := by
  refine ⟨tracked.bounded, ?_, fun name => ?_, tracked.apart.of_eq rfl fun _ _ found => found⟩
  · exact List.rel_append tracked.fits (.cons (.other notConnected notFailed) .nil)
  · have count := tracked.count name
    change engine.tasks.connects name + (senders ++ [none]).count (some name) = _
    rw [List.count_append, List.count_cons_of_ne (by simp), List.count_nil, Nat.add_zero]
    exact count

theorem Tracked.endTask (tracked : Tracked ⟨engine, senders⟩) {task : Nat} {live : Live}
    (found : engine.tasks.live.get? task = some live) {message : Internal}
    (fits : Fits message live.work.profile) :
    Tracked ⟨engine.endTask task message, senders ++ [live.work.profile]⟩ := by
  refine ⟨fun other found isFound => ?_, ?_, fun name => ?_,
    tracked.apart.of_eq rfl fun _ _ found => found⟩
  · exact tracked.bounded other found (Engine.found_of_finish isFound)
  · exact List.rel_append tracked.fits (.cons fits .nil)
  · have count := tracked.count name
    have erased : (engine.tasks.finish task).connects name +
        (if live.work.profile = some name then 1 else 0) = engine.tasks.connects name :=
      OrderedMap.total_erase_add found _
    change (engine.tasks.finish task).connects name +
      (senders ++ [live.work.profile]).count (some name) = engine.connecting.count name
    dsimp only at count
    rw [List.count_append, List.count_singleton]
    simp only [beq_iff_eq]
    omega

theorem fits_result {work : Work} {result : TaskResult} {message : Internal}
    (ends : work.result result = some message) : Fits message work.profile := by
  cases work with
  | connect name => cases result <;> cases ends <;> constructor
  | removePartials session parts =>
    cases parts <;> cases result <;> cases ends
    exact .other nofun nofun
  | _ => cases result <;> cases ends <;> exact .other nofun nofun

theorem fits_panic (work : Work) : Fits (.taskPanicked work.name work.scope) work.profile := by
  cases work with
  | connect name => exact .panicked
  | _ => exact .other nofun nofun

theorem tracked_report (tracked : Tracked ⟨engine, senders⟩) (task : Nat) (told : TaskReport) :
    Tracked (next ⟨engine, senders⟩ (.report task told)) := by
  unfold next EngineStep.next Engine.withLive Engine.sent
  dsimp only
  cases engine.tasks.live.get? task with
  | none => simpa using tracked
  | some live =>
    dsimp only [Option.bind_some]
    cases reports : live.work.report told with
    | none => simpa [Engine.sendIf] using tracked
    | some message =>
      have notConnect : (∀ name fs, message ≠ .connected name fs) ∧
          ∀ name, message ≠ .connectFailed name := by
        cases work : live.work <;> rw [work] at reports <;> cases told <;> cases reports <;>
          exact ⟨nofun, nofun⟩
      exact tracked.send notConnect.1 notConnect.2

theorem tracked_removePart (tracked : Tracked ⟨engine, senders⟩) (task : Nat) :
    Tracked (next ⟨engine, senders⟩ (.removePart task)) := by
  unfold next EngineStep.next Engine.withLive Engine.sent
  dsimp only
  rw [Option.toList_none, List.append_nil]
  cases found : engine.tasks.live.get? task with
  | none => exact tracked
  | some live =>
    dsimp only
    unfold Engine.removeNextPart
    split
    next session part parts work =>
      have isNone : live.work.profile = none := by rw [work]; rfl
      refine tracked.aside ⟨rfl, rfl, rfl, ?_⟩
      intro bounded
      dsimp only
      rw [OrderedMap.modify_eq_insert found]
      constructor
      · intro other last isLast
        rcases OrderedMap.get?_insert_cases isLast with ⟨rfl, _⟩ | ⟨_, earlier⟩
        · exact bounded other live found
        · exact bounded other last earlier
      · intro name
        unfold Tasks.connects
        refine OrderedMap.total_insert_of_eq found ?_
        rw [isNone]
        rfl
    next => exact tracked

theorem tracked_finish (tracked : Tracked ⟨engine, senders⟩) (task : Nat) (result : TaskResult) :
    Tracked (next ⟨engine, senders⟩ (.finish task result)) := by
  unfold next EngineStep.next Engine.withLive Engine.sent
  dsimp only
  cases found : engine.tasks.live.get? task with
  | none => simpa using tracked
  | some live =>
    dsimp only [Option.bind_some]
    cases ends : live.work.result result with
    | none => simpa using tracked
    | some message => exact tracked.endTask found (fits_result ends)

theorem tracked_panic (tracked : Tracked ⟨engine, senders⟩) (task : Nat) :
    Tracked (next ⟨engine, senders⟩ (.panic task)) := by
  unfold next EngineStep.next Engine.withLive Engine.sent
  dsimp only
  cases found : engine.tasks.live.get? task with
  | none => simpa using tracked
  | some live => exact tracked.endTask found (fits_panic live.work)

theorem tracked_elsewhere (tracked : Tracked ⟨engine, senders⟩)
    (panicked : Option (String × Scope)) :
    Tracked (next ⟨engine, senders⟩ (.elsewhere panicked)) := by
  unfold next EngineStep.next Engine.sent
  cases panicked with
  | none => exact tracked.send nofun nofun
  | some panic =>
    dsimp only
    split_ifs
    · exact tracked.send nofun nofun
    · simpa using tracked

/-- A step keeps count of the attempts unless it handles the panic of one. -/
theorem Tracked.next (tracked : attempts.Tracked) (settles : attempts.Settles step) :
    (attempts.next step).Tracked := by
  obtain ⟨engine, senders⟩ := attempts
  cases step with
  | command moment command =>
    unfold Attempts.next Engine.sent
    dsimp only
    rw [Option.toList_none, List.append_nil]
    exact (tracked_applyCommand tracked moment command).then_publish moment
  | handle moment =>
    unfold Attempts.next EngineStep.next
    dsimp only
    have fits := tracked.fits
    cases front : engine.internal with
    | nil =>
      dsimp only at fits ⊢
      rw [front, List.forall₂_nil_left_iff] at fits
      subst fits
      exact tracked
    | cons message rest =>
      dsimp only at fits
      rw [front] at fits
      cases fits with
      | cons _ _ => exact tracked_handle tracked front moment settles
  | publish moment =>
    unfold Attempts.next Engine.sent
    dsimp only
    rw [Option.toList_none, List.append_nil]
    exact tracked.aside (.processRowChanges _ _)
  | report task told => exact tracked_report tracked task told
  | removePart task => exact tracked_removePart tracked task
  | finish task result => exact tracked_finish tracked task result
  | panic task => exact tracked_panic tracked task
  | elsewhere panicked => exact tracked_elsewhere tracked panicked

/-- What handles the panic of a connect task leaves its profile behind. -/
theorem Tracked.not_connecting_next (tracked : attempts.Tracked) (settles : ¬ attempts.Settles step) :
    ¬ (attempts.next step).Connecting := by
  unfold Settles at settles
  push Not at settles
  obtain ⟨moment, name, scope, rest, profile, rfl, front, isSender⟩ := settles
  obtain ⟨engine, senders⟩ := attempts
  obtain ⟨others, rfl⟩ : ∃ others, senders = some profile :: others := by
    cases senders with
    | nil => cases isSender
    | cons sender others =>
      cases isSender
      exact ⟨others, rfl⟩
  have isConnecting : profile ∈ engine.connecting :=
    (tracked.connecting profile).mpr (Or.inr List.mem_cons_self)
  have atMostOne : engine.connecting.count profile ≤ 1 :=
    List.nodup_iff_count_le_one.mp tracked.apart.nodup profile
  have count := tracked.count profile
  dsimp only at count front
  rw [List.count_cons_self] at count
  have aside : Aside (engine.take rest) (EngineStep.next engine (.handle moment)) := by
    unfold EngineStep.next
    rw [front]
    exact ((Aside.recoverFromPanic moment _ name scope).trans (.processRowChanges _ _)).trans
      (.requestPublish moment _)
  intro connecting
  have still : profile ∈ (EngineStep.next engine (.handle moment)).connecting :=
    aside.connecting ▸ isConnecting
  rcases (connecting profile).mp still with running | waiting
  · have none : (EngineStep.next engine (.handle moment)).tasks.connects profile = 0 := by
      rw [(aside.tasks tracked.bounded).2 profile]
      change engine.tasks.connects profile = 0
      omega
    exact connects_eq_zero_iff.mp none running
  · have positive := List.count_pos_iff.mpr waiting
    change 0 < others.count (some profile) at positive
    omega

/-! ### Runs -/

theorem tracked_start (localFs : FsTraits) (maxParallel : Nat) (onConflict : ConflictPolicy)
    (store : List HistoryEntry) : (start (Engine.new localFs maxParallel onConflict store)).Tracked where
  bounded := by intro task live found; cases found
  fits := .nil
  count := fun _ => rfl
  apart :=
    { nodup := List.nodup_nil
      sessions := by intro first second firstLive secondLive found; cases found
      apart := by intro session live found; cases found }

/-- Throughout a run `connecting` names what is being connected, if and only if no step handles the
panic of a connect task; and then no name is used twice. -/
theorem Tracked.connecting_iff (tracked : attempts.Tracked) (steps : List EngineStep) :
    (∀ earlier later, steps = earlier ++ later →
      (attempts.after earlier).Connecting ∧ NamesApart (attempts.after earlier).engine) ↔
      attempts.SettlesAll steps := by
  induction steps generalizing attempts with
  | nil =>
    refine ⟨fun _ => trivial, fun _ earlier later split => ?_⟩
    obtain ⟨rfl, _⟩ := List.nil_eq_append_iff.mp split
    exact ⟨tracked.connecting, tracked.apart⟩
  | cons step rest ih =>
    constructor
    · intro holds
      by_cases settles : attempts.Settles step
      · refine ⟨settles, (ih (tracked.next settles)).mp fun earlier later split => ?_⟩
        exact holds (step :: earlier) later (congrArg (step :: ·) split)
      · exact absurd (holds [step] rest rfl).1 (tracked.not_connecting_next settles)
    · rintro ⟨settles, others⟩ earlier later split
      cases earlier with
      | nil => exact ⟨tracked.connecting, tracked.apart⟩
      | cons first more =>
        rw [List.cons_append, List.cons.injEq] at split
        obtain ⟨rfl, isRest⟩ := split
        exact (ih (tracked.next settles)).mpr others more later isRest

/-- After every step of a run a profile is in `connecting` exactly if a connect task runs for it or
its last message waits, and no name of a session or of such a profile is used twice, if and
only if no step handles the panic of a connect task. -/
theorem connecting_of_run_iff (localFs : FsTraits) (maxParallel : Nat)
    (onConflict : ConflictPolicy) (store : List HistoryEntry) (steps : List EngineStep) :
    (∀ earlier later, steps = earlier ++ later →
      ((start (Engine.new localFs maxParallel onConflict store)).after earlier).Connecting ∧
        NamesApart
          ((start (Engine.new localFs maxParallel onConflict store)).after earlier).engine) ↔
      (start (Engine.new localFs maxParallel onConflict store)).SettlesAll steps :=
  (tracked_start localFs maxParallel onConflict store).connecting_iff steps

/-- A profile whose connect task has panicked stays in `connecting`. -/
theorem connecting_of_run_fails :
    ¬ ∀ (localFs : FsTraits) (maxParallel : Nat) (onConflict : ConflictPolicy)
      (store : List HistoryEntry) (steps : List EngineStep),
      ((start (Engine.new localFs maxParallel onConflict store)).after steps).Connecting := by
  intro all
  have connecting := (all .oneAtATime 2 .ask []
    [.command .usual (.connect "server" true), .panic 0, .handle .usual] "server").mp (by decide)
  rcases connecting with ⟨task, live, found, _⟩ | waiting
  · cases found
  · cases waiting

end Attempts

end Porthmos
