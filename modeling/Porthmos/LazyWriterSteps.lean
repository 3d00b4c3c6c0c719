import Mathlib.Data.List.Count
import Mathlib.Data.List.Nodup
import Porthmos.LazyWriter

/-!
# Jobs of the background writer

A job is in one place at a time: with its caller, in the map, in a batch, with a blocking thread or
executed.  Steps only move jobs or drop them, so none is executed twice.
-/

namespace Porthmos

namespace Party

/-- The jobs that a call or a task has and that are not executed. -/
def jobs : Party → List LazyEntry
  | issued entry | direct entry _ | awaiting entry none [] _ => [entry]
  | awaiting entry none left _ => entry :: left
  | writing _ left | batch left _ | awaiting _ (some _) left _ => left
  | _ => []

theorem jobs_awaiting (entry : LazyEntry) (left : List LazyEntry) (all : Option (Bool × List Nat)) :
    (awaiting entry none left all).jobs = entry :: left := by
  cases left <;> rfl

end Party

namespace Writer

variable {writer : Writer} {id : Nat} {party : Party}

/-! ### Steps -/

/-- A step of a call or a task that moves no job. -/
inductive Passes : Party → Party → Prop
  | flush {next : Party} (isNext : next = .waiting ∨ next = .draining .now) : Passes .flushing next
  | answer {next : Party} (isNext : next = .drained .now ∨ next = .draining .now) :
      Passes .waiting next
  | poll : Passes .spawned .looping
  | loop {next : Party} (isNext : next = .selecting ∨ ∃ closed flushing,
      next = .takingAll closed flushing) : Passes .looping next
  | wake {next : Party} (isNext : next = .takingDue ∨ next = .looping) : Passes .selecting next
  | finish {all : Option (Bool × List Nat)} {next : Party}
      (isNext : next = .dropping ∨ next = .looping) : Passes (.batch [] all) next
  | drop : Passes .dropping (.draining .mark)

/-- What a step of a call or a task does. -/
inductive Acts (writer : Writer) (id : Nat) : Party → Writer → Prop
  | queues {entry : LazyEntry} (opened : writer.closed = false) {next : Party}
      (isNext : next = .wrote entry none ∨ next = .starting entry) :
      Acts writer id (.issued entry) ({ writer with
        running := true
        pending := writer.pending.insert entry.1 entry.2 }.setParty id next)
  | replaces {entry : LazyEntry} :
      Acts writer id (.issued entry) ({ writer with
        pending := writer.pending.erase entry.1 }.setParty id
          (.direct entry (writer.pending.contains entry.1)))
  | spawns {entry : LazyEntry} :
      Acts writer id (.starting entry) ((writer.setParty id (.wrote entry none)).addParty .spawned)
  | writes {entry : LazyEntry} {replaced : Bool} (failure : Option String) :
      Acts writer id (.direct entry replaced)
        ((writer.execute entry failure).setParty id (.wrote entry failure))
  | passes {party next : Party} (running : Bool) (flushing : List Nat)
      (passes : Passes party next) :
      Acts writer id party ({ writer with
        running := running
        flushing := flushing }.setParty id next)
  | closes : Acts writer id .closing ({ writer with closed := true }.setParty id (.draining .close))
  | takes {drain : Drain} :
      Acts writer id (.draining drain)
        ({ writer with pending := .empty }.setParty id (.writing drain writer.pending.entries))
  | drains {drain : Drain} {left : List LazyEntry} {entry : LazyEntry} (member : entry ∈ left)
      (failure : Option String) :
      Acts writer id (.writing drain left)
        (((writer.execute entry failure).report entry failure).setParty id
          (.writing drain (left.erase entry)))
  | finishes {drain : Drain} :
      Acts writer id (.writing drain []) (writer.setParty id (.drained drain))
  | takesDue (due : List String) :
      Acts writer id .takingDue ({ writer with
        pending := writer.pending.filterMap fun path job => if path ∈ due then none else some job
        }.setParty id (.batch (writer.pending.entries.filter fun entry => entry.1 ∈ due) none))
  | takesAll {closed : Bool} {flushing : List Nat} :
      Acts writer id (.takingAll closed flushing)
        ({ writer with pending := .empty }.setParty id
          (.batch writer.pending.entries (some (closed, flushing))))
  | picks {left : List LazyEntry} {all : Option (Bool × List Nat)} {entry : LazyEntry}
      (member : entry ∈ left) :
      Acts writer id (.batch left all) (writer.setParty id (.awaiting entry none (left.erase entry) all))
  | resumes {entry : LazyEntry} {failure : Option String} {left : List LazyEntry}
      {all : Option (Bool × List Nat)} :
      Acts writer id (.awaiting entry (some failure) left all)
        ((writer.report entry failure).setParty id (.batch left all))

theorem passes_keep {next : Party} (passes : Passes party next) :
    Acts writer id party (writer.setParty id next) :=
  Acts.passes writer.running writer.flushing passes

theorem advance_cases (writer : Writer) (id : Nat) (choice : WriterChoice) :
    writer.advance id choice = writer ∨ ∃ party, writer.parties.get? id = some party ∧
        Acts writer id party (writer.advance id choice) := by
  unfold advance
  cases found : writer.parties.get? id with
  | none => exact Or.inl rfl
  | some party =>
    cases party with
    | issued entry =>
      right
      refine ⟨_, rfl, ?_⟩
      change Acts writer id _ (writer.lockedWrite id entry choice.runtime)
      unfold lockedWrite
      split_ifs with queued isRunning
      · exact .queues queued.1 (Or.inl rfl)
      · exact .queues queued.1 (Or.inr rfl)
      · exact .replaces
    | starting entry => exact Or.inr ⟨_, rfl, .spawns⟩
    | direct entry replaced => exact Or.inr ⟨_, rfl, .writes choice.failure⟩
    | wrote entry failure => exact Or.inl rfl
    | flushing =>
      right
      refine ⟨_, rfl, ?_⟩
      dsimp only
      split_ifs
      · exact .passes writer.running _ (.flush (Or.inl rfl))
      · exact passes_keep (.flush (Or.inr rfl))
    | waiting =>
      dsimp only
      split_ifs
      · exact Or.inr ⟨_, rfl, passes_keep (.answer (Or.inl rfl))⟩
      · exact Or.inr ⟨_, rfl, passes_keep (.answer (Or.inr rfl))⟩
      · exact Or.inl rfl
    | closing => exact Or.inr ⟨_, rfl, .closes⟩
    | draining drain => exact Or.inr ⟨_, rfl, .takes⟩
    | writing drain left =>
      dsimp only
      split_ifs with empty
      · subst empty
        exact Or.inr ⟨_, rfl, .finishes⟩
      · cases isNext : left.find? fun entry => entry.1 = choice.path with
        | none => exact Or.inl rfl
        | some entry =>
          exact Or.inr ⟨_, rfl, .drains (List.mem_of_find?_eq_some isNext) choice.failure⟩
    | drained drain => exact Or.inl rfl
    | spawned => exact Or.inr ⟨_, rfl, passes_keep .poll⟩
    | looping =>
      right
      refine ⟨_, rfl, ?_⟩
      dsimp only
      split_ifs
      · exact .passes writer.running [] (.loop (Or.inr ⟨_, _, rfl⟩))
      · exact .passes writer.running [] (.loop (Or.inl rfl))
    | selecting =>
      right
      refine ⟨_, rfl, ?_⟩
      dsimp only
      split_ifs
      · exact passes_keep (.wake (Or.inl rfl))
      · exact passes_keep (.wake (Or.inr rfl))
    | takingDue => exact Or.inr ⟨_, rfl, .takesDue _⟩
    | takingAll closed flushing => exact Or.inr ⟨_, rfl, .takesAll⟩
    | batch left all =>
      dsimp only
      split_ifs with empty ends
      · subst empty
        exact Or.inr ⟨_, rfl, passes_keep (.finish (Or.inl rfl))⟩
      · subst empty
        exact Or.inr ⟨_, rfl, passes_keep (.finish (Or.inr rfl))⟩
      · cases isNext : left.find? fun entry => entry.1 = choice.path with
        | none => exact Or.inl rfl
        | some entry => exact Or.inr ⟨_, rfl, .picks (List.mem_of_find?_eq_some isNext)⟩
    | awaiting entry outcome left all =>
      cases outcome with
      | none => exact Or.inl rfl
      | some failure => exact Or.inr ⟨_, rfl, .resumes⟩
    | dropping => exact Or.inr ⟨_, rfl, .passes false [] .drop⟩

theorem finishBlocking_cases (writer : Writer) (id : Nat) (failure : Option String) :
    writer.finishBlocking id failure = writer ∨
      ∃ entry left all, writer.parties.get? id = some (.awaiting entry none left all) ∧
        writer.finishBlocking id failure =
          (writer.execute entry failure).setParty id (.awaiting entry (some failure) left all) := by
  unfold finishBlocking
  split
  · next entry left all found => exact Or.inr ⟨entry, left, all, found, rfl⟩
  · exact Or.inl rfl

theorem abort_cases (writer : Writer) (id : Nat) :
    writer.abort id = writer ∨ ∃ party, writer.parties.get? id = some party ∧
      (writer.abort id = writer.setParty id .dropping ∧ (party = .spawned ∨ party = .selecting) ∨
        ∃ entry outcome left all, party = .awaiting entry outcome left all ∧
          writer.abort id = { writer with
            detached := writer.detached ++ if outcome.isNone then [entry] else [] }.setParty id
              .dropping) := by
  unfold abort
  split
  · next found => exact Or.inr ⟨_, found, Or.inl ⟨rfl, Or.inl rfl⟩⟩
  · next found => exact Or.inr ⟨_, found, Or.inl ⟨rfl, Or.inr rfl⟩⟩
  · next entry outcome left all found =>
      exact Or.inr ⟨_, found, Or.inr ⟨entry, outcome, left, all, rfl, rfl⟩⟩
  · exact Or.inl rfl

/-! ### Copies of a job -/

/-- The number of jobs with a version. -/
def count (version : Nat) (entries : List LazyEntry) : Nat :=
  entries.countP fun entry => entry.2.version = version

theorem count_append (version : Nat) (first second : List LazyEntry) :
    count version (first ++ second) = count version first + count version second :=
  List.countP_append

theorem count_erase {entry : LazyEntry} {left : List LazyEntry} (member : entry ∈ left)
    (version : Nat) : count version [entry] + count version (left.erase entry) = count version left := by
  have same := (List.perm_cons_erase member).countP_eq fun entry => decide (entry.2.version = version)
  exact (count_append version [entry] _).symm.trans same.symm

/-- The number of pending jobs with a version. -/
def countPending (version : Nat) (pending : OrderedMap String LazyJob) : Nat :=
  pending.total fun _ job => if job.version = version then 1 else 0

theorem count_entries (version : Nat) (pending : OrderedMap String LazyJob) :
    count version pending.entries = countPending version pending := by
  unfold count countPending OrderedMap.total
  induction pending.entries with
  | nil => rfl
  | cons entry rest ih =>
    rw [List.countP_cons, List.map_cons, List.sum_cons, ih, Nat.add_comm]
    simp only [decide_eq_true_eq]

theorem countPending_insert_le (version : Nat) (pending : OrderedMap String LazyJob)
    (entry : LazyEntry) : countPending version (pending.insert entry.1 entry.2) ≤
      countPending version pending + count version [entry] := by
  have replaced := OrderedMap.total_insert pending
    (fun _ job => if job.version = version then 1 else 0) entry.1 entry.2
  have one : count version [entry] = if entry.2.version = version then 1 else 0 := by
    unfold count
    rw [List.countP_singleton]
    simp only [decide_eq_true_eq]
  unfold countPending
  omega

theorem countPending_erase_le (version : Nat) (pending : OrderedMap String LazyJob) (path : String) :
    countPending version (pending.erase path) ≤ countPending version pending := by
  have removed := OrderedMap.total_erase pending
    (fun _ job => if job.version = version then 1 else 0) path
  unfold countPending
  omega

theorem countPending_filter (version : Nat) (pending : OrderedMap String LazyJob)
    (due : List String) :
    countPending version (pending.filterMap fun path job => if path ∈ due then none else some job) +
      count version (pending.entries.filter fun entry => entry.1 ∈ due) =
        countPending version pending := by
  rw [← count_entries, ← count_entries]
  unfold OrderedMap.filterMap
  dsimp only
  induction pending.entries with
  | nil => rfl
  | cons entry rest ih =>
    by_cases isDue : entry.1 ∈ due
    · simp only [isDue, count, List.filterMap_cons, List.filter_cons, List.countP_cons, if_true,
        Option.map_none, decide_true] at ih ⊢
      omega
    · simp only [isDue, count, List.filterMap_cons, List.filter_cons, List.countP_cons, if_false,
        Option.map_some, decide_false, Bool.false_eq_true] at ih ⊢
      omega

/-- The number of jobs with a version, wherever they are. -/
def copies (version : Nat) (writer : Writer) : Nat :=
  countPending version writer.pending +
    writer.parties.total (fun _ party => count version party.jobs) +
    count version writer.detached + count version (writer.executed.map Prod.fst)

/-- The jobs that are not with a call or a task. -/
def elsewhere (version : Nat) (writer : Writer) : Nat :=
  countPending version writer.pending + count version writer.detached +
    count version (writer.executed.map Prod.fst)

theorem copies_eq (version : Nat) (writer : Writer) : copies version writer =
    writer.parties.total (fun _ party => count version party.jobs) + elsewhere version writer := by
  unfold copies elsewhere
  omega

theorem copies_setParty_le (found : writer.parties.get? id = some party) {middle : Writer}
    (parties : middle.parties = writer.parties) {next : Party} {version : Nat}
    (balance : elsewhere version middle + count version next.jobs ≤
      elsewhere version writer + count version party.jobs) :
    copies version (middle.setParty id next) ≤ copies version writer := by
  have replaced := OrderedMap.total_insert writer.parties
    (fun _ party => count version party.jobs) id next
  rw [found, Option.elim_some] at replaced
  have same : copies version (middle.setParty id next) =
      (writer.parties.insert id next).total (fun _ party => count version party.jobs) +
        elsewhere version middle := by
    rw [copies_eq, ← parties]
    rfl
  rw [same, copies_eq]
  omega

theorem copies_addParty (fresh : writer.parties.get? writer.nextParty = none) (next : Party)
    (version : Nat) :
    copies version (writer.addParty next) = copies version writer + count version next.jobs := by
  have added := OrderedMap.total_insert_new fresh (fun _ party => count version party.jobs) next
  have same : copies version (writer.addParty next) =
      (writer.parties.insert writer.nextParty next).total (fun _ party => count version party.jobs) +
        elsewhere version writer := copies_eq version (writer.addParty next)
  rw [same, copies_eq]
  omega

theorem elsewhere_execute (writer : Writer) (entry : LazyEntry) (failure : Option String)
    (version : Nat) : elsewhere version (writer.execute entry failure) =
      elsewhere version writer + count version [entry] := by
  unfold elsewhere execute
  rw [List.map_append, count_append]
  exact (Nat.add_assoc ..).symm

theorem jobs_of_passes {next : Party} (passes : Passes party next) : next.jobs = party.jobs := by
  cases passes with
  | poll | drop => rfl
  | loop isNext => rcases isNext with rfl | ⟨_, _, rfl⟩ <;> rfl
  | flush isNext | answer isNext | wake isNext | finish isNext => rcases isNext with rfl | rfl <;> rfl

/-- A step of a call or a task moves jobs or drops them. -/
theorem copies_acts_le (found : writer.parties.get? id = some party)
    (fresh : writer.parties.get? writer.nextParty = none) {after : Writer}
    (acts : Acts writer id party after) (version : Nat) :
    copies version after ≤ copies version writer := by
  have none : countPending version .empty = 0 := rfl
  cases acts with
  | @queues entry opened next isNext =>
    have noJobs : next.jobs = [] := by rcases isNext with rfl | rfl <;> rfl
    have inserted := countPending_insert_le version writer.pending entry
    apply copies_setParty_le found
    · rfl
    · rw [noJobs]
      unfold elsewhere Party.jobs
      change _ + 0 ≤ _
      dsimp only
      omega
  | @replaces entry =>
    have removed := countPending_erase_le version writer.pending entry.1
    apply copies_setParty_le found
    · rfl
    · unfold elsewhere Party.jobs
      dsimp only
      omega
  | spawns =>
    have different : writer.nextParty ≠ id := by
      rintro rfl
      rw [fresh] at found
      cases found
    rw [copies_addParty]
    · exact copies_setParty_le found rfl (Nat.le_refl _)
    · change (writer.parties.insert id _).get? writer.nextParty = _
      rw [OrderedMap.get?_insert, if_neg different, fresh]
  | @writes entry replaced failure =>
    apply copies_setParty_le found
    · rfl
    · rw [elsewhere_execute]
      exact Nat.le_refl _
  | passes running flushing passes =>
    apply copies_setParty_le found
    · rfl
    · rw [jobs_of_passes passes]
      exact Nat.le_refl _
  | closes => exact copies_setParty_le found rfl (Nat.le_refl _)
  | takes =>
    apply copies_setParty_le found
    · rfl
    · have same := count_entries version writer.pending
      unfold elsewhere Party.jobs
      dsimp only
      omega
  | @drains drain left entry member failure =>
    have split := count_erase member version
    apply copies_setParty_le found
    · rfl
    · change elsewhere version (writer.execute entry failure) + count version (left.erase entry) ≤
        elsewhere version writer + count version left
      rw [elsewhere_execute]
      omega
  | finishes => exact copies_setParty_le found rfl (Nat.le_refl _)
  | takesDue due =>
    have split := countPending_filter version writer.pending due
    apply copies_setParty_le found
    · rfl
    · unfold elsewhere Party.jobs
      dsimp only
      omega
  | takesAll =>
    apply copies_setParty_le found
    · rfl
    · have same := count_entries version writer.pending
      unfold elsewhere Party.jobs
      dsimp only
      omega
  | @picks left all entry member =>
    have split := count_erase member version
    apply copies_setParty_le found
    · rfl
    · rw [Party.jobs_awaiting]
      have both : count version (entry :: left.erase entry) =
        count version [entry] + count version (left.erase entry) := count_append version [entry] _
      change _ ≤ elsewhere version writer + count version left
      omega
  | resumes => exact copies_setParty_le found rfl (Nat.le_refl _)

theorem get?_acts_cases {after : Writer} (acts : Acts writer id party after) {other : Nat}
    {last : Party} (isLast : after.parties.get? other = some last) :
    other = id ∨ last = .spawned ∧ other = writer.nextParty ∨ writer.parties.get? other = some last := by
  have earlier {next : Party} (isLast : (writer.parties.insert id next).get? other = some last) :
      other = id ∨ last = .spawned ∧ other = writer.nextParty ∨
        writer.parties.get? other = some last := by
    rcases OrderedMap.get?_insert_cases isLast with ⟨same, _⟩ | ⟨_, before⟩
    · exact Or.inl same
    · exact Or.inr (Or.inr before)
  cases acts with
  | spawns =>
    rcases OrderedMap.get?_insert_cases isLast with ⟨same, isNew⟩ | ⟨_, before⟩
    · exact Or.inr (Or.inl ⟨isNew, same⟩)
    · exact earlier before
  | _ => exact earlier isLast

theorem nextVersion_of_acts {after : Writer} (acts : Acts writer id party after) :
    after.nextVersion = writer.nextVersion := by
  cases acts <;> rfl

theorem nextParty_of_acts {after : Writer} (acts : Acts writer id party after) :
    after.nextParty = writer.nextParty ∨ after.nextParty = writer.nextParty + 1 ∧
      after.parties.get? writer.nextParty = some .spawned := by
  cases acts with
  | spawns =>
    right
    constructor
    · rfl
    · exact (OrderedMap.get?_insert ..).trans (if_pos rfl)
  | _ => exact Or.inl rfl

/-! ### Runs -/

/-- Nothing has more than one copy, and nobody has a version that was not handed out yet. -/
structure Once (writer : Writer) : Prop where
  parties_lt : ∀ id party, writer.parties.get? id = some party → id < writer.nextParty
  once : ∀ version, copies version writer ≤ 1
  unused : ∀ version, writer.nextVersion ≤ version → copies version writer = 0

namespace Once

theorem fresh (once : writer.Once) : writer.parties.get? writer.nextParty = none := by
  rw [Option.eq_none_iff_forall_ne_some]
  exact fun party found => lt_irrefl _ (once.parties_lt _ party found)

theorem of_le (once : writer.Once) {after : Writer}
    (parties_lt : ∀ id party, after.parties.get? id = some party → id < after.nextParty)
    (nextVersion : after.nextVersion = writer.nextVersion)
    (fewer : ∀ version, copies version after ≤ copies version writer) : after.Once where
  parties_lt := parties_lt
  once := fun version => (fewer version).trans (once.once version)
  unused := fun version unused => by
    have none := once.unused version (nextVersion ▸ unused)
    have atMost := fewer version
    omega

theorem setParty_lt (once : writer.Once) (found : writer.parties.get? id = some party) {next : Party}
    {other : Nat} {last : Party} (isLast : (writer.parties.insert id next).get? other = some last) :
    other < writer.nextParty := by
  rcases OrderedMap.get?_insert_cases isLast with ⟨rfl, _⟩ | ⟨_, earlier⟩
  · exact once.parties_lt other party found
  · exact once.parties_lt other last earlier

theorem addParty_lt (once : writer.Once) {next : Party} {other : Nat} {last : Party}
    (isLast : (writer.parties.insert writer.nextParty next).get? other = some last) :
    other < writer.nextParty + 1 := by
  rcases OrderedMap.get?_insert_cases isLast with ⟨rfl, _⟩ | ⟨_, earlier⟩
  · exact Nat.lt_succ_self _
  · exact Nat.lt_succ_of_lt (once.parties_lt other last earlier)

theorem addParty (once : writer.Once) {next : Party} (noJobs : next.jobs = []) :
    (writer.addParty next).Once := by
  apply once.of_le
  · exact fun other last isLast => once.addParty_lt isLast
  · rfl
  · intro version
    rw [copies_addParty once.fresh, noJobs]
    exact Nat.le_refl _

theorem writeLazy (once : writer.Once) (path : String) (mode tag : Nat) :
    (writer.writeLazy path mode tag).Once := by
  have added (version : Nat) : copies version (writer.writeLazy path mode tag) =
      copies version writer + count version [(path, ⟨mode, tag, writer.nextVersion⟩)] :=
    copies_addParty once.fresh _ version
  have one (version : Nat) : count version [(path, (⟨mode, tag, writer.nextVersion⟩ : LazyJob))] =
      if writer.nextVersion = version then 1 else 0 := by
    unfold count
    rw [List.countP_singleton]
    simp only [decide_eq_true_eq]
  constructor
  · exact fun other last isLast => once.addParty_lt isLast
  · intro version
    rw [added, one]
    split_ifs with isNew
    · exact (congrArg (· + 1) (once.unused version isNew.le)).le
    · exact once.once version
  · intro version unused
    have unused : writer.nextVersion + 1 ≤ version := unused
    rw [added, one, if_neg (by omega), once.unused version (by omega)]

theorem acts (once : writer.Once) (found : writer.parties.get? id = some party) {after : Writer}
    (acts : Acts writer id party after) : after.Once := by
  apply once.of_le
  · intro other last isLast
    have grown : writer.nextParty ≤ after.nextParty := by
      rcases nextParty_of_acts acts with same | ⟨more, _⟩ <;> omega
    rcases get?_acts_cases acts isLast with rfl | ⟨rfl, rfl⟩ | earlier
    · exact (once.parties_lt other party found).trans_le grown
    · rcases nextParty_of_acts acts with same | ⟨more, _⟩
      · cases acts with
        | spawns => exact absurd same (Nat.succ_ne_self _)
        | _ => exact same ▸ once.setParty_lt found isLast
      · omega
    · exact (once.parties_lt other last earlier).trans_le grown
  · exact nextVersion_of_acts acts
  · exact copies_acts_le found once.fresh acts

theorem next (once : writer.Once) (step : WriterStep) : (writer.next step).Once := by
  cases step with
  | writeLazy path mode tag => exact once.writeLazy path mode tag
  | flush => exact once.addParty rfl
  | close => exact once.addParty rfl
  | writePendingNow => exact once.addParty rfl
  | advance id choice =>
    change (writer.advance id choice).Once
    rcases advance_cases writer id choice with same | ⟨party, found, acts⟩
    · rw [same]
      exact once
    · exact once.acts found acts
  | finishBlocking id failure =>
    change (writer.finishBlocking id failure).Once
    rcases finishBlocking_cases writer id failure with same | ⟨entry, left, all, found, same⟩
    · rw [same]
      exact once
    · rw [same]
      apply once.of_le
      · exact fun other last isLast => once.setParty_lt found isLast
      · rfl
      · intro version
        apply copies_setParty_le found
        · rfl
        · have both : count version (entry :: left) =
            count version [entry] + count version left := count_append version [entry] left
          rw [elsewhere_execute, Party.jobs_awaiting, both]
          exact (Nat.add_assoc ..).le
  | finishDetached entry failure =>
    change (writer.finishDetached entry failure).Once
    unfold finishDetached
    split_ifs with member
    · apply once.of_le
      · exact once.parties_lt
      · rfl
      · intro version
        have split := count_erase member version
        have added := elsewhere_execute { writer with detached := writer.detached.erase entry }
          entry failure version
        rw [copies_eq, copies_eq, added]
        unfold elsewhere execute
        dsimp only
        omega
    · exact once
  | abort id =>
    change (writer.abort id).Once
    rcases abort_cases writer id with same | ⟨party, found, ⟨same, _⟩ | ⟨entry, outcome, left, all, rfl,
      same⟩⟩
    · rw [same]
      exact once
    · rw [same]
      apply once.of_le
      · exact fun other last isLast => once.setParty_lt found isLast
      · rfl
      · intro version
        apply copies_setParty_le found
        · rfl
        · exact Nat.add_le_add_left (Nat.zero_le _) _
    · rw [same]
      apply once.of_le
      · exact fun other last isLast => once.setParty_lt found isLast
      · rfl
      · intro version
        apply copies_setParty_le found
        · rfl
        · -- The job of a blocking thread is still to be executed.
          have kept : count version (if outcome.isNone then [entry] else []) ≤
              count version (Party.awaiting entry outcome left all).jobs := by
            cases outcome with
            | none =>
              rw [Party.jobs_awaiting]
              exact (Nat.le_add_right _ _).trans_eq (count_append version [entry] left).symm
            | some failure => exact Nat.zero_le _
          unfold elsewhere
          dsimp only
          rw [count_append]
          change _ + 0 ≤ _
          omega

theorem start : start.Once where
  parties_lt := by intro id party found; cases found
  once := fun _ => Nat.zero_le _
  unused := fun _ _ => rfl

theorem after (once : writer.Once) (steps : List WriterStep) : (writer.after steps).Once := by
  induction steps generalizing writer with
  | nil => exact once
  | cons step rest ih => exact ih (once.next step)

theorem nodup_executed (once : writer.Once) :
    (writer.executed.map fun execution => execution.1.2.version).Nodup := by
  rw [List.nodup_iff_count_le_one]
  intro version
  have atMost := once.once version
  have same : count version (writer.executed.map Prod.fst) =
      (writer.executed.map fun execution => execution.1.2.version).count version := by
    unfold count List.count
    rw [List.countP_map, List.countP_map]
    rfl
  rw [copies_eq] at atMost
  unfold elsewhere at atMost
  omega

end Once

end Writer

end Porthmos
