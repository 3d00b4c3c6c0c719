import Porthmos.EngineSound

/-!
# Slots

A running job holds a slot of its session and its destination.  A queued job has room if
the slots that are held leave one for it.  The engine is filled when no queued job has
room, and only what frees a slot or queues a job can end that.
-/

namespace Porthmos

open TransferQueue

/-- What neither frees a slot nor queues a job. -/
def Label.Calm : Label → Prop
  | .finishes _ | .fails _ | .retries _ | .enqueues _ _ => False
  | _ => True

namespace Engine

/-! ### Slots -/

/-- What a job takes while it runs: a place in its session and its destination. -/
abbrev Slot := Nat × Destination

def slotIf (status : JobStatus) (job : TransferJob) : Option Slot :=
  if job.status = status then some (job.sessionId, job.destination) else none

theorem slotIf_of_ne {status : JobStatus} {job : TransferJob} (other : job.status ≠ status) :
    slotIf status job = none :=
  if_neg other

/-- The slots of the jobs of a status. -/
def slotsOf (status : JobStatus) (jobs : Jobs) : OrderedMap Nat Slot :=
  jobs.filterMap fun _ job => slotIf status job

def slotCount (slots : OrderedMap Nat Slot) (session : Nat) : Nat :=
  slots.total fun _ slot => if slot.1 = session then 1 else 0

def slotTotal (slots : OrderedMap Nat Slot) : Nat := slots.total fun _ _ => 1

theorem get?_slotsOf (status : JobStatus) (jobs : Jobs) (id : Nat) :
    (slotsOf status jobs).get? id = (jobs.get? id).bind (slotIf status) :=
  OrderedMap.get?_filterMap ..

theorem get?_slotsOf_eq_some {status : JobStatus} {jobs : Jobs} {id : Nat} {slot : Slot} :
    (slotsOf status jobs).get? id = some slot ↔
      ∃ job, jobs.get? id = some job ∧ job.status = status ∧
        (job.sessionId, job.destination) = slot := by
  simp only [get?_slotsOf, Option.bind_eq_some_iff, slotIf, Option.ite_none_right_eq_some,
    Option.some.injEq]

theorem total_slotsOf (jobs : Jobs) (weight : Slot → Nat) :
    (slotsOf .inProgress jobs).total (fun _ slot => weight slot) = jobs.total fun _ job =>
        if job.status = .inProgress then weight (job.sessionId, job.destination) else 0 := by
  unfold OrderedMap.total slotsOf OrderedMap.filterMap
  dsimp only
  induction jobs.entries with
  | nil => rfl
  | cons entry rest ih =>
    rw [List.map_cons, List.sum_cons, ← ih, List.filterMap_cons]
    by_cases runs : entry.2.status = .inProgress <;> simp [slotIf, runs]

theorem runningCount_eq (jobs : Jobs) (test : TransferJob → Bool) :
    runningCount jobs test = (runningJobs jobs).countP test := by
  rw [runningCount, OrderedMap.total_eq_sum_values jobs fun job =>
    if job.status = .inProgress ∧ test job then 1 else 0, runningJobs, List.countP_filter]
  induction jobs.values with
  | nil => rfl
  | cons job rest ih =>
    rw [List.map_cons, List.sum_cons, List.countP_cons, ih, Nat.add_comm]
    simp [and_comm]

theorem slotTotal_eq (jobs : Jobs) :
    slotTotal (slotsOf .inProgress jobs) = runningCount jobs fun _ => true := by
  rw [slotTotal, total_slotsOf jobs fun _ => 1, runningCount]
  simp

theorem slotCount_eq (jobs : Jobs) (session : Nat) : slotCount (slotsOf .inProgress jobs) session =
      runningCount jobs fun job => decide (job.sessionId = session) := by
  rw [slotCount, total_slotsOf jobs fun slot => if slot.1 = session then 1 else 0, runningCount]
  congr 1
  funext _ job
  by_cases runs : job.status = .inProgress <;> simp [runs]

theorem total_le_insert {slots : OrderedMap Nat Slot} {id : Nat} (fresh : slots.get? id = none)
    (slot : Slot) (weight : Nat → Slot → Nat) :
    slots.total weight ≤ (slots.insert id slot).total weight := by
  rw [OrderedMap.total_insert_new fresh]
  exact Nat.le_add_right _ _

theorem total_erase_le (slots : OrderedMap Nat Slot) (id : Nat) (weight : Nat → Slot → Nat) :
    (slots.erase id).total weight ≤ slots.total weight := by
  rw [← OrderedMap.total_erase slots weight id]
  exact Nat.le_add_right _ _

/-! ### Room -/

/-- The slots that are held leave one for another job. -/
structure Room (slots : OrderedMap Nat Slot) (maxParallel : Nat) (limit : Nat → Option Nat)
    (slot : Slot) : Prop where
  free : slotTotal slots < maxParallel
  session : capped limit slot.1 (slotCount slots slot.1) = false
  destination : ∀ id held, slots.get? id = some held → held.2 ≠ slot.2

theorem hasRoom_iff {jobs : Jobs} {maxParallel : Nat} {limit : Nat → Option Nat}
    {job : TransferJob} : HasRoom jobs maxParallel limit job ↔
      Room (slotsOf .inProgress jobs) maxParallel limit (job.sessionId, job.destination) := by
  have destinations : (∀ id running, jobs.get? id = some running → running.status = .inProgress →
      running.destination ≠ job.destination) ↔
      ∀ id held, (slotsOf .inProgress jobs).get? id = some held → held.2 ≠ job.destination := by
    simp only [get?_slotsOf_eq_some]
    constructor
    · rintro apart id _ ⟨running, found, runs, rfl⟩
      exact apart id running found runs
    · exact fun apart id running found runs => apart id _ ⟨running, found, runs, rfl⟩
  constructor
  · intro room
    refine ⟨?_, ?_, destinations.mp room.destination⟩
    · rw [slotTotal_eq]
      exact room.slot
    · rw [slotCount_eq]
      exact room.session
  · intro room
    refine ⟨?_, ?_, destinations.mpr room.destination⟩
    · rw [← slotTotal_eq]
      exact room.free
    · rw [← slotCount_eq]
      exact room.session

theorem capped_eq_false_of_le {limit : Nat → Option Nat} {session count more : Nat}
    (atLeast : count ≤ more) (below : capped limit session more = false) :
    capped limit session count = false := by
  rw [Bool.eq_false_iff] at below ⊢
  exact fun full => below (capped_mono full atLeast)

theorem Room.of_insert {slots : OrderedMap Nat Slot} {maxParallel : Nat} {limit : Nat → Option Nat}
    {slot held : Slot} {id : Nat} (fresh : slots.get? id = none)
    (room : Room (slots.insert id held) maxParallel limit slot) :
    Room slots maxParallel limit slot := by
  refine ⟨(total_le_insert fresh held _).trans_lt room.free,
    capped_eq_false_of_le (total_le_insert fresh held _) room.session, fun other given found => ?_⟩
  refine room.destination other given ?_
  rw [OrderedMap.get?_insert, if_neg]
  · exact found
  · rintro rfl
    rw [fresh] at found
    cases found

/-- No queued job has room. -/
def Filled (engine : Engine) : Prop :=
  ∀ id slot, (slotsOf .queued engine.transfers.jobs).get? id = some slot →
    ¬ Room (slotsOf .inProgress engine.transfers.jobs) engine.maxParallel engine.transferLimit slot

/-! ### Slots and moves -/

variable {label : Label} {before after : Engine} {queue result : TransferQueue} {id : Nat}
  {job changed : TransferJob}

theorem slotsOf_insert (status : JobStatus) (jobs : Jobs) (id : Nat) (job : TransferJob) :
    slotsOf status (jobs.insert id job) =
      if job.status = status then (slotsOf status jobs).insert id (job.sessionId, job.destination)
      else (slotsOf status jobs).erase id := by
  refine OrderedMap.ext_get? fun other => ?_
  rw [get?_slotsOf, OrderedMap.get?_insert]
  by_cases inStatus : job.status = status <;> by_cases same : other = id <;>
    simp [inStatus, same, slotIf, get?_slotsOf]

theorem slotsOf_change {status : JobStatus} (change : JobChanged queue result id job changed)
    (same : slotIf status changed = slotIf status job) :
    slotsOf status result.jobs = slotsOf status queue.jobs := by
  rw [change.jobs_eq]
  exact OrderedMap.filterMap_insert_of_eq change.found same

theorem slotsOf_removed {ids : List Nat} {status : JobStatus} (pending : status.isPending = true)
    (removed : Removed queue result ids)
    (finished : ∀ id ∈ ids, ∀ job, queue.jobs.get? id = some job →
      RowFinished queue.jobs (kindOf job)) :
    slotsOf status result.jobs = slotsOf status queue.jobs := by
  refine OrderedMap.ext_get? fun id => ?_
  rw [get?_slotsOf, get?_slotsOf, removed.jobs_eq]
  split_ifs with isRemoved
  · cases found : queue.jobs.get? id with
    | none => rfl
    | some job =>
      have ended := (finished id isRemoved job found).none_pending id job found rfl
      refine (if_neg ?_).symm
      rintro rfl
      rw [pending] at ended
      cases ended
  · rfl

/-- Moves that neither start a job nor end one keep the slots that are held. -/
theorem running_move (sound : before.Sound) (move : Move label before after)
    (notBegins : ∀ id, label ≠ .begins id) (notFinishes : ∀ id, label ≠ .finishes id)
    (notFails : ∀ id, label ≠ .fails id) :
    slotsOf .inProgress after.transfers.jobs = slotsOf .inProgress before.transfers.jobs := by
  cases move with
  | plans scan work scanning kind isNew kept =>
    dsimp only
    rw [kept.jobs_eq]
  | begins => exact absurd rfl (notBegins _)
  | abandons waiting ended change =>
    refine slotsOf_change change ((slotIf_of_ne (isInterrupted_ne ended).2).trans ?_)
    exact (slotIf_of_ne (by simp [waiting])).symm
  | retries interrupted live change =>
    refine slotsOf_change change (Eq.trans ?_ (slotIf_of_ne (isInterrupted_ne interrupted).2).symm)
    exact slotIf_of_ne (by simp [retryJob])
  | advances transferred change => exact slotsOf_change change rfl
  | enqueues inBatch waiting untried live settled sameSession entered =>
    dsimp only
    have fresh : (slotsOf .inProgress before.transfers.jobs).get? before.transfers.nextId = none := by
      rw [get?_slotsOf, sound.indexed.fresh_nextId]
      rfl
    rw [entered.jobs_eq, slotsOf_insert, if_neg (by simp [waiting])]
    refine OrderedMap.ext_get? fun other => ?_
    rw [OrderedMap.get?_erase]
    split_ifs with same
    · rw [same, fresh]
    · rfl
  | removes finished reported removed => exact slotsOf_removed rfl removed finished
  | books kept next =>
    dsimp only
    rw [kept.jobs_eq]
  | finishes => exact absurd rfl (notFinishes _)
  | fails => exact absurd rfl (notFails _)
  | records now =>
    obtain ⟨history, same⟩ := processRowChanges_eq now before
    rw [same]
    rfl
  | settles | drops | connects | disconnects | marks | reviews | closesReviews | opensPlan
  | closesPlans | works | logs | tells | ends | removesPart => rfl

theorem slotsOf_begins (waiting : job.status = .queued)
    (change : JobChanged queue result id job (TransferQueue.begin job)) :
    (slotsOf .inProgress queue.jobs).get? id = none ∧ slotsOf .inProgress result.jobs =
        (slotsOf .inProgress queue.jobs).insert id (job.sessionId, job.destination) := by
  constructor
  · rw [get?_slotsOf, change.found]
    exact slotIf_of_ne (by simp [waiting])
  · rw [change.jobs_eq, slotsOf_insert]
    exact if_pos rfl

theorem slotsOf_ends (change : JobChanged queue result id job changed)
    (ended : changed.status ≠ .inProgress) :
    slotsOf .inProgress result.jobs = (slotsOf .inProgress queue.jobs).erase id := by
  rw [change.jobs_eq, slotsOf_insert, if_neg ended]

theorem maxParallel_move (move : Move label before after) :
    after.maxParallel = before.maxParallel := by
  cases move with
  | records now =>
    obtain ⟨history, same⟩ := processRowChanges_eq now before
    rw [same]
  | _ => rfl

/-- Calm moves let no further job wait. -/
theorem waiting_move (move : Move label before after) (calm : label.Calm) {slot : Slot}
    (waits : (slotsOf .queued after.transfers.jobs).get? id = some slot) :
    (slotsOf .queued before.transfers.jobs).get? id = some slot := by
  have changes {result : TransferQueue} {other : Nat} {job changed : TransferJob}
      (change : JobChanged before.transfers result other job changed)
      (ended : changed.status ≠ .queued)
      (found : (slotsOf .queued result.jobs).get? id = some slot) :
      (slotsOf .queued before.transfers.jobs).get? id = some slot := by
    rw [change.jobs_eq, slotsOf_insert, if_neg ended, OrderedMap.get?_erase] at found
    split_ifs at found
    exact found
  cases move with
  | plans scan work scanning kind isNew kept =>
    dsimp only at waits
    rwa [kept.jobs_eq] at waits
  | begins waiting live room change => exact changes change nofun waits
  | abandons waiting ended change => exact changes change (isInterrupted_ne ended).1 waits
  | retries => exact calm.elim
  | advances transferred change =>
    dsimp only at waits
    rwa [slotsOf_change change rfl] at waits
  | enqueues => exact calm.elim
  | removes finished reported removed =>
    dsimp only at waits
    rwa [slotsOf_removed rfl removed finished] at waits
  | books kept next =>
    dsimp only at waits
    rwa [kept.jobs_eq] at waits
  | finishes => exact calm.elim
  | fails => exact calm.elim
  | records now =>
    obtain ⟨history, same⟩ := processRowChanges_eq now before
    rw [same] at waits
    exact waits
  | settles | drops | connects | disconnects | marks | reviews | closesReviews | opensPlan
  | closesPlans | works | logs | tells | ends | removesPart => exact waits

theorem limit_move (sound : before.Sound) (move : Move label before after) {slot : Slot}
    (waits : (slotsOf .queued before.transfers.jobs).get? id = some slot) :
    after.transferLimit slot.1 = before.transferLimit slot.1 := by
  obtain ⟨job, found, isQueued, rfl⟩ := get?_slotsOf_eq_some.mp waits
  cases move with
  | connects connecting front =>
    have isOld := (sound.connections.jobs_lt _ _ found).ne
    simp only [transferLimit, OrderedMap.get?_insert, if_neg isOld]
  | disconnects name noneWaiting allMarked noReview noPlan =>
    have isOther := noneWaiting _ _ found isQueued
    simp only [transferLimit, OrderedMap.get?_erase, if_neg isOther]
  | records now =>
    obtain ⟨history, same⟩ := processRowChanges_eq now before
    rw [same]
    rfl
  | _ => rfl

/-- Calm moves keep the engine filled. -/
theorem Filled.move (filled : before.Filled) (sound : before.Sound) (calm : label.Calm)
    (move : Move label before after) : after.Filled := by
  intro id slot waits room
  have waited := waiting_move move calm waits
  refine filled id slot waited ?_
  rw [maxParallel_move move] at room
  have limits : capped before.transferLimit slot.1 = capped after.transferLimit slot.1 := by
    funext count
    rw [capped, capped, limit_move sound move waited]
  have sameLimit : Room (slotsOf .inProgress after.transfers.jobs) before.maxParallel
      before.transferLimit slot := ⟨room.free, limits ▸ room.session, room.destination⟩
  by_cases begins : ∃ other, label = .begins other
  · obtain ⟨other, rfl⟩ := begins
    cases move with
    | begins waiting live hadRoom change =>
      obtain ⟨fresh, taken⟩ := slotsOf_begins waiting change
      dsimp only at sameLimit
      rw [taken] at sameLimit
      exact sameLimit.of_insert fresh
  · have kept := running_move sound move (fun other same => begins ⟨other, same⟩)
      (by rintro other rfl; exact calm) (by rintro other rfl; exact calm)
    rwa [kept] at sameLimit

/-! ### Slots are respected -/

/-- No more jobs run than there are slots, and no two write the same destination. -/
structure WithinSlots (slots : OrderedMap Nat Slot) (maxParallel : Nat) : Prop where
  total_le : slotTotal slots ≤ maxParallel
  apart : ∀ first second firstSlot secondSlot, slots.get? first = some firstSlot →
    slots.get? second = some secondSlot → firstSlot.2 = secondSlot.2 → first = second

theorem WithinSlots.erase {slots : OrderedMap Nat Slot} {maxParallel : Nat}
    (within : WithinSlots slots maxParallel) (id : Nat) : WithinSlots (slots.erase id) maxParallel := by
  have old {other : Nat} {slot : Slot} (found : (slots.erase id).get? other = some slot) :
      slots.get? other = some slot := by
    rw [OrderedMap.get?_erase] at found
    split_ifs at found
    exact found
  exact ⟨(total_erase_le slots id _).trans within.total_le,
    fun first second _ _ firstFound secondFound => within.apart _ _ _ _ (old firstFound)
      (old secondFound)⟩

theorem WithinSlots.insert {slots : OrderedMap Nat Slot} {maxParallel : Nat}
    {limit : Nat → Option Nat} {slot : Slot} (within : WithinSlots slots maxParallel)
    (fresh : slots.get? id = none) (room : Room slots maxParallel limit slot) :
    WithinSlots (slots.insert id slot) maxParallel := by
  constructor
  · rw [slotTotal, OrderedMap.total_insert_new fresh]
    exact room.free
  · intro first second firstSlot secondSlot firstFound secondFound same
    rcases OrderedMap.get?_insert_cases firstFound with ⟨rfl, rfl⟩ | ⟨_, firstOld⟩ <;>
      rcases OrderedMap.get?_insert_cases secondFound with ⟨rfl, rfl⟩ | ⟨_, secondOld⟩
    · rfl
    · exact absurd same.symm (room.destination _ _ secondOld)
    · exact absurd same (room.destination _ _ firstOld)
    · exact within.apart _ _ _ _ firstOld secondOld same

/-- What a move does to the slots that are held. -/
theorem slots_move_cases (sound : before.Sound) (move : Move label before after) :
    slotsOf .inProgress after.transfers.jobs = slotsOf .inProgress before.transfers.jobs ∨
      (∃ id, slotsOf .inProgress after.transfers.jobs =
        (slotsOf .inProgress before.transfers.jobs).erase id) ∨
      ∃ id slot, (slotsOf .inProgress before.transfers.jobs).get? id = none ∧
        Room (slotsOf .inProgress before.transfers.jobs) before.maxParallel before.transferLimit
          slot ∧ before.connected slot.1 = true ∧
        slotsOf .inProgress after.transfers.jobs =
          (slotsOf .inProgress before.transfers.jobs).insert id slot := by
  have unchanged := running_move sound move
  cases move with
  | begins waiting live room change =>
    obtain ⟨fresh, taken⟩ := slotsOf_begins waiting change
    exact Or.inr (Or.inr ⟨_, _, fresh, hasRoom_iff.mp room, live, taken⟩)
  | finishes front runs ended reported change =>
    refine Or.inr (Or.inl ⟨_, slotsOf_ends change ?_⟩)
    rcases ended with rfl | rfl <;> exact nofun
  | fails front isOwner runs change =>
    refine Or.inr (Or.inl ⟨_, slotsOf_ends change ?_⟩)
    unfold failedJob
    split_ifs <;> exact nofun
  | _ => exact Or.inl (unchanged nofun nofun nofun)

theorem WithinSlots.move
    (within : WithinSlots (slotsOf .inProgress before.transfers.jobs) before.maxParallel)
    (sound : before.Sound) (move : Move label before after) :
    WithinSlots (slotsOf .inProgress after.transfers.jobs) after.maxParallel := by
  rw [maxParallel_move move]
  rcases slots_move_cases sound move with same | ⟨id, left⟩ | ⟨id, slot, fresh, room, _, taken⟩
  · exact same ▸ within
  · exact left ▸ within.erase id
  · exact taken ▸ within.insert fresh room

/-- A session has a limit for good, and keeps it. -/
structure SessionWithin (session limit : Nat) (engine : Engine) : Prop where
  known : session < engine.nextSessionId
  limit_eq : ∀ live, engine.sessions.get? session = some live →
    live.fs.transferLimit = some limit
  count_le : slotCount (slotsOf .inProgress engine.transfers.jobs) session ≤ limit

theorem session_move {session : Nat} {live : LiveSession} (move : Move label before after)
    (known : session < before.nextSessionId) (found : after.sessions.get? session = some live) :
    before.sessions.get? session = some live := by
  cases move with
  | connects connecting front =>
    dsimp only at found
    rwa [OrderedMap.get?_insert, if_neg known.ne] at found
  | disconnects name noneWaiting allMarked noReview noPlan =>
    dsimp only at found
    rw [OrderedMap.get?_erase] at found
    split_ifs at found
    exact found
  | records now =>
    obtain ⟨history, same⟩ := processRowChanges_eq now before
    rw [same] at found
    exact found
  | _ => exact found

theorem nextSessionId_le_move (move : Move label before after) :
    before.nextSessionId ≤ after.nextSessionId := by
  cases move with
  | connects connecting front => exact Nat.le_succ _
  | records now =>
    obtain ⟨history, same⟩ := processRowChanges_eq now before
    rw [same]
  | _ => exact le_rfl

theorem SessionWithin.move {session limit : Nat} (within : SessionWithin session limit before)
    (sound : before.Sound) (move : Move label before after) : SessionWithin session limit after := by
  refine ⟨within.known.trans_le (nextSessionId_le_move move),
    fun live found => within.limit_eq live (session_move move within.known found), ?_⟩
  rcases slots_move_cases sound move with same | ⟨id, left⟩ | ⟨id, slot, fresh, room, live, taken⟩
  · exact same ▸ within.count_le
  · exact left ▸ (total_erase_le _ id _).trans within.count_le
  · rw [taken, slotCount, OrderedMap.total_insert_new fresh]
    split_ifs with isSession
    · -- The job has room in its session, whose limit is the one that was given.
      subst isSession
      obtain ⟨found, isFound⟩ := OrderedMap.contains_iff.mp live
      have below := room.session
      rw [capped, transferLimit, isFound, Option.bind_some, within.limit_eq _ isFound,
        Option.any_some, decide_eq_false_iff_not, not_le] at below
      exact below
    · exact within.count_le

end Engine

end Porthmos
