import Porthmos.EngineSlots

/-!
# Filling the slots

`fill_transfer_slots` starts what the queue offers until it offers nothing.  Every job
has room when its turn comes, the loop ends, and then no queued job has room.
-/

namespace Porthmos

open TransferQueue

/-! ### Chains of moves -/

/-- A chain of moves with labels of a kind. -/
def Moves (allowed : Label → Prop) : Engine → Engine → Prop :=
  Relation.ReflTransGen fun before after => ∃ label, allowed label ∧ Move label before after

namespace Moves

variable {allowed wider : Label → Prop} {before middle after : Engine}

theorem refl (engine : Engine) : Moves allowed engine engine := Relation.ReflTransGen.refl

theorem single {label : Label} (move : Move label before after) (isAllowed : allowed label) :
    Moves allowed before after :=
  Relation.ReflTransGen.single ⟨label, isAllowed, move⟩

theorem trans (first : Moves allowed before middle) (second : Moves allowed middle after) :
    Moves allowed before after :=
  Relation.ReflTransGen.trans first second

theorem mono (moves : Moves allowed before after) (weaker : ∀ label, allowed label → wider label) :
    Moves wider before after := by
  refine Relation.ReflTransGen.mono ?_ _ _ moves
  rintro _ _ ⟨label, isAllowed, move⟩
  exact ⟨label, weaker label isAllowed, move⟩

theorem invariant (moves : Moves allowed before after) (holds : Engine → Prop)
    (sound : before.Sound) (start : holds before)
    (kept : ∀ {label : Label} {before after : Engine}, allowed label → before.Sound →
      Move label before after → holds before → holds after) :
    after.Sound ∧ holds after := by
  induction moves with
  | refl => exact ⟨sound, start⟩
  | tail _ last ih =>
    obtain ⟨label, isAllowed, move⟩ := last
    exact ⟨ih.1.move move, kept isAllowed ih.1 move ih.2⟩

theorem sound (moves : Moves allowed before after) (sound : before.Sound) : after.Sound :=
  (moves.invariant (fun _ => True) sound trivial fun _ _ _ _ => trivial).1

end Moves

namespace Engine

variable {engine : Engine}

/-! ### Room in turn -/

/-- Each of the jobs has room once those before it were started. -/
def RoomInTurn (maxParallel : Nat) (limit : Nat → Option Nat) : Jobs → List Nat → Prop
  | _, [] => True
  | jobs, id :: rest => ∃ job, jobs.get? id = some job ∧ job.status = .queued ∧
      Room (slotsOf .inProgress jobs) maxParallel limit (job.sessionId, job.destination) ∧
      RoomInTurn maxParallel limit (jobs.insert id (TransferQueue.begin job)) rest

/-- A scan knows the slots that are held once what it chose was started. -/
structure Follows (jobs : Jobs) (base : Nat) (scan : Scan) : Prop where
  total : slotTotal (slotsOf .inProgress jobs) = base + scan.startable.length
  perSession : ∀ session,
    scan.perSession session = slotCount (slotsOf .inProgress jobs) session
  busy : ∀ id slot, (slotsOf .inProgress jobs).get? id = some slot →
    slot.2 ∈ scan.busyDestinations

/-- The scan goes on from a job that it chose. -/
theorem Follows.start {jobs : Jobs} {base : Nat} {scan : Scan} {job : TransferJob}
    (follows : Follows jobs base scan)
    (fresh : (slotsOf .inProgress jobs).get? job.id = none) :
    Follows (jobs.insert job.id (TransferQueue.begin job)) base
      { busyDestinations := job.destination :: scan.busyDestinations
        perSession := Function.update scan.perSession job.sessionId
          (scan.perSession job.sessionId + 1)
        startable := scan.startable ++ [job.id] } := by
  have taken : slotsOf .inProgress (jobs.insert job.id (TransferQueue.begin job)) =
      (slotsOf .inProgress jobs).insert job.id (job.sessionId, job.destination) :=
    (slotsOf_insert _ _ _ _).trans (if_pos rfl)
  constructor
  · rw [taken, slotTotal, OrderedMap.total_insert_new fresh, List.length_append, ← Nat.add_assoc,
      ← follows.total]
    rfl
  · intro session
    rw [taken, slotCount, OrderedMap.total_insert_new fresh]
    refine (Function.update_apply _ _ _ _).trans ?_
    by_cases mine : session = job.sessionId
    · rw [if_pos mine, if_pos mine.symm, follows.perSession, mine]
      rfl
    · rw [if_neg mine, if_neg (Ne.symm mine), follows.perSession]
      rfl
  · intro id slot isHeld
    rw [taken] at isHeld
    rcases OrderedMap.get?_insert_cases isHeld with ⟨_, rfl⟩ | ⟨_, earlier⟩
    · exact List.mem_cons_self
    · exact List.mem_cons_of_mem _ (follows.busy id slot earlier)

/-- What the scan chooses has room in turn. -/
theorem foldl_offer_room (maxParallel : Nat) (limit : Nat → Option Nat) {jobs : Jobs} {base : Nat}
    {scan : Scan} {rest : List TransferJob} (follows : Follows jobs base scan)
    (waiting : ∀ job ∈ rest, jobs.get? job.id = some job ∧ job.status = .queued)
    (nodup : (rest.map TransferJob.id).Nodup) :
    ∃ chosen, (rest.foldl (Scan.offer limit (maxParallel - base)) scan).startable =
      scan.startable ++ chosen ∧ RoomInTurn maxParallel limit jobs chosen := by
  induction rest generalizing scan jobs with
  | nil => exact ⟨[], by simp, trivial⟩
  | cons job rest ih =>
    rw [List.map_cons, List.nodup_cons] at nodup
    obtain ⟨found, isQueued⟩ := waiting job List.mem_cons_self
    rw [List.foldl_cons, Scan.offer]
    split_ifs with kept
    · obtain ⟨free, notCapped, notBusy⟩ := kept
      have fresh : (slotsOf .inProgress jobs).get? job.id = none := by
        rw [get?_slotsOf, found]
        exact slotIf_of_ne (by simp [isQueued])
      have room : Room (slotsOf .inProgress jobs) maxParallel limit
          (job.sessionId, job.destination) := by
        refine ⟨?_, ?_, fun id held isHeld same => notBusy ?_⟩
        · rw [follows.total]
          omega
        · rw [← follows.perSession]
          exact Bool.not_eq_true _ ▸ notCapped
        · exact Eq.mp (congrArg (· ∈ scan.busyDestinations) same) (follows.busy id held isHeld)
      have still : ∀ other ∈ rest,
          (jobs.insert job.id (TransferQueue.begin job)).get? other.id = some other ∧
            other.status = .queued := by
        intro other member
        have isOther : other.id ≠ job.id := fun same => nodup.1 (same ▸ List.mem_map_of_mem member)
        rw [OrderedMap.get?_insert, if_neg isOther]
        exact waiting other (List.mem_cons_of_mem _ member)
      obtain ⟨chosen, startable, inTurn⟩ := ih (follows.start fresh) still nodup.2
      refine ⟨job.id :: chosen, ?_, job, found, isQueued, room, inTurn⟩
      rw [startable, List.append_assoc, List.singleton_append]
    · exact ih follows (fun other member => waiting other (List.mem_cons_of_mem _ member)) nodup.2

/-- A scan that chooses nothing refuses every job. -/
theorem foldl_offer_refuses {limit : Nat → Option Nat} {freeSlots : Nat} {scan : Scan}
    {rest : List TransferJob} (noneBefore : scan.startable = [])
    (noneChosen : (rest.foldl (Scan.offer limit freeSlots) scan).startable = []) :
    ∀ job ∈ rest, ¬ (0 < freeSlots ∧ ¬ capped limit job.sessionId (scan.perSession job.sessionId) ∧
      job.destination ∉ scan.busyDestinations) := by
  induction rest with
  | nil => exact nofun
  | cons job rest ih =>
    rw [List.foldl_cons] at noneChosen
    have refused : scan.offer limit freeSlots job = scan := by
      obtain ⟨chosen, _, startable, _⟩ :=
        foldl_offer_spec limit freeSlots rest (scan.offer limit freeSlots job)
      rw [noneChosen, eq_comm, List.append_eq_nil_iff] at startable
      unfold Scan.offer at startable ⊢
      split_ifs at startable ⊢
      · simp at startable
      · rfl
    intro other member
    rcases List.mem_cons.mp member with rfl | later
    · intro kept
      unfold Scan.offer at refused
      rw [if_pos (by rwa [noneBefore, List.length_nil])] at refused
      have startable := congrArg Scan.startable refused
      simp [noneBefore] at startable
    · rw [refused] at noneChosen
      exact ih noneChosen other later

theorem follows_initial (jobs : Jobs) : Follows jobs (runningJobs jobs).length
      { busyDestinations := (runningJobs jobs).map TransferJob.destination
        perSession := fun session =>
          (runningJobs jobs).countP fun job => decide (job.sessionId = session)
        startable := [] } := by
  constructor
  · rw [slotTotal_eq, runningCount_eq]
    exact congrFun List.countP_true _
  · exact fun session => ((slotCount_eq jobs session).trans (runningCount_eq jobs _)).symm
  · intro id slot isHeld
    obtain ⟨job, found, runs, rfl⟩ := get?_slotsOf_eq_some.mp isHeld
    refine List.mem_map_of_mem (List.mem_filter.mpr ⟨?_, decide_eq_true runs⟩)
    exact OrderedMap.mem_values_iff.mpr ⟨id, found⟩

theorem offered_room (indexed : engine.transfers.Indexed) (order : HashOrder) :
    RoomInTurn engine.maxParallel engine.transferLimit engine.transfers.jobs
      (engine.transfers.startableLimited order engine.maxParallel engine.transferLimit) := by
  obtain ⟨chosen, startable, inTurn⟩ := foldl_offer_room engine.maxParallel engine.transferLimit
    (follows_initial engine.transfers.jobs)
    (fun job member => ⟨indexed.get?_waitingJobs job member,
      of_decide_eq_true (List.mem_filter.mp member).2⟩)
    (indexed.keys_queued ▸ engine.transfers.queued.nodup_keys)
  rw [indexed.startableLimited_eq, referenceStartable]
  rw [List.nil_append] at startable
  exact startable ▸ inTurn

/-- The queue offers nothing exactly when no queued job has room. -/
theorem filled_iff (indexed : engine.transfers.Indexed) (order : HashOrder) : engine.Filled ↔
      engine.transfers.startableLimited order engine.maxParallel engine.transferLimit = [] := by
  constructor
  · intro filled
    have inTurn := offered_room indexed order
    cases offered : engine.transfers.startableLimited order engine.maxParallel
        engine.transferLimit with
    | nil => rfl
    | cons id rest =>
      rw [offered] at inTurn
      obtain ⟨job, found, isQueued, room, _⟩ := inTurn
      exact absurd room (filled id _ (get?_slotsOf_eq_some.mpr ⟨job, found, isQueued, rfl⟩))
  · intro offersNone id slot isWaiting room
    obtain ⟨job, found, isQueued, rfl⟩ := get?_slotsOf_eq_some.mp isWaiting
    rw [indexed.startableLimited_eq, referenceStartable] at offersNone
    have member : job ∈ waitingJobs engine.transfers.jobs :=
      List.mem_filter.mpr ⟨OrderedMap.mem_values_iff.mpr ⟨id, found⟩, decide_eq_true isQueued⟩
    have follows := follows_initial engine.transfers.jobs
    refine foldl_offer_refuses rfl offersNone job member ⟨?_, ?_, ?_⟩
    · have free := room.free
      rw [follows.total, List.length_nil] at free
      omega
    · rw [follows.perSession, room.session]
      exact nofun
    · intro busy
      obtain ⟨running, isRunning, same⟩ := List.mem_map.mp busy
      obtain ⟨inMap, runs⟩ := List.mem_filter.mp isRunning
      obtain ⟨other, otherFound⟩ := OrderedMap.mem_values_iff.mp inMap
      exact room.destination other _
        (get?_slotsOf_eq_some.mpr ⟨running, otherFound, of_decide_eq_true runs, rfl⟩) same

/-! ### Starting -/

theorem startTransfer_eq {id : Nat} {job : TransferJob}
    (found : engine.transfers.jobs.get? id = some job) :
    engine.startTransfer id =
      if engine.connected job.sessionId then
        { engine with
          transfers := engine.transfers.startTransfer true id
          tasks := engine.tasks.spawn (.transfer id) }
      else { engine with transfers := engine.transfers.startTransfer false id } := by
  unfold startTransfer
  rw [TransferQueue.get, found]
  dsimp only
  by_cases live : engine.connected job.sessionId = true
  · rw [if_pos live, if_pos live, live]
    rfl
  · rw [if_neg live, if_neg live, Bool.eq_false_iff.mpr live]

theorem startTransfer_queued (indexed : engine.transfers.Indexed) {id : Nat} {job : TransferJob}
    (found : engine.transfers.jobs.get? id = some job) :
    (engine.startTransfer id).transfers.Indexed ∧ ∃ changed : TransferJob,
      changed.destination = job.destination ∧ changed.status ≠ .queued ∧
      (engine.startTransfer id).transfers.jobs = engine.transfers.jobs.insert id changed := by
  rw [startTransfer_eq found]
  split_ifs
  · obtain ⟨still, jobs⟩ := indexed.startTransfer found true
    exact ⟨still, TransferQueue.begin job, rfl, nofun, jobs⟩
  · obtain ⟨still, jobs⟩ := indexed.startTransfer found false
    exact ⟨still, setStatus (.failed "session disconnected") job, rfl, nofun, jobs⟩

/-- Starting an offer takes all of it off the queued jobs. -/
theorem foldl_startTransfer_queued (indexed : engine.transfers.Indexed) {ids : List Nat}
    (offered : Offered engine.transfers ids) :
    (ids.foldl startTransfer engine).transfers.Indexed ∧
      slotTotal (slotsOf .queued (ids.foldl startTransfer engine).transfers.jobs) + ids.length =
        slotTotal (slotsOf .queued engine.transfers.jobs) := by
  induction ids generalizing engine with
  | nil => exact ⟨indexed, rfl⟩
  | cons id rest ih =>
    obtain ⟨job, found, isQueued⟩ := offered.queued id List.mem_cons_self
    obtain ⟨still, changed, paths, ended, jobs⟩ := startTransfer_queued indexed found
    have waited : (slotsOf .queued engine.transfers.jobs).get? id =
        some (job.sessionId, job.destination) :=
      get?_slotsOf_eq_some.mpr ⟨job, found, isQueued, rfl⟩
    have fewer : slotTotal (slotsOf .queued (engine.startTransfer id).transfers.jobs) + 1 =
        slotTotal (slotsOf .queued engine.transfers.jobs) := by
      rw [jobs, slotsOf_insert, if_neg ended]
      exact OrderedMap.total_erase_add waited fun _ _ => 1
    obtain ⟨indexedLast, count⟩ := ih still (offered.tail found jobs paths)
    refine ⟨indexedLast, ?_⟩
    rw [List.foldl_cons, List.length_cons, ← fewer, ← count]
    omega

theorem fillRounds_ends (indexed : engine.transfers.Indexed) (order : HashOrder) {rounds : Nat}
    (enough : slotTotal (slotsOf .queued engine.transfers.jobs) < rounds) :
    ∃ full, fillRounds order rounds engine = some full := by
  induction rounds generalizing engine with
  | zero => exact absurd enough (Nat.not_lt_zero _)
  | succ rounds ih =>
    rw [fillRounds]
    have offer := indexed.offered order engine.maxParallel engine.transferLimit
    cases offered : engine.transfers.startableLimited order engine.maxParallel
        engine.transferLimit with
    | nil => exact ⟨engine, rfl⟩
    | cons first rest =>
      rw [offered] at offer
      obtain ⟨still, count⟩ := foldl_startTransfer_queued indexed offer
      rw [List.length_cons] at count
      exact ih still (by omega)

theorem fillRounds_last {order : HashOrder} {rounds : Nat} {full : Engine}
    (ends : fillRounds order rounds engine = some full) :
    full.transfers.startableLimited order full.maxParallel full.transferLimit = [] := by
  induction rounds generalizing engine with
  | zero => cases ends
  | succ rounds ih =>
    rw [fillRounds] at ends
    split at ends
    · cases ends
      assumption
    · exact ih ends

theorem length_queued (indexed : engine.transfers.Indexed) :
    engine.transfers.queued.keys.length = slotTotal (slotsOf .queued engine.transfers.jobs) := by
  rw [indexed.sets.queued_eq]
  unfold recountStatus slotsOf slotTotal OrderedMap.keys OrderedMap.total OrderedMap.filterMap
  dsimp only
  rw [List.length_map, List.map_const', List.sum_replicate, Nat.nsmul_eq_mul, Nat.mul_one]
  induction engine.transfers.jobs.entries with
  | nil => rfl
  | cons entry rest ih =>
    rw [List.filterMap_cons, List.filterMap_cons]
    by_cases isQueued : entry.2.status = .queued <;> simpa [slotIf, isQueued] using ih

theorem fillTransferSlots_eq (indexed : engine.transfers.Indexed) (order : HashOrder) :
    fillRounds order (engine.transfers.queued.keys.length + 1) engine =
      some (engine.fillTransferSlots order) := by
  obtain ⟨full, ends⟩ := fillRounds_ends indexed order
    (Nat.lt_succ_of_le (length_queued indexed).ge)
  rw [fillTransferSlots, ends]
  rfl

/-! ### Filling in moves -/

/-- Jobs that have room in turn are started one after the other. -/
theorem foldl_startTransfer_moves (sound : engine.Sound) {ids : List Nat}
    (inTurn : RoomInTurn engine.maxParallel engine.transferLimit engine.transfers.jobs ids) :
    Moves (fun label => ∃ id, label = .begins id) engine (ids.foldl startTransfer engine) := by
  induction ids generalizing engine with
  | nil => exact .refl _
  | cons id rest ih =>
    obtain ⟨job, found, isQueued, room, later⟩ := inTurn
    have live : engine.connected job.sessionId = true :=
      sound.connections.waiting id job found isQueued
    have change : JobChanged engine.transfers (engine.transfers.startTransfer true id) id job
        (TransferQueue.begin job) := by
      unfold TransferQueue.startTransfer TransferQueue.get
      rw [found]
      exact sound.indexed.editGuarded_jobChanged found ⟨rfl, rfl, rfl, rfl, rfl⟩
    have move : Move (.begins id) engine (engine.startTransfer id) := by
      rw [startTransfer_eq found, if_pos live]
      exact .begins isQueued live (hasRoom_iff.mpr room) change
    have limits : (engine.startTransfer id).transferLimit = engine.transferLimit := by
      rw [startTransfer_eq found, if_pos live]
      rfl
    have jobs : (engine.startTransfer id).transfers.jobs =
        engine.transfers.jobs.insert id (TransferQueue.begin job) := by
      rw [startTransfer_eq found, if_pos live]
      exact change.jobs_eq
    refine (Moves.single move ⟨id, rfl⟩).trans (ih (sound.move move) ?_)
    rwa [maxParallel_move move, limits, jobs]

theorem fillRounds_moves (sound : engine.Sound) {order : HashOrder} {rounds : Nat} {full : Engine}
    (ends : fillRounds order rounds engine = some full) :
    Moves (fun label => ∃ id, label = .begins id) engine full ∧ full.Filled := by
  induction rounds generalizing engine with
  | zero => cases ends
  | succ rounds ih =>
    rw [fillRounds] at ends
    have inTurn := offered_room sound.indexed order
    cases offered : engine.transfers.startableLimited order engine.maxParallel
        engine.transferLimit with
    | nil =>
      rw [offered] at ends
      cases ends
      exact ⟨.refl _, (filled_iff sound.indexed order).mpr offered⟩
    | cons first rest =>
      rw [offered] at ends inTurn
      have moves := foldl_startTransfer_moves sound inTurn
      obtain ⟨later, filled⟩ := ih (moves.sound sound) ends
      exact ⟨moves.trans later, filled⟩

theorem fillTransferSlots_moves (sound : engine.Sound) (order : HashOrder) :
    Moves (fun label => ∃ id, label = .begins id) engine (engine.fillTransferSlots order) ∧
      (engine.fillTransferSlots order).Filled :=
  fillRounds_moves sound (fillTransferSlots_eq sound.indexed order)

end Engine

end Porthmos
