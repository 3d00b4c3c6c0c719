import Porthmos.VersionedWrites

/-!
# The lock table

Whoever has a reference to the lock of a path has the one that the table holds for it.  A lock
is dropped from the table only while nobody has a reference to it, and nobody gets one
before the table is free again.
-/

namespace Porthmos

/-! ### Stages -/

namespace WriteStage

/-- The lock that a write has a reference to. -/
def arc : WriteStage → Option Nat
  | fetched lock | locked lock | entered lock | opened lock | filled lock | replaced lock
  | ended lock _ | unlocked lock _ => some lock
  | _ => none

/-- The lock whose guard a write has. -/
def guard : WriteStage → Option Nat
  | locked lock | entered lock | opened lock | filled lock | replaced lock | ended lock _ => some lock
  | _ => none

/-- A write that walks through the table. -/
def releases : WriteStage → Bool
  | releasing _ _ | checking _ _ _ _ => true
  | _ => false

/-- The path and the lock that a write has found unused. -/
def checks : WriteStage → Option (String × Nat)
  | checking _ _ path lock => some (path, lock)
  | _ => none

/-- The file of the path has been replaced. -/
def wrote : WriteStage → Bool
  | replaced _ | ended _ .written | unlocked _ .written | dropped .written | releasing .written _
  | checking .written _ _ _ | done .written => true
  | _ => false

theorem arc_of_guard {stage : WriteStage} {lock : Nat} (guards : stage.guard = some lock) :
    stage.arc = some lock := by
  cases stage <;> cases guards <;> rfl

end WriteStage

namespace Persist

variable {persist : Persist} {id : Nat} {call : WriteCall} {lock : Nat}

/-- The number of references that calls have to a lock. -/
def refs (calls : OrderedMap Nat WriteCall) (lock : Nat) : Nat :=
  calls.total fun _ call => if call.stage.arc = some lock then 1 else 0

/-! ### Steps -/

/-- What a step of a call does. -/
inductive Acts (persist : Persist) (id : Nat) (call : WriteCall) : Persist → Prop
  | fetches (stage : call.stage = .ready) (free : persist.releasing = none) :
      Acts persist id call ((persist.writeLockFor call.path).1.setStage id call
        (.fetched (persist.writeLockFor call.path).2))
  | locks {lock : Nat} (stage : call.stage = .fetched lock)
      (free : (persist.locks lock).holder = none) :
      Acts persist id call ((persist.setLock lock { persist.locks lock with holder := some id }).setStage
        id call (.locked lock))
  | skips {lock : Nat} (stage : call.stage = .locked lock) (outcome : WriteOutcome)
      (unwritten : outcome ≠ .written) :
      Acts persist id call (persist.setStage id call (.ended lock outcome))
  | enters {lock : Nat} (stage : call.stage = .locked lock)
      (newer : ∀ version, call.version = some version → (persist.locks lock).applied < version) :
      Acts persist id call (persist.setStage id call (.entered lock))
  | opens {lock : Nat} (stage : call.stage = .entered lock) :
      Acts persist id call
        ((persist.setFile (tempPath call.path) (some [])).setStage id call (.opened lock))
  | fills {lock : Nat} (stage : call.stage = .opened lock) :
      Acts persist id call
        ((persist.setFile (tempPath call.path) (some call.contents)).setStage id call (.filled lock))
  | replaces {lock : Nat} (stage : call.stage = .filled lock) :
      Acts persist id call
        (((persist.setFile call.path (persist.files (tempPath call.path))).setFile
          (tempPath call.path) none).setStage id call (.replaced lock))
  | fails {lock : Nat}
      (stage : call.stage = .entered lock ∨ call.stage = .opened lock ∨ call.stage = .filled lock) :
      Acts persist id call (persist.fail id call lock)
  | applies {lock : Nat} (stage : call.stage = .replaced lock) :
      Acts persist id call ((persist.setLock lock { persist.locks lock with
        applied := call.version.getD (persist.locks lock).applied }).setStage id call
          (.ended lock .written))
  | unlocks {lock : Nat} {outcome : WriteOutcome} (stage : call.stage = .ended lock outcome) :
      Acts persist id call ((persist.setLock lock { persist.locks lock with holder := none }).setStage
        id call (.unlocked lock outcome))
  | drops {lock : Nat} {outcome : WriteOutcome} (stage : call.stage = .unlocked lock outcome) :
      Acts persist id call ((persist.setLock lock { persist.locks lock with
        strong := (persist.locks lock).strong - 1 }).setStage id call (.dropped outcome))
  | begins {outcome : WriteOutcome} (stage : call.stage = .dropped outcome)
      (free : persist.releasing = none) :
      Acts persist id call
        { persist.setStage id call (.releasing outcome persist.writeLocks.keys) with
          releasing := some id }
  | passes {outcome : WriteOutcome} (left : List String)
      (stage : (∃ earlier, call.stage = .releasing outcome earlier) ∨
        ∃ path lock, call.stage = .checking outcome left path lock) :
      Acts persist id call (persist.setStage id call (.releasing outcome left))
  | checks {outcome : WriteOutcome} {earlier : List String} (left : List String) {path : String}
      {lock : Nat} (stage : call.stage = .releasing outcome earlier)
      (found : persist.writeLocks.get? path = some lock)
      (unused : (persist.locks lock).strong ≤ 1) :
      Acts persist id call (persist.setStage id call (.checking outcome left path lock))
  | forgets {outcome : WriteOutcome} {left : List String} {path : String} {lock : Nat}
      (stage : call.stage = .checking outcome left path lock)
      (unapplied : (persist.locks lock).applied = 0) :
      Acts persist id call
        ((persist.forgetLock path lock).setStage id call (.releasing outcome left))
  | finishes {outcome : WriteOutcome} {left : List String}
      (stage : call.stage = .releasing outcome left) :
      Acts persist id call
        { persist.setStage id call (.done outcome) with releasing := none }

theorem advance_cases (persist : Persist) (id : Nat) (ok : Bool) (path : String) :
    persist.advance id ok path = persist ∨
      ∃ call, persist.calls.get? id = some call ∧ Acts persist id call (persist.advance id ok path) := by
  unfold advance
  cases found : persist.calls.get? id with
  | none => exact Or.inl rfl
  | some call =>
    dsimp only
    cases stage : call.stage with
    | ready =>
      dsimp only
      split_ifs with held
      · exact Or.inl rfl
      · exact Or.inr ⟨call, rfl, .fetches stage (Option.not_isSome_iff_eq_none.mp held)⟩
    | fetched lock =>
      dsimp only
      split_ifs with held
      · exact Or.inl rfl
      · exact Or.inr ⟨call, rfl, .locks stage (Option.not_isSome_iff_eq_none.mp held)⟩
    | locked lock =>
      dsimp only
      split_ifs with older
      · exact Or.inr ⟨call, rfl, .skips stage _ nofun⟩
      · refine Or.inr ⟨call, rfl, .enters stage fun version isVersion => ?_⟩
        rw [isVersion, Option.any_some, decide_eq_true_eq] at older
        omega
      · exact Or.inr ⟨call, rfl, .skips stage _ nofun⟩
    | entered lock =>
      dsimp only
      split_ifs
      · exact Or.inr ⟨call, rfl, .opens stage⟩
      · exact Or.inr ⟨call, rfl, .fails (Or.inl stage)⟩
    | opened lock =>
      dsimp only
      split_ifs
      · exact Or.inr ⟨call, rfl, .fills stage⟩
      · exact Or.inr ⟨call, rfl, .fails (Or.inr (Or.inl stage))⟩
    | filled lock =>
      dsimp only
      split_ifs
      · exact Or.inr ⟨call, rfl, .replaces stage⟩
      · exact Or.inr ⟨call, rfl, .fails (Or.inr (Or.inr stage))⟩
    | replaced lock => exact Or.inr ⟨call, rfl, .applies stage⟩
    | ended lock outcome => exact Or.inr ⟨call, rfl, .unlocks stage⟩
    | unlocked lock outcome => exact Or.inr ⟨call, rfl, .drops stage⟩
    | dropped outcome =>
      dsimp only
      split_ifs with held
      · exact Or.inl rfl
      · exact Or.inr ⟨call, rfl, .begins stage (Option.not_isSome_iff_eq_none.mp held)⟩
    | releasing outcome left =>
      dsimp only
      split_ifs
      · exact Or.inr ⟨call, rfl, .finishes stage⟩
      · cases isLock : persist.writeLocks.get? path with
        | none => exact Or.inl rfl
        | some lock =>
          dsimp only
          split_ifs with used
          · exact Or.inr ⟨call, rfl, .passes _ (Or.inl ⟨left, stage⟩)⟩
          · exact Or.inr ⟨call, rfl, .checks _ stage isLock (not_lt.mp used)⟩
      · exact Or.inl rfl
    | checking outcome left tried lock =>
      dsimp only
      split_ifs with kept
      · exact Or.inr ⟨call, rfl, .passes left (Or.inr ⟨tried, lock, stage⟩)⟩
      · rw [not_or, not_not] at kept
        exact Or.inr ⟨call, rfl, .forgets stage kept.2⟩
    | done outcome => exact Or.inl rfl

/-! ### The table -/

/-- The table holds the lock of everyone who has a reference, and counts these. -/
structure Sound (persist : Persist) : Prop where
  calls_lt : ∀ id call, persist.calls.get? id = some call → id < persist.nextCall
  locks_lt : ∀ path lock, persist.writeLocks.get? path = some lock → lock < persist.nextLock
  injective : ∀ path other lock, persist.writeLocks.get? path = some lock →
    persist.writeLocks.get? other = some lock → path = other
  arcs : ∀ id call lock, persist.calls.get? id = some call → call.stage.arc = some lock →
    persist.writeLocks.get? call.path = some lock
  strong : ∀ path lock, persist.writeLocks.get? path = some lock →
    (persist.locks lock).strong = 1 + refs persist.calls lock
  guards : ∀ id call lock, persist.calls.get? id = some call → call.stage.guard = some lock →
    (persist.locks lock).holder = some id
  releases : ∀ id call, persist.calls.get? id = some call → call.stage.releases = true →
    persist.releasing = some id
  checks : ∀ id call path lock, persist.calls.get? id = some call →
    call.stage.checks = some (path, lock) →
    persist.writeLocks.get? path = some lock ∧ refs persist.calls lock = 0

theorem refs_setStage (found : persist.calls.get? id = some call) (stage : WriteStage) (lock : Nat) :
    refs (persist.setStage id call stage).calls lock +
        (if call.stage.arc = some lock then 1 else 0) =
      refs persist.calls lock + if stage.arc = some lock then 1 else 0 := by
  have total := OrderedMap.total_insert persist.calls
    (fun _ call => if call.stage.arc = some lock then 1 else 0) id { call with stage }
  rw [found] at total
  exact total

theorem arc_ne_of_refs {other : Nat} {last : WriteCall} (none : refs persist.calls lock = 0)
    (found : persist.calls.get? other = some last) : last.stage.arc ≠ some lock := by
  intro isArc
  have counted := OrderedMap.le_total
    (fun _ call => if call.stage.arc = some lock then 1 else 0) found
  rw [if_pos isArc] at counted
  have positive : 1 ≤ refs persist.calls lock := counted
  omega

theorem get?_setStage_cases {stage : WriteStage} {other : Nat} {last : WriteCall}
    (found : (persist.setStage id call stage).calls.get? other = some last) :
    (other = id ∧ last = { call with stage }) ∨ other ≠ id ∧ persist.calls.get? other = some last :=
  OrderedMap.get?_insert_cases found

namespace Sound

/-- A call goes on without a change to its reference. -/
theorem restage (sound : persist.Sound) (found : persist.calls.get? id = some call)
    {stage : WriteStage} (sameArc : stage.arc = call.stage.arc)
    (guards : ∀ lock, stage.guard = some lock → (persist.locks lock).holder = some id)
    (releases : stage.releases = true → persist.releasing = some id)
    (checks : ∀ path lock, stage.checks = some (path, lock) →
      persist.writeLocks.get? path = some lock ∧ refs persist.calls lock = 0) :
    (persist.setStage id call stage).Sound := by
  have sameRefs (lock : Nat) :
      refs (persist.setStage id call stage).calls lock = refs persist.calls lock := by
    have change := refs_setStage found stage lock
    rw [sameArc] at change
    exact Nat.add_right_cancel change
  constructor
  · intro other last isLast
    rcases get?_setStage_cases isLast with ⟨rfl, _⟩ | ⟨_, earlier⟩
    · exact sound.calls_lt other call found
    · exact sound.calls_lt other last earlier
  · exact sound.locks_lt
  · exact sound.injective
  · intro other last lock isLast isArc
    rcases get?_setStage_cases isLast with ⟨rfl, rfl⟩ | ⟨_, earlier⟩
    · exact sound.arcs other call lock found (sameArc ▸ isArc)
    · exact sound.arcs other last lock earlier isArc
  · intro path lock isLock
    rw [sameRefs]
    exact sound.strong path lock isLock
  · intro other last lock isLast isGuard
    rcases get?_setStage_cases isLast with ⟨rfl, rfl⟩ | ⟨_, earlier⟩
    · exact guards lock isGuard
    · exact sound.guards other last lock earlier isGuard
  · intro other last isLast isReleasing
    rcases get?_setStage_cases isLast with ⟨rfl, rfl⟩ | ⟨_, earlier⟩
    · exact releases isReleasing
    · exact sound.releases other last earlier isReleasing
  · intro other last path lock isLast isChecked
    rw [sameRefs]
    rcases get?_setStage_cases isLast with ⟨rfl, rfl⟩ | ⟨_, earlier⟩
    · exact checks path lock isChecked
    · exact sound.checks other last path lock earlier isChecked

theorem setFile (sound : persist.Sound) (path : String) (contents : Option Bytes) :
    (persist.setFile path contents).Sound :=
  ⟨sound.calls_lt, sound.locks_lt, sound.injective, sound.arcs, sound.strong, sound.guards,
    sound.releases, sound.checks⟩

theorem setLock (sound : persist.Sound) {state : PathLock}
    (strong : state.strong = (persist.locks lock).strong)
    (held : ∀ other last, persist.calls.get? other = some last → last.stage.guard = some lock →
      state.holder = some other) : (persist.setLock lock state).Sound := by
  have value (other : Nat) : (persist.setLock lock state).locks other =
      if other = lock then state else persist.locks other := Function.update_apply ..
  refine ⟨sound.calls_lt, sound.locks_lt, sound.injective, sound.arcs, ?_, ?_, sound.releases,
    sound.checks⟩
  · intro path other isLock
    rw [value]
    split_ifs with same
    · rw [strong, ← same]
      exact sound.strong path other isLock
    · exact sound.strong path other isLock
  · intro other last guarded isLast isGuard
    rw [value]
    split_ifs with same
    · exact held other last isLast (same ▸ isGuard)
    · exact sound.guards other last guarded isLast isGuard

theorem refs_nextLock (sound : persist.Sound) : refs persist.calls persist.nextLock = 0 := by
  refine OrderedMap.total_eq_zero fun id call found => if_neg fun isArc => ?_
  exact absurd (sound.locks_lt _ _ (sound.arcs id call _ found isArc)) (lt_irrefl _)

theorem no_checks (sound : persist.Sound) (free : persist.releasing = none)
    (found : persist.calls.get? id = some call) : call.stage.releases = false := by
  rw [Bool.eq_false_iff]
  intro releases
  have held := sound.releases id call found releases
  rw [free] at held
  cases held

end Sound

/-- A reference more to the lock that the table holds for the path, be it new or not. -/
structure Fetched (persist : Persist) (path : String) (fetched : Persist) (lock : Nat) : Prop where
  calls : fetched.calls = persist.calls
  nextCall : fetched.nextCall = persist.nextCall
  nextVersion : fetched.nextVersion = persist.nextVersion
  files : fetched.files = persist.files
  releasing : fetched.releasing = persist.releasing
  found : fetched.writeLocks.get? path = some lock
  table : ∀ other held, fetched.writeLocks.get? other = some held →
    (other = path ∧ held = lock) ∨ persist.writeLocks.get? other = some held
  kept : ∀ other held, persist.writeLocks.get? other = some held →
    fetched.writeLocks.get? other = some held
  only : ∀ other, fetched.writeLocks.get? other = some lock → other = path
  nextLock_le : persist.nextLock ≤ fetched.nextLock
  lock_lt : lock < fetched.nextLock
  strong : (fetched.locks lock).strong = 2 + refs persist.calls lock
  others : ∀ other ≠ lock, fetched.locks other = persist.locks other
  same : (persist.writeLocks.get? path = some lock ∧
      (fetched.locks lock).holder = (persist.locks lock).holder ∧
      (fetched.locks lock).applied = (persist.locks lock).applied) ∨
    persist.writeLocks.get? path = none ∧ lock = persist.nextLock

theorem Sound.fetched (sound : persist.Sound) (path : String) :
    Fetched persist path (persist.writeLockFor path).1 (persist.writeLockFor path).2 := by
  unfold writeLockFor
  cases isLock : persist.writeLocks.get? path with
  | some lock =>
    refine ⟨rfl, rfl, rfl, rfl, rfl, isLock, fun _ _ => Or.inr, fun _ _ earlier => earlier,
      fun other found => sound.injective _ _ _ found isLock, le_rfl, sound.locks_lt _ _ isLock, ?_,
      fun other different => Function.update_of_ne different _ _, Or.inl ⟨isLock, ?_⟩⟩
    · have strong := sound.strong _ _ isLock
      change (Function.update persist.locks lock _ lock).strong = 2 + refs persist.calls lock
      rw [Function.update_self]
      dsimp only
      omega
    · change (Function.update persist.locks lock _ lock).holder = _ ∧
        (Function.update persist.locks lock _ lock).applied = _
      rw [Function.update_self]
      exact ⟨rfl, rfl⟩
  | none =>
    have inserted (other : String) : (persist.writeLocks.insert path persist.nextLock).get? other =
        if other = path then some persist.nextLock else persist.writeLocks.get? other :=
      OrderedMap.get?_insert ..
    refine ⟨rfl, rfl, rfl, rfl, rfl, ?_, ?_, ?_, ?_, Nat.le_succ _, Nat.lt_succ_self _, ?_,
      fun other different => Function.update_of_ne different _ _, Or.inr ⟨isLock, rfl⟩⟩
    · exact (inserted path).trans (if_pos rfl)
    · intro other held found
      rw [show _ = _ from inserted other] at found
      split_ifs at found with same
      · cases found
        exact Or.inl ⟨same, rfl⟩
      · exact Or.inr found
    · intro other held found
      refine (inserted other).trans ?_
      rw [if_neg, found]
      rintro rfl
      rw [isLock] at found
      cases found
    · intro other found
      rw [show _ = _ from inserted other] at found
      split_ifs at found with same
      · exact same
      · exact absurd (sound.locks_lt _ _ found) (lt_irrefl _)
    · change (Function.update persist.locks persist.nextLock ⟨0, none, 2⟩ persist.nextLock).strong = _
      rw [Function.update_self, sound.refs_nextLock]

namespace Sound

theorem fetch (sound : persist.Sound) (found : persist.calls.get? id = some call)
    (stage : call.stage = .ready) (free : persist.releasing = none) {fetched : Persist}
    (isFetched : Fetched persist call.path fetched lock) :
    (fetched.setStage id call (.fetched lock)).Sound := by
  have isCall : fetched.calls.get? id = some call := isFetched.calls ▸ found
  have noArc : call.stage.arc ≠ some lock := by rw [stage]; exact nofun
  have change (other : Nat) : refs (fetched.setStage id call (.fetched lock)).calls other =
      refs persist.calls other + if lock = other then 1 else 0 := by
    have step := refs_setStage isCall (.fetched lock) other
    rw [isFetched.calls, stage, if_neg (show WriteStage.ready.arc ≠ some other from nofun)] at step
    simpa [WriteStage.arc] using step
  constructor
  · intro other last isLast
    change other < fetched.nextCall
    rw [isFetched.nextCall]
    rcases get?_setStage_cases isLast with ⟨rfl, _⟩ | ⟨_, earlier⟩
    · exact sound.calls_lt other call found
    · exact sound.calls_lt other last (isFetched.calls ▸ earlier)
  · intro path held isHeld
    rcases isFetched.table path held isHeld with ⟨_, rfl⟩ | earlier
    · exact isFetched.lock_lt
    · exact (sound.locks_lt path held earlier).trans_le isFetched.nextLock_le
  · intro path other held isHeld isOther
    rcases isFetched.table path held isHeld with ⟨rfl, rfl⟩ | earlier
    · exact (isFetched.only other isOther).symm
    · rcases isFetched.table other held isOther with ⟨rfl, rfl⟩ | otherEarlier
      · exact isFetched.only path isHeld
      · exact sound.injective path other held earlier otherEarlier
  · intro other last held isLast isArc
    rcases get?_setStage_cases isLast with ⟨rfl, rfl⟩ | ⟨_, earlier⟩
    · cases isArc
      exact isFetched.found
    · exact isFetched.kept _ _ (sound.arcs other last held (isFetched.calls ▸ earlier) isArc)
  · intro path held isHeld
    rw [change]
    change (fetched.locks held).strong = _
    by_cases same : lock = held
    · subst same
      rw [if_pos rfl, isFetched.strong]
      omega
    · rw [if_neg same, isFetched.others held (Ne.symm same)]
      rcases isFetched.table path held isHeld with ⟨_, isLock⟩ | earlier
      · exact absurd isLock.symm same
      · exact sound.strong path held earlier
  · intro other last held isLast isGuard
    rcases get?_setStage_cases isLast with ⟨_, rfl⟩ | ⟨_, earlier⟩
    · cases isGuard
    · rw [isFetched.calls] at earlier
      have holds := sound.guards other last held earlier isGuard
      change (fetched.locks held).holder = some other
      by_cases same : held = lock
      · subst same
        rcases isFetched.same with ⟨_, sameHolder, _⟩ | ⟨_, isNew⟩
        · exact sameHolder.trans holds
        · have known := sound.arcs other last held earlier (WriteStage.arc_of_guard isGuard)
          exact absurd (isNew ▸ sound.locks_lt _ _ known) (lt_irrefl _)
      · rw [isFetched.others held same]
        exact holds
  · intro other last isLast isReleasing
    rcases get?_setStage_cases isLast with ⟨_, rfl⟩ | ⟨_, earlier⟩
    · cases isReleasing
    · rw [sound.no_checks free (isFetched.calls ▸ earlier)] at isReleasing
      cases isReleasing
  · intro other last path held isLast isChecked
    rcases get?_setStage_cases isLast with ⟨_, rfl⟩ | ⟨_, earlier⟩
    · cases isChecked
    · have releases : last.stage.releases = true := by
        cases isStage : last.stage <;> rw [isStage] at isChecked <;> cases isChecked
        rfl
      rw [sound.no_checks free (isFetched.calls ▸ earlier)] at releases
      cases releases

/-- A reference to the lock is dropped. -/
theorem drop (sound : persist.Sound) (found : persist.calls.get? id = some call)
    {outcome : WriteOutcome} (stage : call.stage = .unlocked lock outcome) {state : PathLock}
    (strong : state.strong = (persist.locks lock).strong - 1)
    (holder : state.holder = (persist.locks lock).holder) :
    ((persist.setLock lock state).setStage id call (.dropped outcome)).Sound := by
  have value (other : Nat) : (persist.setLock lock state).locks other =
      if other = lock then state else persist.locks other := Function.update_apply ..
  have change (other : Nat) : refs ((persist.setLock lock state).setStage id call
      (.dropped outcome)).calls other + (if lock = other then 1 else 0) = refs persist.calls other := by
    have step := refs_setStage found (.dropped outcome) other
    rw [stage, if_neg (show (WriteStage.dropped outcome).arc ≠ some other from nofun)] at step
    simp only [WriteStage.arc, Option.some.injEq] at step
    exact step
  constructor
  · intro other last isLast
    rcases get?_setStage_cases isLast with ⟨rfl, _⟩ | ⟨_, earlier⟩
    · exact sound.calls_lt other call found
    · exact sound.calls_lt other last earlier
  · exact sound.locks_lt
  · exact sound.injective
  · intro other last held isLast isArc
    rcases get?_setStage_cases isLast with ⟨_, rfl⟩ | ⟨_, earlier⟩
    · cases isArc
    · exact sound.arcs other last held earlier isArc
  · intro path held isHeld
    have counted := sound.strong path held isHeld
    have references := change held
    change ((persist.setLock lock state).locks held).strong = _
    rw [value]
    split_ifs with same
    · subst same
      rw [if_pos rfl] at references
      omega
    · rw [if_neg (Ne.symm same)] at references
      omega
  · intro other last held isLast isGuard
    rcases get?_setStage_cases isLast with ⟨_, rfl⟩ | ⟨_, earlier⟩
    · cases isGuard
    · change ((persist.setLock lock state).locks held).holder = _
      rw [value]
      split_ifs with same
      · rw [holder, ← same]
        exact sound.guards other last held earlier isGuard
      · exact sound.guards other last held earlier isGuard
  · intro other last isLast isReleasing
    rcases get?_setStage_cases isLast with ⟨_, rfl⟩ | ⟨_, earlier⟩
    · cases isReleasing
    · exact sound.releases other last earlier isReleasing
  · intro other last path held isLast isChecked
    rcases get?_setStage_cases isLast with ⟨_, rfl⟩ | ⟨_, earlier⟩
    · cases isChecked
    · obtain ⟨inTable, none⟩ := sound.checks other last path held earlier isChecked
      have references := change held
      exact ⟨inTable, by omega⟩

/-- A path is forgotten while nobody has a reference to its lock. -/
theorem forget (sound : persist.Sound) {path : String}
    (inTable : persist.writeLocks.get? path = some lock) (none : refs persist.calls lock = 0)
    (noneChecks : ∀ other last, persist.calls.get? other = some last → last.stage.checks = .none) :
    (persist.forgetLock path lock).Sound := by
  have fewer {other : String} {held : Nat}
      (isHeld : (persist.writeLocks.erase path).get? other = some held) :
      other ≠ path ∧ persist.writeLocks.get? other = some held := by
    rw [OrderedMap.get?_erase] at isHeld
    split_ifs at isHeld with same
    exact ⟨same, isHeld⟩
  have others {held : Nat} (different : held ≠ lock) :
      (persist.forgetLock path lock).locks held = persist.locks held :=
    Function.update_of_ne different _ _
  constructor
  · exact sound.calls_lt
  · exact fun other held isHeld => sound.locks_lt other held (fewer isHeld).2
  · exact fun first second held isFirst isSecond =>
      sound.injective first second held (fewer isFirst).2 (fewer isSecond).2
  · intro other last held isLast isArc
    have known := sound.arcs other last held isLast isArc
    change (persist.writeLocks.erase path).get? last.path = some held
    rw [OrderedMap.get?_erase, if_neg, known]
    rintro rfl
    rw [inTable] at known
    cases known
    exact arc_ne_of_refs none isLast isArc
  · intro other held isHeld
    obtain ⟨different, known⟩ := fewer isHeld
    rw [others]
    · exact sound.strong other held known
    · rintro rfl
      exact different (sound.injective other path held known inTable)
  · intro other last held isLast isGuard
    rw [others]
    · exact sound.guards other last held isLast isGuard
    · rintro rfl
      exact arc_ne_of_refs none isLast (WriteStage.arc_of_guard isGuard)
  · exact sound.releases
  · intro other last checked held isLast isChecked
    rw [noneChecks other last isLast] at isChecked
    cases isChecked

theorem releases_of_checks {stage : WriteStage} {checked : String × Nat}
    (checks : stage.checks = some checked) : stage.releases = true := by
  cases stage <;> cases checks
  rfl

theorem eq_of_releases (sound : persist.Sound) {other : Nat} {last : WriteCall}
    (found : persist.calls.get? id = some call) (releases : call.stage.releases = true)
    (isLast : persist.calls.get? other = some last) (otherReleases : last.stage.releases = true) :
    other = id := by
  have held := sound.releases id call found releases
  rw [sound.releases other last isLast otherReleases] at held
  exact Option.some.inj held

/-- A step of a call keeps to the table. -/
theorem acts (sound : persist.Sound) (found : persist.calls.get? id = some call) {after : Persist}
    (acts : Acts persist id call after) : after.Sound := by
  -- A write that keeps its guard.
  have goesOn {middle : Persist} (isSound : middle.Sound) (same : middle.calls = persist.calls)
      (locks : middle.locks = persist.locks) {stage : WriteStage} (guard : stage.guard = call.stage.guard)
      (arc : stage.arc = call.stage.arc) (noRelease : stage.releases = false)
      (noCheck : stage.checks = none) : (middle.setStage id call stage).Sound := by
    refine isSound.restage (same ▸ found) arc (fun lock isGuard => ?_) ?_ ?_
    · rw [locks]
      exact sound.guards id call lock found (guard ▸ isGuard)
    · rw [noRelease]
      exact nofun
    · rw [noCheck]
      exact nofun
  cases acts with
  | fetches stage free => exact sound.fetch found stage free (sound.fetched call.path)
  | @locks lock stage free =>
    have held : (persist.setLock lock { persist.locks lock with holder := some id }).Sound := by
      refine sound.setLock rfl fun other last isLast isGuard => ?_
      rw [sound.guards other last lock isLast isGuard] at free
      cases free
    refine held.restage found (by rw [stage]; rfl) (fun other isGuard => ?_) nofun nofun
    cases isGuard
    change (Function.update persist.locks lock _ lock).holder = _
    rw [Function.update_self]
  | skips stage outcome =>
    exact goesOn sound rfl rfl (by rw [stage]; rfl) (by rw [stage]; rfl) rfl rfl
  | enters stage newer =>
    exact goesOn sound rfl rfl (by rw [stage]; rfl) (by rw [stage]; rfl) rfl rfl
  | opens stage =>
    exact goesOn (sound.setFile _ _) rfl rfl (by rw [stage]; rfl) (by rw [stage]; rfl) rfl rfl
  | fills stage =>
    exact goesOn (sound.setFile _ _) rfl rfl (by rw [stage]; rfl) (by rw [stage]; rfl) rfl rfl
  | replaces stage =>
    exact goesOn ((sound.setFile _ _).setFile _ _) rfl rfl (by rw [stage]; rfl)
      (by rw [stage]; rfl) rfl rfl
  | fails stage =>
    rcases stage with stage | stage | stage <;>
      exact goesOn (sound.setFile _ _) rfl rfl (by rw [stage]; rfl) (by rw [stage]; rfl) rfl rfl
  | @applies lock stage =>
    have isGuard : call.stage.guard = some lock := by rw [stage]; rfl
    have applied : (persist.setLock lock { persist.locks lock with
        applied := call.version.getD (persist.locks lock).applied }).Sound :=
      sound.setLock rfl fun other last isLast => sound.guards other last lock isLast
    refine applied.restage found (by rw [stage]; rfl) (fun other isOther => ?_) nofun nofun
    cases isOther
    change (Function.update persist.locks lock _ lock).holder = _
    rw [Function.update_self]
    exact sound.guards id call lock found isGuard
  | @unlocks lock outcome stage =>
    have ended : (persist.setStage id call (.unlocked lock outcome)).Sound :=
      sound.restage found (by rw [stage]; rfl) nofun nofun nofun
    refine ended.setLock rfl fun other last isLast isGuard => ?_
    have holds : (persist.locks lock).holder = some id :=
      sound.guards id call lock found (by rw [stage]; rfl)
    rcases get?_setStage_cases isLast with ⟨_, rfl⟩ | ⟨different, earlier⟩
    · cases isGuard
    · rw [sound.guards other last lock earlier isGuard] at holds
      exact absurd (Option.some.inj holds) different
  | drops stage => exact sound.drop found stage rfl rfl
  | @begins outcome stage free =>
    have none (other : Nat) (last : WriteCall) (isLast : persist.calls.get? other = some last) :
        last.stage.releases = false := sound.no_checks free isLast
    have held : ({ persist with releasing := some id }).Sound := by
      refine ⟨sound.calls_lt, sound.locks_lt, sound.injective, sound.arcs, sound.strong,
        sound.guards, fun other last isLast isReleasing => ?_, sound.checks⟩
      rw [none other last isLast] at isReleasing
      cases isReleasing
    exact held.restage found (by rw [stage]; rfl) nofun (fun _ => rfl) nofun
  | @passes outcome left stage =>
    have isRelease : call.stage.releases = true ∧ call.stage.arc = none := by
      rcases stage with ⟨earlier, stage⟩ | ⟨path, lock, stage⟩ <;> rw [stage] <;> exact ⟨rfl, rfl⟩
    exact sound.restage found isRelease.2.symm nofun
      (fun _ => sound.releases id call found isRelease.1) nofun
  | @checks outcome earlier left path lock stage isLock unused =>
    refine sound.restage found (by rw [stage]; rfl) nofun
      (fun _ => sound.releases id call found (by rw [stage]; rfl)) fun other held isChecked => ?_
    cases isChecked
    have strong := sound.strong path lock isLock
    exact ⟨isLock, by omega⟩
  | @forgets outcome left path lock stage unapplied =>
    have isRelease : call.stage.releases = true := by rw [stage]; rfl
    obtain ⟨inTable, none⟩ := sound.checks id call path lock found (by rw [stage]; rfl)
    have passed : (persist.setStage id call (.releasing outcome left)).Sound :=
      sound.restage found (by rw [stage]; rfl) nofun
        (fun _ => sound.releases id call found isRelease) nofun
    refine passed.forget inTable ?_ fun other last isLast => ?_
    · have change := refs_setStage found (.releasing outcome left) lock
      rw [stage] at change
      exact (Nat.add_right_cancel change).trans none
    · rcases get?_setStage_cases isLast with ⟨_, rfl⟩ | ⟨different, earlier⟩
      · rfl
      · cases isChecked : last.stage.checks with
        | none => rfl
        | some checked =>
          exact absurd (sound.eq_of_releases found isRelease earlier
            (releases_of_checks isChecked)) different
  | @finishes outcome left stage =>
    have done : (persist.setStage id call (.done outcome)).Sound :=
      sound.restage found (by rw [stage]; rfl) nofun nofun nofun
    refine ⟨done.calls_lt, done.locks_lt, done.injective, done.arcs, done.strong, done.guards,
      fun other last isLast isReleasing => ?_, done.checks⟩
    rcases get?_setStage_cases isLast with ⟨_, rfl⟩ | ⟨different, earlier⟩
    · cases isReleasing
    · exact absurd (sound.eq_of_releases found (by rw [stage]; rfl) earlier isReleasing) different

theorem issue (sound : persist.Sound) (path : String) (contents : Bytes) (versioned : Bool) :
    (persist.issue path contents versioned).Sound := by
  have fresh : persist.calls.get? persist.nextCall = none := by
    rw [Option.eq_none_iff_forall_ne_some]
    exact fun call found => lt_irrefl _ (sound.calls_lt _ call found)
  have sameRefs (lock : Nat) :
      refs (persist.issue path contents versioned).calls lock = refs persist.calls lock :=
    OrderedMap.total_insert_new fresh _ _
  have cases {other : Nat} {last : WriteCall}
      (found : (persist.issue path contents versioned).calls.get? other = some last) :
      last.stage = .ready ∧ other = persist.nextCall ∨ persist.calls.get? other = some last := by
    rcases OrderedMap.get?_insert_cases found with ⟨isNew, rfl⟩ | ⟨_, earlier⟩
    · exact Or.inl ⟨rfl, isNew⟩
    · exact Or.inr earlier
  constructor
  · intro other last isLast
    rcases cases isLast with ⟨_, rfl⟩ | earlier
    · exact Nat.lt_succ_self _
    · exact (sound.calls_lt other last earlier).trans (Nat.lt_succ_self _)
  · exact sound.locks_lt
  · exact sound.injective
  · intro other last lock isLast isArc
    rcases cases isLast with ⟨stage, _⟩ | earlier
    · rw [stage] at isArc
      cases isArc
    · exact sound.arcs other last lock earlier isArc
  · intro other lock isLock
    rw [sameRefs]
    exact sound.strong other lock isLock
  · intro other last lock isLast isGuard
    rcases cases isLast with ⟨stage, _⟩ | earlier
    · rw [stage] at isGuard
      cases isGuard
    · exact sound.guards other last lock earlier isGuard
  · intro other last isLast isReleasing
    rcases cases isLast with ⟨stage, _⟩ | earlier
    · rw [stage] at isReleasing
      cases isReleasing
    · exact sound.releases other last earlier isReleasing
  · intro other last checked lock isLast isChecked
    rw [sameRefs]
    rcases cases isLast with ⟨stage, _⟩ | earlier
    · rw [stage] at isChecked
      cases isChecked
    · exact sound.checks other last checked lock earlier isChecked

theorem next (sound : persist.Sound) (step : PersistStep) : (persist.next step).Sound := by
  cases step with
  | issue path contents versioned => exact sound.issue path contents versioned
  | advance id ok path =>
    change (persist.advance id ok path).Sound
    rcases advance_cases persist id ok path with same | ⟨call, found, acts⟩
    · rw [same]
      exact sound
    · exact sound.acts found acts

end Sound

theorem sound_start (files : String → Option Bytes) : (start files).Sound where
  calls_lt := by intro id call found; cases found
  locks_lt := by intro path lock found; cases found
  injective := by intro path other lock found; cases found
  arcs := by intro id call lock found; cases found
  strong := by intro path lock found; cases found
  guards := by intro id call lock found; cases found
  releases := by intro id call found; cases found
  checks := by intro id call path lock found; cases found

end Persist

end Porthmos
