import Mathlib.Logic.Function.Basic
import Mathlib.Logic.Relation

/-!
# The table of tasks

A task is entered into the table by the thread that spawns it, which holds the table's lock from
before the task can run, and taken out when its future has ended; then everyone who waits is
notified.  A waiter registers for the notification before it looks at the table, so that none is
missed.  Threads, tasks and waiters take their steps in any order.
-/

namespace Porthmos

namespace TaskTable

inductive Phase
  | running
  /-- The future has ended, and the table is not yet locked to take the entry out. -/
  | ended
  /-- The entry is taken out, and nobody is notified yet. -/
  | removed
  | gone

structure Task where
  name : String
  phase : Phase

inductive Stage
  | looping
  /-- Registered for the next notification. -/
  | enabled
  | sleeping
  | returned (success : Bool)

/-- `wait_for_name`, or `shutdown`, which waits for the tasks of every name. -/
structure Waiter where
  awaited : Option String
  stage : Stage
  notified : Bool

def Waiter.Awaits (waiter : Waiter) (name : String) : Prop :=
  waiter.awaited = none ∨ waiter.awaited = some name

/-- `notify_waiters` reaches those who have registered. -/
def Waiter.notify (waiter : Waiter) : Waiter :=
  match waiter.stage with
  | .enabled | .sleeping => { waiter with notified := true }
  | _ => waiter

structure Tasks where
  next : Nat := 0
  tasks : Nat → Option Task := fun _ => none
  live : List (Nat × String) := []
  /-- The entry of a task that is being spawned, under the lock of `live`. -/
  inserting : Option (Nat × String) := none
  aborted : List Nat := []
  waiters : Nat → Option Waiter := fun _ => none

namespace Tasks

def setTask (state : Tasks) (id : Nat) (name : String) (phase : Phase) : Tasks :=
  { state with tasks := Function.update state.tasks id (some ⟨name, phase⟩) }

def setWaiter (state : Tasks) (id : Nat) (waiter : Waiter) : Tasks :=
  { state with waiters := Function.update state.waiters id (some waiter) }

end Tasks

/-- The steps of the threads; what needs the lock waits until no task is being spawned. -/
inductive Step (state : Tasks) : Tasks → Prop
  | spawns (name : String) (free : state.inserting = none) : Step state
      { state.setTask state.next name .running with
        next := state.next + 1
        inserting := some (state.next, name) }
  | inserts {entry : Nat × String} (held : state.inserting = some entry) : Step state
      { state with live := entry :: state.live, inserting := none }
  | ends {id : Nat} {name : String} (found : state.tasks id = some ⟨name, .running⟩) :
      Step state (state.setTask id name .ended)
  | removes {id : Nat} {name : String} (found : state.tasks id = some ⟨name, .ended⟩)
      (free : state.inserting = none) : Step state
      { state.setTask id name .removed with live := state.live.filter fun entry => entry.1 ≠ id }
  | notifies {id : Nat} {name : String} (found : state.tasks id = some ⟨name, .removed⟩) : Step state
      { state.setTask id name .gone with
        waiters := fun waiter => (state.waiters waiter).map Waiter.notify }
  /-- The future of an aborted task is dropped. -/
  | drops {id : Nat} {name : String} (found : state.tasks id = some ⟨name, .running⟩)
      (isAborted : id ∈ state.aborted) : Step state (state.setTask id name .gone)
  | waits {id : Nat} (isNew : state.waiters id = none) (awaited : Option String) :
      Step state (state.setWaiter id ⟨awaited, .looping, false⟩)
  | enables {id : Nat} {waiter : Waiter} (found : state.waiters id = some waiter)
      (loops : waiter.stage = .looping) :
      Step state (state.setWaiter id { waiter with stage := .enabled, notified := false })
  | returns {id : Nat} {waiter : Waiter} (found : state.waiters id = some waiter)
      (enabled : waiter.stage = .enabled) (free : state.inserting = none)
      (nothing : ∀ entry ∈ state.live, ¬ waiter.Awaits entry.2) :
      Step state (state.setWaiter id { waiter with stage := .returned true })
  | sleeps {id : Nat} {waiter : Waiter} {entry : Nat × String}
      (found : state.waiters id = some waiter) (enabled : waiter.stage = .enabled)
      (free : state.inserting = none) (isLive : entry ∈ state.live) (awaits : waiter.Awaits entry.2) :
      Step state (state.setWaiter id { waiter with stage := .sleeping })
  | wakes {id : Nat} {waiter : Waiter} (found : state.waiters id = some waiter)
      (sleeps : waiter.stage = .sleeping) (isNotified : waiter.notified = true) :
      Step state (state.setWaiter id { waiter with stage := .looping })
  | expires {id : Nat} {waiter : Waiter} (found : state.waiters id = some waiter)
      (sleeps : waiter.stage = .sleeping) :
      Step state (state.setWaiter id { waiter with stage := .returned false })
  | aborts (free : state.inserting = none) : Step state
      { state with live := [], aborted := state.aborted ++ state.live.map Prod.fst }

/-- A run of the steps, from an empty table. -/
def Run (state : Tasks) : Prop := Relation.ReflTransGen Step {} state

/-! ### What is in the table -/

/-- The task of an entry has not been taken out of the table, nor been aborted. -/
def Tasks.Unfinished (state : Tasks) (entry : Nat × String) : Prop :=
  entry.1 ∉ state.aborted ∧ (state.tasks entry.1 = some ⟨entry.2, .running⟩ ∨
    state.tasks entry.1 = some ⟨entry.2, .ended⟩)

structure Tabled (state : Tasks) : Prop where
  fresh : ∀ id, state.next ≤ id → state.tasks id = none
  older : ∀ id ∈ state.aborted, id < state.next
  unfinished : ∀ entry, entry ∈ state.live ∨ state.inserting = some entry → state.Unfinished entry
  complete : ∀ entry, state.Unfinished entry → entry ∈ state.live ∨ state.inserting = some entry

variable {state after : Tasks} {id : Nat} {name : String} {task : Task} {entry : Nat × String}

theorem Tabled.lt_next (tabled : Tabled state) (found : state.tasks id = some task) :
    id < state.next := by
  by_contra late
  rw [tabled.fresh id (Nat.le_of_not_lt late)] at found
  cases found

theorem Tasks.Unfinished.found (unfinished : state.Unfinished entry) :
    ∃ task, state.tasks entry.1 = some task ∧ task.name = entry.2 ∧
      (task.phase = .running ∨ task.phase = .ended) := by
  rcases unfinished.2 with found | found
  · exact ⟨_, found, rfl, .inl rfl⟩
  · exact ⟨_, found, rfl, .inr rfl⟩

theorem unfinished_setTask (phase : Phase) (other : entry.1 ≠ id) :
    (state.setTask id name phase).Unfinished entry ↔ state.Unfinished entry := by
  unfold Tasks.Unfinished Tasks.setTask
  dsimp only
  rw [Function.update_of_ne other]

theorem Tabled.setTask (tabled : Tabled state) {phase : Phase} (found : state.tasks id = some task)
    (same : ∀ entryName, (state.setTask id name phase).Unfinished (id, entryName) ↔
      state.Unfinished (id, entryName)) : Tabled (state.setTask id name phase) := by
  have unchanged (entry : Nat × String) :
      (state.setTask id name phase).Unfinished entry ↔ state.Unfinished entry := by
    by_cases isSame : entry.1 = id
    · subst isSame
      exact same entry.2
    · exact unfinished_setTask phase isSame
  refine ⟨fun other late => ?_, tabled.older, fun entry listed => ?_, fun entry unfinished => ?_⟩
  · have different : other ≠ id := by
      have := tabled.lt_next found
      rintro rfl
      exact Nat.not_le_of_lt this late
    exact (Function.update_of_ne different _ _).trans (tabled.fresh other late)
  · exact (unchanged entry).mpr (tabled.unfinished entry listed)
  · exact tabled.complete entry ((unchanged entry).mp unfinished)

theorem Tabled.setTask_out (tabled : Tabled state) {phase : Phase}
    (found : state.tasks id = some task) (isOut : ∀ entryName, ¬ state.Unfinished (id, entryName))
    (staysOut : phase = .removed ∨ phase = .gone) : Tabled (state.setTask id name phase) := by
  refine tabled.setTask found fun entryName => iff_of_false ?_ (isOut entryName)
  rintro ⟨-, isFound⟩
  simp only [Tasks.setTask, Function.update_self, Option.some.injEq, Task.mk.injEq] at isFound
  rcases staysOut with rfl | rfl <;> simp at isFound

theorem Tabled.step (tabled : Tabled state) (step : Step state after) : Tabled after := by
  cases step with
  | spawns name free =>
    have older (entry : Nat × String) (unfinished : state.Unfinished entry) :
        entry.1 ≠ state.next := by
      obtain ⟨task, found, -⟩ := unfinished.found
      exact Nat.ne_of_lt (tabled.lt_next found)
    refine ⟨fun id late => ?_, fun id aborted => Nat.lt_succ_of_lt (tabled.older id aborted),
      fun entry listed => ?_, fun entry unfinished => ?_⟩
    · exact (Function.update_of_ne (Nat.ne_of_gt late) _ _).trans
        (tabled.fresh id (Nat.le_of_succ_le late))
    · rcases listed with listed | inserting
      · have unfinished := tabled.unfinished entry (.inl listed)
        exact (unfinished_setTask .running (older entry unfinished)).mpr unfinished
      · cases inserting
        exact ⟨fun aborted => Nat.lt_irrefl _ (tabled.older _ aborted),
          .inl (Function.update_self ..)⟩
    · by_cases isNew : entry.1 = state.next
      · obtain ⟨id, entryName⟩ := entry
        cases isNew
        have isName := unfinished.2
        simp [Tasks.setTask] at isName
        exact .inr (by rw [isName])
      · rcases tabled.complete entry ((unfinished_setTask .running isNew).mp unfinished) with
          listed | held
        · exact .inl listed
        · rw [free] at held
          cases held
  | @inserts entry held =>
    refine ⟨tabled.fresh, tabled.older, fun other listed => ?_, fun other unfinished => ?_⟩
    · rcases listed with (_ | ⟨_, listed⟩) | inserting
      · exact tabled.unfinished _ (.inr held)
      · exact tabled.unfinished _ (.inl listed)
      · cases inserting
    · rcases tabled.complete other unfinished with listed | isHeld
      · exact .inl (List.mem_cons_of_mem _ listed)
      · rw [held] at isHeld
        cases isHeld
        exact .inl (List.mem_cons_self ..)
  | @ends id name found =>
    refine tabled.setTask found fun entryName => ?_
    simp [Tasks.Unfinished, Tasks.setTask, found]
  | @removes id name found free =>
    have isGone (entryName : String) :
        ¬ (state.setTask id name .removed).Unfinished (id, entryName) := by
      simp [Tasks.Unfinished, Tasks.setTask]
    refine ⟨fun other late => ?_, tabled.older, fun entry listed => ?_, fun entry unfinished => ?_⟩
    · have different : other ≠ id := Nat.ne_of_gt (Nat.lt_of_lt_of_le (tabled.lt_next found) late)
      exact (Function.update_of_ne different _ _).trans (tabled.fresh other late)
    · rcases listed with listed | held
      · obtain ⟨listed, other⟩ := List.mem_filter.mp listed
        exact (unfinished_setTask .removed (of_decide_eq_true other)).mpr
          (tabled.unfinished entry (.inl listed))
      · exact absurd (free.symm.trans held) (by simp)
    · have other : entry.1 ≠ id := by
        rintro rfl
        exact isGone entry.2 unfinished
      refine (tabled.complete entry ((unfinished_setTask .removed other).mp unfinished)).imp_left
        fun listed => List.mem_filter.mpr ⟨listed, decide_eq_true other⟩
  | @notifies id name found =>
    have isOut (entryName : String) : ¬ state.Unfinished (id, entryName) := by
      simp [Tasks.Unfinished, found]
    have gone : Tabled (state.setTask id name .gone) :=
      tabled.setTask_out found isOut (.inr rfl)
    exact ⟨gone.fresh, gone.older, gone.unfinished, gone.complete⟩
  | @drops id name found isAborted =>
    exact tabled.setTask_out found (fun entryName unfinished => unfinished.1 isAborted) (.inr rfl)
  | aborts free =>
    refine ⟨tabled.fresh, fun id aborted => ?_, fun entry listed => ?_, fun entry unfinished => ?_⟩
    · rcases List.mem_append.mp aborted with aborted | listed
      · exact tabled.older id aborted
      · obtain ⟨entry, isLive, rfl⟩ := List.mem_map.mp listed
        obtain ⟨task, found, -⟩ := (tabled.unfinished entry (.inl isLive)).found
        exact tabled.lt_next found
    · rw [free] at listed
      simp at listed
    · obtain ⟨notAborted, found⟩ := unfinished
      rw [List.mem_append, not_or] at notAborted
      rcases tabled.complete entry ⟨notAborted.1, found⟩ with listed | held
      · exact absurd (List.mem_map_of_mem listed) notAborted.2
      · exact .inr held
  | waits | enables | returns | sleeps | wakes | expires =>
    exact ⟨tabled.fresh, tabled.older, tabled.unfinished, tabled.complete⟩

/-! ### Waiting -/

/-- A task that it awaits is about to notify everyone. -/
def Tasks.Notifies (state : Tasks) (waiter : Waiter) : Prop :=
  ∃ id name, state.tasks id = some ⟨name, .removed⟩ ∧ waiter.Awaits name

/-- Something is there that will wake the waiter up. -/
def Tasks.Stirs (state : Tasks) (waiter : Waiter) : Prop :=
  state.aborted ≠ [] ∨ (∃ entry ∈ state.live, waiter.Awaits entry.2) ∨ state.Notifies waiter

/-- No wakeup is lost. -/
def Wakeful (state : Tasks) : Prop :=
  ∀ id waiter, state.waiters id = some waiter → waiter.stage = .sleeping →
    waiter.notified = false → state.Stirs waiter

variable {waiter : Waiter}

theorem Tasks.Notifies.setTask (notifies : state.Notifies waiter) (phase : Phase)
    (quiet : ∀ task, state.tasks id = some task → task.phase ≠ .removed) :
    (state.setTask id name phase).Notifies waiter := by
  obtain ⟨other, otherName, isRemoved, awaits⟩ := notifies
  have different : other ≠ id := by
    rintro rfl
    exact quiet _ isRemoved rfl
  exact ⟨other, otherName, (Function.update_of_ne different _ _).trans isRemoved, awaits⟩

theorem Tasks.Stirs.setTask (stirs : state.Stirs waiter) (phase : Phase)
    (quiet : ∀ task, state.tasks id = some task → task.phase ≠ .removed) :
    (state.setTask id name phase).Stirs waiter :=
  stirs.imp_right (Or.imp_right fun notifies => notifies.setTask phase quiet)

theorem Wakeful.setWaiter (wakeful : Wakeful state)
    (stirs : waiter.stage = .sleeping → waiter.notified = false → state.Stirs waiter) :
    Wakeful (state.setWaiter id waiter) := by
  intro other found isFound
  by_cases same : other = id
  · subst same
    simp only [Tasks.setWaiter, Function.update_self, Option.some.injEq] at isFound
    subst isFound
    exact stirs
  · exact wakeful other found ((Function.update_of_ne same _ _).symm.trans isFound)

theorem Waiter.not_sleeping_notify {waiter : Waiter} (sleeps : waiter.notify.stage = .sleeping) :
    waiter.notify.notified = true := by
  cases waiter with
  | mk awaited stage notified => cases stage <;> simp_all [Waiter.notify]

theorem Wakeful.step (tabled : Tabled state) (wakeful : Wakeful state) (step : Step state after) :
    Wakeful after := by
  cases step with
  | spawns name free =>
    intro id waiter found sleeps quiet
    exact (wakeful id waiter found sleeps quiet).setTask .running (by simp [tabled.fresh])
  | @inserts entry held =>
    intro id waiter found sleeps quiet
    refine (wakeful id waiter found sleeps quiet).imp_right (Or.imp_left ?_)
    rintro ⟨other, listed, awaits⟩
    exact ⟨other, List.mem_cons_of_mem _ listed, awaits⟩
  | @ends id name found =>
    intro other waiter isWaiter sleeps quiet
    exact (wakeful other waiter isWaiter sleeps quiet).setTask .ended (by simp [found])
  | @removes id name found free =>
    intro other waiter isWaiter sleeps quiet
    rcases wakeful other waiter isWaiter sleeps quiet with
      aborted | ⟨entry, listed, awaits⟩ | notifies
    · exact .inl aborted
    · by_cases same : entry.1 = id
      · -- What it waited for is out of the table, and everyone will be notified.
        subst same
        have isName := (tabled.unfinished entry (.inl listed)).2
        simp only [found, Option.some.injEq, Task.mk.injEq] at isName
        refine .inr (.inr ⟨entry.1, name, Function.update_self .., ?_⟩)
        rcases isName with ⟨rfl, -⟩ | ⟨rfl, -⟩ <;> exact awaits
      · exact .inr (.inl ⟨entry, List.mem_filter.mpr ⟨listed, decide_eq_true same⟩, awaits⟩)
    · exact .inr (.inr (Tasks.Notifies.setTask notifies .removed (by simp [found])))
  | @notifies id name found =>
    intro other waiter isWaiter sleeps quiet
    obtain ⟨before, -, rfl⟩ := Option.map_eq_some_iff.mp isWaiter
    rw [Waiter.not_sleeping_notify sleeps] at quiet
    cases quiet
  | @drops id name found isAborted =>
    intro other waiter isWaiter sleeps quiet
    exact (wakeful other waiter isWaiter sleeps quiet).setTask .gone (by simp [found])
  | waits isNew awaited => exact wakeful.setWaiter nofun
  | enables => exact wakeful.setWaiter nofun
  | returns => exact wakeful.setWaiter nofun
  | @sleeps id waiter entry found enabled free isLive awaits =>
    exact wakeful.setWaiter fun _ _ => .inr (.inl ⟨entry, isLive, awaits⟩)
  | wakes => exact wakeful.setWaiter nofun
  | expires => exact wakeful.setWaiter nofun
  | aborts free =>
    intro id waiter found sleeps quiet
    rcases wakeful id waiter found sleeps quiet with aborted | ⟨entry, listed, -⟩ | notifies
    · exact .inl (List.append_ne_nil_of_left_ne_nil aborted _)
    · exact .inl (List.append_ne_nil_of_right_ne_nil _
        (List.ne_nil_of_mem (List.mem_map_of_mem listed)))
    · exact .inr (.inr notifies)

theorem tabled_of_run (run : Run state) : Tabled state ∧ Wakeful state := by
  induction run with
  | refl =>
    refine ⟨⟨fun _ _ => rfl, nofun, ?_, ?_⟩, nofun⟩
    · rintro entry (listed | held)
      · cases listed
      · cases held
    · intro entry unfinished
      obtain ⟨task, found, -⟩ := unfinished.found
      cases found
  | tail _ step kept => exact ⟨kept.1.step step, kept.2.step kept.1 step⟩

/-- While no task is being spawned, the table lists the tasks that run, and those that have ended
and are not taken out yet, unless they have been aborted: no task is forgotten, and no entry
outlives its task. -/
theorem listed_iff (run : Run state) (free : state.inserting = none) (id : Nat) (name : String) :
    (id, name) ∈ state.live ↔ id ∉ state.aborted ∧
      (state.tasks id = some ⟨name, .running⟩ ∨ state.tasks id = some ⟨name, .ended⟩) := by
  have tabled := (tabled_of_run run).1
  constructor
  · exact fun listed => tabled.unfinished (id, name) (.inl listed)
  · intro unfinished
    rcases tabled.complete (id, name) unfinished with listed | held
    · exact listed
    · rw [free] at held
      cases held

theorem listed_iff_copy : ∃ state, Run state ∧ ((0, "copy") ∈ state.live ↔ 0 ∉ state.aborted ∧
    (state.tasks 0 = some ⟨"copy", .running⟩ ∨ state.tasks 0 = some ⟨"copy", .ended⟩)) := by
  have run : Run _ := Relation.ReflTransGen.refl
    |>.tail (.spawns "copy" rfl) |>.tail (.inserts rfl) |>.tail (@Step.ends _ 0 "copy" rfl)
  exact ⟨_, run, listed_iff run rfl 0 "copy"⟩

theorem notified_of_gone (run : Run state) (noneAborted : state.aborted = [])
    (found : state.waiters id = some waiter) (sleeps : waiter.stage = .sleeping)
    (gone : ∀ other task, state.tasks other = some task → waiter.Awaits task.name →
      task.phase = .gone) : waiter.notified = true := by
  obtain ⟨tabled, wakeful⟩ := tabled_of_run run
  by_contra quiet
  rcases wakeful id waiter found sleeps (Bool.eq_false_iff.mpr quiet) with
    aborted | ⟨entry, listed, awaits⟩ | ⟨other, name, isRemoved, awaits⟩
  · exact aborted noneAborted
  · obtain ⟨task, isTask, isName, phase⟩ := (tabled.unfinished entry (.inl listed)).found
    rw [gone entry.1 task isTask (isName ▸ awaits)] at phase
    simp at phase
  · exact absurd (gone other _ isRemoved awaits) (by simp)

theorem notified_of_gone_copy : ∃ state waiter, Run state ∧ state.waiters 7 = some waiter ∧
    waiter.stage = .sleeping ∧ waiter.notified = true := by
  have run : Run _ := Relation.ReflTransGen.refl
    |>.tail (.spawns "copy" rfl) |>.tail (.inserts rfl)
    |>.tail (@Step.waits _ 7 rfl (some "copy")) |>.tail (@Step.enables _ 7 _ rfl rfl)
    |>.tail (@Step.sleeps _ 7 _ (0, "copy") rfl rfl rfl (List.mem_cons_self ..) (.inr rfl))
    |>.tail (@Step.ends _ 0 "copy" rfl) |>.tail (@Step.removes _ 0 "copy" rfl rfl)
    |>.tail (@Step.notifies _ 0 "copy" rfl)
  refine ⟨_, _, run, rfl, rfl, @notified_of_gone _ 7 _ run rfl rfl rfl fun other task found _ => ?_⟩
  cases other with
  | zero =>
    cases found
    rfl
  | succ other => cases found

end TaskTable

end Porthmos
