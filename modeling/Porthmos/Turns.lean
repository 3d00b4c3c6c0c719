import Mathlib.Logic.Function.Conjugate
import Mathlib.Tactic.Conv
import Mathlib.Order.Basic

/-!
# Work that takes turns

Jobs are issued one by one, and each waits for its turn at a state that all of them change.  One
has the turn at a time; when it is given back, any of those that wait may get it.

If every job that gets its turn before an earlier one commutes with it, the state in the end is
what the jobs make in the order in which they were issued.
-/

inductive TurnPhase
  | waiting
  | running
  | finished
  deriving DecidableEq, Repr

/-- All jobs in the order of their issue, and what the finished ones have made. -/
structure Turns (job state : Type*) where
  jobs : List (job × TurnPhase)
  content : state

namespace Turns

variable {job state : Type*} (effect : job → state → state) (turns : Turns job state)

def issue (new : job) : Turns job state :=
  { turns with jobs := turns.jobs ++ [(new, TurnPhase.waiting)] }

/-- Nobody has the turn. -/
def Free : Prop := ∀ entry ∈ turns.jobs, entry.2 ≠ .running

instance : Decidable turns.Free := by
  unfold Free
  infer_instance

/-- A waiting job gets the turn, if nobody has it. -/
def grant (place : Nat) : Turns job state :=
  match turns.jobs[place]? with
  | some (granted, TurnPhase.waiting) =>
    if turns.Free then
      { turns with jobs := turns.jobs.set place (granted, TurnPhase.running) }
    else turns
  | _ => turns

/-- The job that has the turn is done and gives it back. -/
def finish (place : Nat) : Turns job state :=
  match turns.jobs[place]? with
  | some (granted, TurnPhase.running) =>
    { jobs := turns.jobs.set place (granted, TurnPhase.finished)
      content := effect granted turns.content }
  | _ => turns

/-- The effects of the jobs, one after the other. -/
def applied (jobs : List job) (content : state) : state :=
  jobs.foldl (fun content next => effect next content) content

def doneJobs (jobs : List (job × TurnPhase)) : List job :=
  (jobs.filter fun entry => decide (entry.2 = .finished)).map Prod.fst

/-- Every job that waits and was issued before this one commutes with it. -/
def InTurn (place : Nat) : Prop :=
  ∀ earlier < place, ∀ (passed granted : job) (phase : TurnPhase),
    turns.jobs[earlier]? = some (passed, TurnPhase.waiting) →
    turns.jobs[place]? = some (granted, phase) → Function.Commute (effect passed) (effect granted)

theorem applied_append (first second : List job) (content : state) :
    applied effect (first ++ second) content =
      applied effect second (applied effect first content) :=
  List.foldl_append

theorem applied_cons (first : job) (rest : List job) (content : state) :
    applied effect (first :: rest) content = applied effect rest (effect first content) :=
  rfl

variable {effect}

theorem applied_of_commute {moved : job} {later : List job}
    (commute : ∀ other ∈ later, Function.Commute (effect moved) (effect other))
    (content : state) :
    effect moved (applied effect later content) = applied effect later (effect moved content) := by
  induction later generalizing content with
  | nil => rfl
  | cons first rest ih =>
    have here : effect moved (effect first content) = effect first (effect moved content) :=
      commute first List.mem_cons_self content
    rw [applied_cons, applied_cons, ih fun other member =>
      commute other (List.mem_cons_of_mem first member), here]

@[simp]
theorem doneJobs_append (first second : List (job × TurnPhase)) :
    doneJobs (first ++ second) = doneJobs first ++ doneJobs second := by
  simp [doneJobs]

@[simp]
theorem doneJobs_cons (entry : job × TurnPhase) (rest : List (job × TurnPhase)) :
    doneJobs (entry :: rest) =
      if entry.2 = .finished then entry.1 :: doneJobs rest else doneJobs rest := by
  unfold doneJobs
  by_cases done : entry.2 = .finished <;> simp [done]

theorem mem_doneJobs_iff {entries : List (job × TurnPhase)} {done : job} :
    done ∈ doneJobs entries ↔ (done, TurnPhase.finished) ∈ entries := by
  simp [doneJobs]

theorem parts_of_getElem? {entries : List (job × TurnPhase)} {place : Nat}
    {entry : job × TurnPhase} (found : entries[place]? = some entry) (new : job × TurnPhase) :
    entries = entries.take place ++ entry :: entries.drop (place + 1) ∧
      entries.set place new = entries.take place ++ new :: entries.drop (place + 1) := by
  obtain ⟨inside, isEntry⟩ := List.getElem?_eq_some_iff.mp found
  constructor
  · rw [← isEntry, List.getElem_cons_drop, List.take_append_drop]
  · rw [List.set_eq_take_append_cons_drop, if_pos inside]

/-- What holds of the jobs whenever each got its turn in turn. -/
structure InOrder (effect : job → state → state) (start : state) (turns : Turns job state) :
    Prop where
  content : turns.content = applied effect (doneJobs turns.jobs) start
  /-- Only one job has the turn. -/
  single : ∀ (first second : Nat) (one other : job),
    turns.jobs[first]? = some (one, TurnPhase.running) →
    turns.jobs[second]? = some (other, TurnPhase.running) → first = second
  /-- Who has begun commutes with the earlier ones that are not done. -/
  overtaken : ∀ (earlier later : Nat) (passed ahead : job) (phase begun : TurnPhase),
    earlier < later →
    turns.jobs[earlier]? = some (passed, phase) → phase ≠ .finished →
    turns.jobs[later]? = some (ahead, begun) → begun ≠ .waiting →
    Function.Commute (effect passed) (effect ahead)

theorem inOrder_empty (start : state) : InOrder effect start ⟨[], start⟩ where
  content := rfl
  single := by
    intro first second one other found
    cases found
  overtaken := by
    intro earlier later passed ahead phase begun before found
    cases found

namespace InOrder

variable {turns} {start : state}

theorem issue (order : InOrder effect start turns) (new : job) :
    InOrder effect start (turns.issue new) := by
  -- The new entry is the last one, and it waits.
  have found (place : Nat) (entry : job × TurnPhase)
      (isThere : (turns.issue new).jobs[place]? = some entry) :
      turns.jobs[place]? = some entry ∨
        place = turns.jobs.length ∧ entry = (new, TurnPhase.waiting) := by
    rcases Nat.lt_trichotomy place turns.jobs.length with inside | last | outside
    · left
      rw [← isThere]
      exact (List.getElem?_append_left inside).symm
    · right
      constructor
      · exact last
      · rw [last] at isThere
        have isLast :
            (turns.issue new).jobs[turns.jobs.length]? = some (new, TurnPhase.waiting) := by
          simp [Turns.issue]
        exact Option.some.inj (isThere.symm.trans isLast)
    · have isNone : (turns.issue new).jobs[place]? = none := by
        apply List.getElem?_eq_none
        simp only [Turns.issue, List.length_append, List.length_singleton]
        omega
      rw [isNone] at isThere
      cases isThere
  constructor
  · rw [Turns.issue, doneJobs_append]
    simpa [doneJobs] using order.content
  · intro first second one other firstRuns secondRuns
    rcases found first _ firstRuns with firstRuns | ⟨-, new⟩
    · rcases found second _ secondRuns with secondRuns | ⟨-, new⟩
      · exact order.single first second one other firstRuns secondRuns
      · cases new
    · cases new
  · intro earlier later passed ahead phase begun before isEarlier unfinished isLater started
    rcases found later _ isLater with isLater | ⟨-, new⟩
    · rcases found earlier _ isEarlier with isEarlier | ⟨last, -⟩
      · exact order.overtaken earlier later passed ahead phase begun before isEarlier unfinished
          isLater started
      · have inside := (List.getElem?_eq_some_iff.mp isLater).1
        omega
    · cases new
      exact absurd rfl started

theorem grant (order : InOrder effect start turns) {place : Nat}
    (inTurn : turns.InTurn effect place) : InOrder effect start (turns.grant place) := by
  unfold Turns.grant
  split
  case h_2 => exact order
  next granted waits =>
    split_ifs with free
    case neg => exact order
    have inside := (List.getElem?_eq_some_iff.mp waits).1
    have idle (other : Nat) (one : job) : turns.jobs[other]? ≠ some (one, TurnPhase.running) := by
      intro runs
      exact free _ (List.mem_of_getElem? runs) rfl
    have atPlace (one : job) (phase : TurnPhase) (isThere :
          (turns.jobs.set place (granted, TurnPhase.running))[place]? = some (one, phase)) :
        one = granted ∧ phase = .running := by
      rw [List.getElem?_set_self inside] at isThere
      cases isThere
      exact ⟨rfl, rfl⟩
    constructor
    · obtain ⟨parts, split⟩ := parts_of_getElem? waits (granted, TurnPhase.running)
      have same :
          doneJobs (turns.jobs.set place (granted, TurnPhase.running)) = doneJobs turns.jobs := by
        rw [split]
        conv_rhs => rw [parts]
        simp
      rw [same]
      exact order.content
    · intro first second one other firstRuns secondRuns
      by_cases firstHere : first = place
      · by_cases secondHere : second = place
        · exact firstHere.trans secondHere.symm
        · rw [List.getElem?_set_ne (Ne.symm secondHere)] at secondRuns
          exact absurd secondRuns (idle second other)
      · rw [List.getElem?_set_ne (Ne.symm firstHere)] at firstRuns
        exact absurd firstRuns (idle first one)
    · intro earlier later passed ahead phase begun before isEarlier unfinished isLater started
      by_cases earlierHere : earlier = place
      · -- Whoever is later and has begun was ahead of the granted job before.
        subst earlierHere
        obtain ⟨rfl, rfl⟩ := atPlace passed phase isEarlier
        rw [List.getElem?_set_ne (by omega)] at isLater
        exact order.overtaken earlier later passed ahead .waiting begun before waits (by decide)
          isLater started
      · rw [List.getElem?_set_ne (Ne.symm earlierHere)] at isEarlier
        by_cases laterHere : later = place
        · subst laterHere
          obtain ⟨rfl, rfl⟩ := atPlace ahead begun isLater
          have isWaiting : phase = .waiting := by
            cases phase with
            | waiting => rfl
            | running => exact absurd isEarlier (idle earlier passed)
            | finished => exact absurd rfl unfinished
          subst isWaiting
          exact inTurn earlier before passed ahead .waiting isEarlier waits
        · rw [List.getElem?_set_ne (Ne.symm laterHere)] at isLater
          exact order.overtaken earlier later passed ahead phase begun before isEarlier unfinished
            isLater started

theorem finish (order : InOrder effect start turns) (place : Nat) :
    InOrder effect start (turns.finish effect place) := by
  unfold Turns.finish
  split
  case h_2 => exact order
  next granted runs =>
    have inside := (List.getElem?_eq_some_iff.mp runs).1
    obtain ⟨parts, split⟩ := parts_of_getElem? runs (granted, TurnPhase.finished)
    have idle (other : Nat) (one : job) (ne : other ≠ place) :
        turns.jobs[other]? ≠ some (one, TurnPhase.running) := by
      intro otherRuns
      exact ne (order.single other place one granted otherRuns runs)
    constructor
    · dsimp only
      rw [split, order.content]
      conv_lhs => rw [parts]
      simp only [doneJobs_append, doneJobs_cons, reduceCtorEq, if_false, if_true,
        applied_append, applied_cons]
      apply applied_of_commute
      intro other isLater
      obtain ⟨offset, isThere⟩ := List.mem_iff_getElem?.mp (mem_doneJobs_iff.mp isLater)
      rw [List.getElem?_drop] at isThere
      exact order.overtaken place (place + 1 + offset) granted other .running .finished (by omega)
        runs (by decide) isThere (by decide)
    · intro first second one other firstRuns secondRuns
      dsimp only at firstRuns secondRuns
      by_cases firstHere : first = place
      · rw [firstHere, List.getElem?_set_self inside] at firstRuns
        cases firstRuns
      · rw [List.getElem?_set_ne (Ne.symm firstHere)] at firstRuns
        exact absurd firstRuns (idle first one firstHere)
    · intro earlier later passed ahead phase begun before isEarlier unfinished isLater started
      dsimp only at isEarlier isLater
      by_cases earlierHere : earlier = place
      · rw [earlierHere, List.getElem?_set_self inside] at isEarlier
        cases isEarlier
        exact absurd rfl unfinished
      · rw [List.getElem?_set_ne (Ne.symm earlierHere)] at isEarlier
        by_cases laterHere : later = place
        · rw [laterHere, List.getElem?_set_self inside] at isLater
          cases isLater
          exact order.overtaken earlier place passed granted phase .running (laterHere ▸ before)
            isEarlier unfinished runs (by decide)
        · rw [List.getElem?_set_ne (Ne.symm laterHere)] at isLater
          exact order.overtaken earlier later passed ahead phase begun before isEarlier unfinished
            isLater started

theorem all_finished (order : InOrder effect start turns)
    (done : ∀ entry ∈ turns.jobs, entry.2 = .finished) :
    turns.content = applied effect (turns.jobs.map Prod.fst) start := by
  rw [order.content]
  unfold doneJobs
  rw [List.filter_eq_self.mpr]
  intro entry member
  exact decide_eq_true (done entry member)

end InOrder

end Turns
