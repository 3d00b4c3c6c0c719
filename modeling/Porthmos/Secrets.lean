import Porthmos.Turns

/-!
# Secrets in the system keyring

Every call of the keyring is a blocking job that first takes a lock, the turn.  The caller waits
for the job, but for no longer than the limit: then the call has timed out, and its job still
waits for its turn or is still at work.
-/

namespace Porthmos

inductive SecretError
  | timedOut
  | backend (message : String)
  deriving DecidableEq, Repr

/-- What the keyring has under each account. -/
abbrev Accounts := String → Option String

/-- The message with which the backend call of this number within a job fails. -/
abbrev Faults := Nat → Option String

/-- The closures that `call` is given. -/
inductive KeyringCall
  | get (account : String)
  | set (account secret : String)
  | delete (account : String)
  | move (source target : String)
  deriving DecidableEq, Repr

structure KeyringWork where
  call : KeyringCall
  faults : Faults

namespace KeyringWork

/-- What a job does while it has the turn: its answer, and what the keyring has afterwards. -/
def run (work : KeyringWork) (content : Accounts) :
    Except SecretError (Option String) × Accounts :=
  match work.faults 0 with
  | some message => (.error (.backend message), content)
  | none =>
    match work.call with
    | .get account => (.ok (content account), content)
    | .set account secret => (.ok none, Function.update content account (some secret))
    | .delete account => (.ok none, Function.update content account none)
    | .move source target =>
      match content source with
      | none => (.ok none, content)
      | some secret =>
        match work.faults 1 with
        | some message => (.error (.backend message), content)
        | none =>
          let stored := Function.update content target (some secret)
          match work.faults 2 with
          | some message => (.error (.backend message), stored)
          | none => (.ok none, Function.update stored source none)

def effect (work : KeyringWork) (content : Accounts) : Accounts := (work.run content).2

/-- The accounts that the job may change, or on which its change depends. -/
def accounts (work : KeyringWork) : List String :=
  match work.call with
  | .get _ => []
  | .set account _ => [account]
  | .delete account => [account]
  | .move source target => [source, target]

end KeyringWork

/-- What the caller does with the answer. -/
inductive Purpose
  | lookup (account : String)
  | probe
  | change
  deriving DecidableEq, Repr

structure Secrets where
  cache : String → Option String
  backend : Bool
  available : Bool
  keyring : Turns KeyringWork Accounts
  /-- The answers of the jobs that are done, by the place of the job. -/
  answers : Nat → Option (Except SecretError (Option String))
  /-- The calls that have not returned, with the place of their job. -/
  callers : List (Nat × Purpose)

inductive SecretsStep
  | lookup (account : String) (saved : Bool) (faults : Faults)
  | writeKeyring (account secret : String) (faults : Faults)
  | eraseKeyring (account : String) (faults : Faults)
  | moveKeyring (source target : String) (faults : Faults)
  | probe (faults : Faults)
  /-- The job at a place gets the turn. -/
  | grant (place : Nat)
  /-- The job that has the turn is done. -/
  | finish (place : Nat)
  /-- The call of the job at a place reaches the limit. -/
  | timeOut (place : Nat)
  /-- The call of the job at a place returns the answer of the job. -/
  | answer (place : Nat)

namespace Secrets

def probeAccount : String := "porthmos:probe"

variable (secrets : Secrets)

def create (backend : Bool) (content : Accounts) : Secrets where
  cache _ := none
  backend := backend
  available := backend
  keyring := ⟨[], content⟩
  answers _ := none
  callers := []

/-- `call`: a new job waits for its turn, and the caller waits for the job. -/
def call (call : KeyringCall) (faults : Faults) (purpose : Purpose) : Secrets :=
  if secrets.backend then
    { secrets with
      keyring := secrets.keyring.issue ⟨call, faults⟩
      callers := secrets.callers ++ [(secrets.keyring.jobs.length, purpose)] }
  else secrets

def lookup (account : String) (saved : Bool) (faults : Faults) : Secrets :=
  if (secrets.cache account).isSome then secrets
  else if !saved || !secrets.available then secrets
  else secrets.call (.get account) faults (.lookup account)

def writeKeyring (account secret : String) (faults : Faults) : Secrets :=
  if !secrets.available then secrets else secrets.call (.set account secret) faults .change

def eraseKeyring (account : String) (faults : Faults) : Secrets :=
  if !secrets.available then secrets else secrets.call (.delete account) faults .change

def moveKeyring (source target : String) (faults : Faults) : Secrets :=
  if !secrets.available then secrets else secrets.call (.move source target) faults .change

def probe (faults : Faults) : Secrets :=
  if secrets.backend then secrets.call (.get probeAccount) faults .probe
  else { secrets with available := false }

def finish (place : Nat) : Secrets :=
  match secrets.keyring.jobs[place]? with
  | some (work, .running) =>
    { secrets with
      keyring := secrets.keyring.finish KeyringWork.effect place
      answers :=
        Function.update secrets.answers place (some (work.run secrets.keyring.content).1) }
  | _ => secrets

/-- A call returns.  A lookup caches what it found, and a probe decides whether the keyring is
available. -/
def returned (place : Nat) (purpose : Purpose)
    (result : Except SecretError (Option String)) : Secrets :=
  let secrets := { secrets with callers := secrets.callers.erase (place, purpose) }
  match purpose, result with
  | .lookup account, .ok (some secret) =>
    { secrets with cache := Function.update secrets.cache account (some secret) }
  | .probe, .ok _ => { secrets with available := true }
  | .probe, .error _ => { secrets with available := false }
  | _, _ => secrets

def timeOut (place : Nat) : Secrets :=
  match secrets.callers.find? fun caller => caller.1 = place with
  | some (_, purpose) => secrets.returned place purpose (.error .timedOut)
  | none => secrets

def answer (place : Nat) : Secrets :=
  match secrets.callers.find? fun caller => caller.1 = place, secrets.answers place with
  | some (_, purpose), some result => secrets.returned place purpose result
  | _, _ => secrets

def next : SecretsStep → Secrets
  | .lookup account saved faults => secrets.lookup account saved faults
  | .writeKeyring account secret faults => secrets.writeKeyring account secret faults
  | .eraseKeyring account faults => secrets.eraseKeyring account faults
  | .moveKeyring source target faults => secrets.moveKeyring source target faults
  | .probe faults => secrets.probe faults
  | .grant place => { secrets with keyring := secrets.keyring.grant place }
  | .finish place => secrets.finish place
  | .timeOut place => secrets.timeOut place
  | .answer place => secrets.answer place

def after (secrets : Secrets) : List SecretsStep → Secrets
  | [] => secrets
  | step :: steps => after (secrets.next step) steps

/-- A job gets the turn only when it commutes with the jobs that were issued before it and still
wait. -/
def Admits : SecretsStep → Prop
  | .grant place => secrets.keyring.InTurn KeyringWork.effect place
  | _ => True

def Admitted (secrets : Secrets) : List SecretsStep → Prop
  | [] => True
  | step :: steps => secrets.Admits step ∧ Admitted (secrets.next step) steps

end Secrets

namespace KeyringWork

/-- Outside its accounts a job changes nothing. -/
theorem effect_apply_of_notMem (work : KeyringWork) (content : Accounts) {account : String}
    (outside : account ∉ work.accounts) : work.effect content account = content account := by
  unfold effect run
  unfold accounts at outside
  cases work.faults 0 with
  | some message => rfl
  | none =>
    cases call : work.call with
    | get looked => rfl
    | set changed secret =>
      rw [call] at outside
      exact Function.update_of_ne (List.ne_of_not_mem_cons outside) _ _
    | delete changed =>
      rw [call] at outside
      exact Function.update_of_ne (List.ne_of_not_mem_cons outside) _ _
    | move source target =>
      rw [call] at outside
      have notSource : account ≠ source := List.ne_of_not_mem_cons outside
      have notTarget : account ≠ target :=
        List.ne_of_not_mem_cons (List.not_mem_of_not_mem_cons outside)
      dsimp only
      cases content source with
      | none => rfl
      | some secret =>
        cases work.faults 1 with
        | some message => rfl
        | none =>
          cases work.faults 2 with
          | some message => exact Function.update_of_ne notTarget _ _
          | none =>
            exact (Function.update_of_ne notSource _ _).trans (Function.update_of_ne notTarget _ _)

/-- What a job makes of its accounts depends on these alone. -/
theorem effect_congr (work : KeyringWork) {first second : Accounts}
    (same : ∀ account ∈ work.accounts, first account = second account) {account : String}
    (inside : account ∈ work.accounts) :
    work.effect first account = work.effect second account := by
  unfold effect run
  unfold accounts at same inside
  cases work.faults 0 with
  | some message => exact same account inside
  | none =>
    cases call : work.call with
    | get looked =>
      rw [call] at inside
      cases inside
    | set changed secret =>
      rw [call] at inside
      simp [List.mem_singleton.mp inside]
    | delete changed =>
      rw [call] at inside
      simp [List.mem_singleton.mp inside]
    | move source target =>
      rw [call] at inside same
      dsimp only
      rw [← same source List.mem_cons_self]
      have here := same account inside
      cases first source with
      | none => exact here
      | some secret =>
        cases work.faults 1 with
        | some message => exact here
        | none => cases work.faults 2 <;> simp only [Function.update_apply, here]

theorem commute_of_apart {first second : KeyringWork}
    (apart : ∀ account ∈ first.accounts, account ∉ second.accounts) :
    Function.Commute first.effect second.effect := by
  intro content
  funext account
  by_cases inFirst : account ∈ first.accounts
  · rw [second.effect_apply_of_notMem _ (apart account inFirst)]
    apply first.effect_congr _ inFirst
    intro other inside
    exact second.effect_apply_of_notMem content (apart other inside)
  · rw [first.effect_apply_of_notMem _ inFirst]
    by_cases inSecond : account ∈ second.accounts
    · apply second.effect_congr _ inSecond
      intro other inside
      exact (first.effect_apply_of_notMem content fun inFirst => apart other inFirst inside).symm
    · rw [second.effect_apply_of_notMem _ inSecond, second.effect_apply_of_notMem _ inSecond,
        first.effect_apply_of_notMem _ inFirst]

end KeyringWork

namespace Secrets

variable {secrets : Secrets} {start : Accounts}

/-- The jobs had their turns in turn. -/
abbrev InOrder (start : Accounts) (secrets : Secrets) : Prop :=
  Turns.InOrder KeyringWork.effect start secrets.keyring

theorem inOrder_call (order : secrets.InOrder start) (call : KeyringCall) (faults : Faults)
    (purpose : Purpose) : (secrets.call call faults purpose).InOrder start := by
  unfold Secrets.call
  split_ifs
  · exact order.issue ⟨call, faults⟩
  · exact order

theorem inOrder_of_change (order : secrets.InOrder start) (call : KeyringCall) (faults : Faults) :
    (if !secrets.available then secrets else secrets.call call faults .change).InOrder start := by
  split_ifs
  · exact order
  · exact inOrder_call order call faults .change

@[simp]
theorem keyring_returned (place : Nat) (purpose : Purpose)
    (result : Except SecretError (Option String)) :
    (secrets.returned place purpose result).keyring = secrets.keyring := by
  unfold returned
  dsimp only
  split <;> rfl

theorem inOrder_next (order : secrets.InOrder start) (step : SecretsStep)
    (admitted : secrets.Admits step) : (secrets.next step).InOrder start := by
  unfold next
  cases step with
  | lookup account saved faults =>
    dsimp only
    unfold lookup
    split_ifs
    · exact order
    · exact order
    · exact inOrder_call order _ faults _
  | writeKeyring account secret faults => exact inOrder_of_change order _ faults
  | eraseKeyring account faults => exact inOrder_of_change order _ faults
  | moveKeyring source target faults => exact inOrder_of_change order _ faults
  | probe faults =>
    dsimp only
    unfold probe
    split_ifs
    · exact inOrder_call order _ faults _
    · exact order
  | grant place => exact order.grant admitted
  | finish place =>
    dsimp only
    unfold finish
    split
    · exact order.finish place
    · exact order
  | timeOut place =>
    dsimp only
    unfold timeOut
    split
    · unfold InOrder
      rw [keyring_returned]
      exact order
    · exact order
  | answer place =>
    dsimp only
    unfold answer
    split
    · unfold InOrder
      rw [keyring_returned]
      exact order
    · exact order

theorem inOrder_after (order : secrets.InOrder start) (steps : List SecretsStep)
    (admitted : secrets.Admitted steps) : (secrets.after steps).InOrder start := by
  induction steps generalizing secrets with
  | nil => exact order
  | cons step steps ih => exact ih (inOrder_next order step admitted.1) admitted.2

/-- Once all jobs are done, the keyring has what the jobs make of it in the order in which they
were issued. -/
theorem content_of_run (backend : Bool) (content : Accounts) (steps : List SecretsStep)
    (admitted : (create backend content).Admitted steps)
    (done : ∀ entry ∈ ((create backend content).after steps).keyring.jobs,
      entry.2 = .finished) :
    ((create backend content).after steps).keyring.content =
      Turns.applied KeyringWork.effect
        (((create backend content).after steps).keyring.jobs.map Prod.fst) content :=
  (inOrder_after (Turns.inOrder_empty content) steps admitted).all_finished done

/-- A backend that works. -/
def noFaults : Faults := fun _ => none

theorem content_of_run_overtaken :
    ((create true fun _ => none).after
        [.writeKeyring "profile:nas" "first" noFaults, .timeOut 0,
          .writeKeyring "profile:box" "second" noFaults, .grant 1, .finish 1, .answer 1,
          .grant 0, .finish 0]).keyring.content =
      Turns.applied KeyringWork.effect
        [⟨.set "profile:nas" "first", noFaults⟩, ⟨.set "profile:box" "second", noFaults⟩]
        fun _ => none := by
  apply content_of_run
  · refine ⟨trivial, trivial, trivial, ?_, trivial, trivial, ?_, trivial, trivial⟩
    · intro earlier before passed granted phase waits isGranted
      obtain rfl : earlier = 0 := by omega
      cases waits
      cases isGranted
      apply KeyringWork.commute_of_apart
      decide
    · intro earlier before
      omega
  · decide

/-- Three calls, each issued when the one before has returned: an erasure waits until after the
last write has had its turn. -/
theorem content_of_run_fails :
    let steps : List SecretsStep :=
      [.writeKeyring "profile:nas" "first" noFaults, .grant 0, .timeOut 0,
        .eraseKeyring "profile:nas" noFaults, .timeOut 1,
        .writeKeyring "profile:nas" "second" noFaults, .timeOut 2,
        .finish 0, .grant 2, .finish 2, .grant 1, .finish 1]
    let secrets := (create true fun _ => none).after steps
    (∀ entry ∈ secrets.keyring.jobs, entry.2 = .finished) ∧
      secrets.keyring.content ≠
        Turns.applied KeyringWork.effect (secrets.keyring.jobs.map Prod.fst) fun _ => none := by
  intro steps secrets
  constructor
  · decide
  · intro same
    have erased : secrets.keyring.content "profile:nas" = none := by decide
    rw [same] at erased
    revert erased
    decide

end Secrets

end Porthmos
