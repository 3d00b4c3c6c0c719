import Mathlib.Tactic.Common

/-!
# Programs that make requests

A program ends with a result, or it makes a request and goes on with the answer, which may be an
error.  What a program asks for and how it ends is stated without saying who answers: only what an
answer that is not an error fits.
-/

/-- `request β` are the requests that are answered with a `β`. -/
inductive Program (request : Type → Type) (error α : Type) : Type 1
  | done (result : Except error α)
  | ask {β : Type} (asked : request β) (next : Except error β → Program request error α)

namespace Program

variable {request : Type → Type} {error α β : Type}

/-- An error ends the program. -/
def bind (program : Program request error α) (next : α → Program request error β) :
    Program request error β :=
  match program with
  | .done (.ok value) => next value
  | .done (.error err) => .done (.error err)
  | .ask asked rest => .ask asked fun answer => (rest answer).bind next

instance : Monad (Program request error) where
  pure value := .done (.ok value)
  bind := bind

def send (asked : request α) : Program request error α := .ask asked .done

def fail (err : error) : Program request error α := .done (.error err)

/-- Take the outcome of a program as a value. -/
def attempt : Program request error α → Program request error (Except error α)
  | .done result => .done (.ok result)
  | .ask asked next => .ask asked fun answer => (next answer).attempt

/-- Run a program for each value in turn. -/
def forEach (work : α → Program request error Unit) : List α → Program request error Unit
  | [] => .done (.ok ())
  | value :: values => (work value).bind fun _ => forEach work values

/-- The outcome where every request has one fixed answer. -/
def eval (answer : {β : Type} → request β → Except error β) :
    Program request error α → Except error α
  | .done result => result
  | .ask asked next => (next (answer asked)).eval answer

/-- What is known of an answer. -/
abbrev Fits (request : Type → Type) := {β : Type} → request β → β → Prop

/-- Whatever fitting answers it gets, the program makes only allowed requests and ends as
`ends` says. -/
def Meets (allowed : {β : Type} → request β → Prop) (fits : Fits request)
    (ends : Except error α → Prop) : Program request error α → Prop
  | .done result => ends result
  | .ask asked next =>
    allowed asked ∧ ∀ answer, (∀ value, answer = .ok value → fits asked value) →
      (next answer).Meets allowed fits ends

/-- An end that says nothing about errors. -/
def onOk (ends : α → Prop) : Except error α → Prop
  | .ok value => ends value
  | .error _ => True

variable {allowed : {β : Type} → request β → Prop} {fits : Fits request}

theorem Meets.mono {first second : Except error α → Prop} {program : Program request error α}
    (meets : program.Meets allowed fits first) (weaker : ∀ result, first result → second result) :
    program.Meets allowed fits second := by
  induction program with
  | done result => exact weaker result meets
  | ask asked next ih => exact ⟨meets.1, fun answer fit => ih answer (meets.2 answer fit)⟩

theorem Meets.bind {ends : Except error β → Prop} {program : Program request error α}
    {next : α → Program request error β}
    (meets : program.Meets allowed fits fun
      | .ok value => (next value).Meets allowed fits ends
      | .error err => ends (.error err)) :
    (program.bind next).Meets allowed fits ends := by
  induction program with
  | done result =>
    cases result with
    | ok value => exact meets
    | error err => exact meets
  | ask asked rest ih => exact ⟨meets.1, fun answer fit => ih answer (meets.2 answer fit)⟩

theorem Meets.andThen {known : α → Prop} {ends : β → Prop} {program : Program request error α}
    {next : α → Program request error β} (meets : program.Meets allowed fits (onOk known))
    (rest : ∀ value, known value → (next value).Meets allowed fits (onOk ends)) :
    (program.bind next).Meets allowed fits (onOk ends) := by
  apply Meets.bind
  apply meets.mono
  intro result isKnown
  cases result with
  | ok value => exact rest value isKnown
  | error err => trivial

theorem meets_send {asked : request α} (isAllowed : allowed asked) :
    (send asked : Program request error α).Meets allowed fits (onOk (fits asked)) := by
  constructor
  · exact isAllowed
  · intro answer fit
    cases answer with
    | ok value => exact fit value rfl
    | error err => trivial

theorem Meets.attempt {ends : Except error α → Prop} {program : Program request error α}
    (meets : program.Meets allowed fits ends) :
    program.attempt.Meets allowed fits (onOk ends) := by
  induction program with
  | done result => exact meets
  | ask asked next ih => exact ⟨meets.1, fun answer fit => ih answer (meets.2 answer fit)⟩

theorem meets_forEach {work : α → Program request error Unit} {values : List α}
    (each : ∀ value ∈ values, (work value).Meets allowed fits (onOk fun _ => True)) :
    (forEach work values).Meets allowed fits (onOk fun _ => True) := by
  induction values with
  | nil => trivial
  | cons value values ih =>
    apply (each value List.mem_cons_self).andThen
    intro _ _
    exact ih fun other member => each other (List.mem_cons_of_mem _ member)

theorem Meets.eval {answer : {β : Type} → request β → Except error β}
    (fit : ∀ {β : Type} (asked : request β) value, answer asked = .ok value → fits asked value)
    {ends : Except error α → Prop} {program : Program request error α}
    (meets : program.Meets allowed fits ends) : ends (program.eval answer) := by
  induction program with
  | done result => exact meets
  | ask asked next ih => exact ih _ (meets.2 _ (fit asked))

end Program
