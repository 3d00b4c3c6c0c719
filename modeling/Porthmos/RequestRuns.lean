import Porthmos.Requests

/-!
# Programs run against a state

Who answers the requests may have a state, and may answer in more than one way.  A program is run
by answering its requests in turn, and an `Ensures` says where all its runs lead, with one rule for
each way of putting programs together.
-/

namespace Program

/-- How requests are answered: the state before, the request, its answer, the state after. -/
abbrev Service (σ : Type) (request : Type → Type) (error : Type) :=
  (β : Type) → σ → request β → Except error β → σ → Prop

variable {σ : Type} {request : Type → Type} {error α β : Type}

/-- A run from one state to another, with how the program ends. -/
def Runs (service : Service σ request error) : Program request error α → σ → Except error α →
    σ → Prop
  | .done result, before, ended, after => ended = result ∧ after = before
  | .ask asked next, before, ended, after =>
    ∃ answer between, service _ before asked answer between ∧
      (next answer).Runs service between ended after

/-- Every run from a state as `pre` says ends as `post` says. -/
structure Ensures (service : Service σ request error) (pre : σ → Prop)
    (program : Program request error α) (post : Except error α → σ → Prop) : Prop where
  of_run : ∀ (before : σ) (result : Except error α) (after : σ), pre before →
    program.Runs service before result after → post result after

variable {service : Service σ request error} {pre : σ → Prop} {post : Except error α → σ → Prop}

/-- What holds of the value of a run that ends with one. -/
@[reducible]
def WhenOk (holds : α → σ → Prop) : Except error α → σ → Prop
  | .ok value, state => holds value state
  | .error _, _ => True

theorem ensures_done {result : Except error α} (ends : ∀ state, pre state → post result state) :
    Ensures service pre (.done result) post := by
  constructor
  rintro before _ _ isPre ⟨rfl, rfl⟩
  exact ends _ isPre

theorem Ensures.weaken {program : Program request error α} {weaker : Except error α → σ → Prop}
    (ensures : Ensures service pre program post)
    (weakens : ∀ result state, post result state → weaker result state) :
    Ensures service pre program weaker := by
  constructor
  intro before result after isPre run
  exact weakens result after (ensures.of_run before result after isPre run)

theorem Ensures.strengthen {program : Program request error α} {stronger : σ → Prop}
    (ensures : Ensures service pre program post) (strengthens : ∀ state, stronger state → pre state) :
    Ensures service stronger program post := by
  constructor
  intro before result after isPre run
  exact ensures.of_run before result after (strengthens before isPre) run

theorem ensures_of_pre (known : Prop) {program : Program request error α}
    (knows : ∀ state, pre state → known) (ensures : known → Ensures service pre program post) :
    Ensures service pre program post := by
  constructor
  intro before result after isPre run
  exact (ensures (knows before isPre)).of_run before result after isPre run

theorem ensures_ask {asked : request β} {next : Except error β → Program request error α}
    (answers : Except error β → σ → Prop)
    (served : ∀ before answer after, pre before → service _ before asked answer after →
      answers answer after)
    (rest : ∀ answer, Ensures service (answers answer) (next answer) post) :
    Ensures service pre (.ask asked next) post := by
  constructor
  rintro before result after isPre ⟨answer, between, serves, run⟩
  exact (rest answer).of_run between result after (served before answer between isPre serves) run

theorem ensures_send {asked : request α}
    (served : ∀ before answer after, pre before → service _ before asked answer after →
      post answer after) : Ensures service pre (send asked) post := by
  apply ensures_ask post served
  intro answer
  exact ensures_done fun state isPost => isPost

theorem runs_send {asked : request α} {before after : σ} {result : Except error α} :
    (send asked).Runs service before result after ↔ service _ before asked result after := by
  constructor
  · rintro ⟨answer, between, serves, rfl, rfl⟩
    exact serves
  · intro serves
    exact ⟨result, after, serves, rfl, rfl⟩

theorem runs_bind {program : Program request error α} {next : α → Program request error β}
    {before after : σ} {result : Except error β} :
    (program.bind next).Runs service before result after ↔
      (∃ value between, program.Runs service before (.ok value) between ∧
        (next value).Runs service between result after) ∨
      ∃ err, result = .error err ∧ program.Runs service before (.error err) after := by
  induction program generalizing before with
  | done ended =>
    cases ended with
    | ok value =>
      constructor
      · intro run
        exact Or.inl ⟨value, before, ⟨rfl, rfl⟩, run⟩
      · rintro (⟨_, _, ⟨same, rfl⟩, run⟩ | ⟨_, _, same, _⟩)
        · cases same
          exact run
        · cases same
    | error err =>
      constructor
      · rintro ⟨rfl, rfl⟩
        exact Or.inr ⟨err, rfl, rfl, rfl⟩
      · rintro (⟨_, _, ⟨same, _⟩, _⟩ | ⟨_, rfl, same, rfl⟩)
        · cases same
        · cases same
          exact ⟨rfl, rfl⟩
  | ask asked rest ih =>
    constructor
    · rintro ⟨answer, between, serves, run⟩
      rcases (ih answer).mp run with ⟨value, middle, first, second⟩ | ⟨err, failed, first⟩
      · exact Or.inl ⟨value, middle, ⟨answer, between, serves, first⟩, second⟩
      · exact Or.inr ⟨err, failed, answer, between, serves, first⟩
    · rintro (⟨value, middle, ⟨answer, between, serves, first⟩, second⟩ |
        ⟨err, failed, answer, between, serves, first⟩)
      · exact ⟨answer, between, serves, (ih answer).mpr (Or.inl ⟨value, middle, first, second⟩)⟩
      · exact ⟨answer, between, serves, (ih answer).mpr (Or.inr ⟨err, failed, first⟩)⟩

theorem ensures_bind (middle : Except error α → σ → Prop) {program : Program request error α}
    {next : α → Program request error β} {ends : Except error β → σ → Prop}
    (first : Ensures service pre program middle)
    (rest : ∀ value, Ensures service (middle (.ok value)) (next value) ends)
    (fails : ∀ err state, middle (.error err) state → ends (.error err) state) :
    Ensures service pre (program.bind next) ends := by
  constructor
  intro before result after isPre run
  rcases runs_bind.mp run with ⟨value, between, ran, goesOn⟩ | ⟨err, rfl, ran⟩
  · exact (rest value).of_run between result after (first.of_run before _ between isPre ran) goesOn
  · exact fails err after (first.of_run before _ after isPre ran)

theorem runs_attempt {program : Program request error α} {before after : σ}
    {result : Except error (Except error α)} :
    program.attempt.Runs service before result after ↔
      ∃ ended, result = .ok ended ∧ program.Runs service before ended after := by
  induction program generalizing before with
  | done ended =>
    constructor
    · rintro ⟨rfl, rfl⟩
      exact ⟨ended, rfl, rfl, rfl⟩
    · rintro ⟨_, rfl, rfl, rfl⟩
      exact ⟨rfl, rfl⟩
  | ask asked rest ih =>
    constructor
    · rintro ⟨answer, between, serves, run⟩
      obtain ⟨ended, isResult, ran⟩ := (ih answer).mp run
      exact ⟨ended, isResult, answer, between, serves, ran⟩
    · rintro ⟨ended, isResult, answer, between, serves, ran⟩
      exact ⟨answer, between, serves, (ih answer).mpr ⟨ended, isResult, ran⟩⟩

theorem Ensures.bind {program : Program request error α} {next : α → Program request error β}
    {ends : Except error β → σ → Prop} (first : Ensures service pre program post)
    (rest : ∀ value, Ensures service (post (.ok value)) (next value) ends)
    (fails : ∀ err state, post (.error err) state → ends (.error err) state) :
    Ensures service pre (program.bind next) ends :=
  ensures_bind post first rest fails

theorem ensures_attempt (outcome : Except error α → σ → Prop)
    {program : Program request error α} {ends : Except error (Except error α) → σ → Prop}
    (ensures : Ensures service pre program outcome)
    (taken : ∀ result state, outcome result state → ends (.ok result) state) :
    Ensures service pre program.attempt ends := by
  constructor
  intro before result after isPre run
  obtain ⟨ended, rfl, ran⟩ := runs_attempt.mp run
  exact taken ended after (ensures.of_run before ended after isPre ran)

theorem ensures_attempt_bind (outcome : Except error α → σ → Prop)
    {program : Program request error α} {next : Except error α → Program request error β}
    {ends : Except error β → σ → Prop} (ensures : Ensures service pre program outcome)
    (rest : ∀ result, Ensures service (outcome result) (next result) ends) :
    Ensures service pre (program.attempt.bind next) ends := by
  constructor
  intro before result after isPre run
  rcases runs_bind.mp run with ⟨ended, between, ran, goesOn⟩ | ⟨err, _, ran⟩
  · obtain ⟨_, same, ran⟩ := runs_attempt.mp ran
    cases same
    exact (rest ended).of_run between result after (ensures.of_run before ended between isPre ran)
      goesOn
  · obtain ⟨_, same, _⟩ := runs_attempt.mp ran
    cases same

theorem ensures_forEach {work : α → Program request error Unit} (holds : List α → σ → Prop)
    {ends : Except error Unit → σ → Prop}
    (step : ∀ value values, Ensures service (holds (value :: values)) (work value)
      fun result state => match result with
        | .ok _ => holds values state
        | .error err => ends (.error err) state)
    (last : ∀ state, holds [] state → ends (.ok ()) state) (values : List α) :
    Ensures service (holds values) (forEach work values) ends := by
  induction values with
  | nil => exact ensures_done last
  | cons value values ih =>
    apply (step value values).bind
    · intro _
      exact ih
    · intro err state failed
      exact failed

theorem Meets.of_runs {allowed : {β : Type} → request β → Prop} {fits : Fits request}
    (keeps : σ → Prop) {ends : Except error α → Prop} {program : Program request error α}
    (kept : ∀ (β : Type) before (asked : request β) answer after,
      service β before asked answer after → allowed asked → keeps before → keeps after)
    (fit : ∀ (β : Type) before (asked : request β) value after,
      service β before asked (.ok value) after → fits asked value)
    (meets : program.Meets allowed fits ends) {before after : σ} {result : Except error α}
    (starts : keeps before) (run : program.Runs service before result after) :
    keeps after ∧ ends result := by
  induction program generalizing before with
  | done ended =>
    obtain ⟨rfl, rfl⟩ := run
    exact ⟨starts, meets⟩
  | ask asked next ih =>
    obtain ⟨answer, between, serves, run⟩ := run
    apply ih answer _ (kept _ _ _ _ _ serves meets.1 starts) run
    apply meets.2
    rintro value rfl
    exact fit _ _ _ _ _ serves

/-! ### Services with one answer -/

/-- The outcome where the state determines every answer. -/
def exec (respond : (β : Type) → σ → request β → Except error β × σ) :
    Program request error α → σ → Except error α × σ
  | .done result, state => (result, state)
  | .ask asked next, state =>
    (next (respond _ state asked).1).exec respond (respond _ state asked).2

theorem runs_exec {respond : (β : Type) → σ → request β → Except error β × σ}
    (serves : ∀ (β : Type) (state : σ) (asked : request β),
      service β state asked (respond β state asked).1 (respond β state asked).2)
    (program : Program request error α) (state : σ) :
    program.Runs service state (program.exec respond state).1 (program.exec respond state).2 := by
  induction program generalizing state with
  | done result => exact ⟨rfl, rfl⟩
  | ask asked next ih => exact ⟨_, _, serves _ state asked, ih _ _⟩

/-- The service that always answers so. -/
def answering (respond : (β : Type) → σ → request β → Except error β × σ) :
    Service σ request error :=
  fun β before asked answer after => (answer, after) = respond β before asked

theorem serves_answering (respond : (β : Type) → σ → request β → Except error β × σ) (β : Type)
    (state : σ) (asked : request β) : answering respond β state asked (respond β state asked).1
      (respond β state asked).2 := rfl

end Program
