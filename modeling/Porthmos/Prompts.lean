import Porthmos.App
import Mathlib.Logic.Function.Basic
import Mathlib.Logic.Relation

/-!
# Questions of connect tasks

A task that connects has a prompter.  To ask, it takes an id, enters a reply channel under the id,
sends the question, and waits.  The user's answers name an id.  Tasks, answers and aborts take
their steps in any order.
-/

namespace Porthmos

namespace Prompts

/-- Where `ask` is. -/
inductive Stage
  | idle
  /-- The id is taken, and its channel is not entered yet. -/
  | taken (id : Nat) (question : Question)
  | entered (id : Nat) (question : Question)
  | waiting (id : Nat) (question : Question)

/-- What is sent through a channel: the answer, if there is one, and whether to save it. -/
abbrev Reply := Option (Answer × Bool)

structure EnginePrompter where
  stage : Stage := .idle
  typed : Option (String × Bool) := none

/-- What `ask` does with a reply. -/
def EnginePrompter.receive (prompter : EnginePrompter) (question : Question) (reply : Reply) :
    EnginePrompter :=
  match question, reply with
  | .password _ _, some (.password secret, save) => ⟨.idle, some (secret, save)⟩
  | _, _ => { prompter with stage := .idle }

/-- The pending questions, the prompters of the tasks that are left, and what has happened. -/
structure PendingQuestions where
  waiting : List Nat := []
  nextId : Nat := 0
  /-- What was sent to the receiver of an id. -/
  sent : Nat → Option Reply := fun _ => none
  prompters : Nat → Option EnginePrompter := fun _ => none
  /-- The questions that were shown, each with its task and id. -/
  shown : List (Nat × Nat × Question) := []
  /-- The replies that found a channel. -/
  accepted : List (Nat × Reply) := []
  /-- What `ask` has returned after a reply. -/
  returned : List (Nat × Nat × Option Answer) := []

def PendingQuestions.setPrompter (state : PendingQuestions) (task : Nat)
    (prompter : EnginePrompter) : PendingQuestions :=
  { state with prompters := Function.update state.prompters task (some prompter) }

def PendingQuestions.answer (state : PendingQuestions) (id : Nat) (answer : Option Answer)
    (save : Bool) : PendingQuestions :=
  if id ∈ state.waiting then
    let reply : Reply := answer.map fun answer => (answer, save)
    { state with
      waiting := state.waiting.filter fun other => other ≠ id
      sent := Function.update state.sent id (some reply)
      accepted := state.accepted ++ [(id, reply)] }
  else state

inductive Step (state : PendingQuestions) : PendingQuestions → Prop
  | starts {task : Nat} (isNew : state.prompters task = none) :
      Step state (state.setPrompter task {})
  | takes {task : Nat} {prompter : EnginePrompter} (found : state.prompters task = some prompter)
      (idle : prompter.stage = .idle) (question : Question) : Step state
      { state.setPrompter task { prompter with stage := .taken state.nextId question } with
        nextId := state.nextId + 1 }
  | enters {task id : Nat} {prompter : EnginePrompter} {question : Question}
      (found : state.prompters task = some prompter)
      (taken : prompter.stage = .taken id question) : Step state
      { state.setPrompter task { prompter with stage := .entered id question } with
        waiting := id :: state.waiting }
  | sends {task id : Nat} {prompter : EnginePrompter} {question : Question}
      (found : state.prompters task = some prompter)
      (entered : prompter.stage = .entered id question) : Step state
      { state.setPrompter task { prompter with stage := .waiting id question } with
        shown := state.shown ++ [(task, id, question)] }
  /-- Nobody receives events any more. -/
  | fails {task id : Nat} {prompter : EnginePrompter} {question : Question}
      (found : state.prompters task = some prompter)
      (entered : prompter.stage = .entered id question) :
      Step state (state.setPrompter task { prompter with stage := .idle })
  | answers (id : Nat) (answer : Option Answer) (save : Bool) :
      Step state (state.answer id answer save)
  | receives {task id : Nat} {prompter : EnginePrompter} {question : Question} {reply : Reply}
      (found : state.prompters task = some prompter)
      (waits : prompter.stage = .waiting id question) (isSent : state.sent id = some reply) :
      Step state
      { state.setPrompter task (prompter.receive question reply) with
        returned := state.returned ++ [(task, id, reply.map Prod.fst)] }
  | aborts (task : Nat) :
      Step state { state with prompters := Function.update state.prompters task none }

def Run (state : PendingQuestions) : Prop := Relation.ReflTransGen Step {} state

/-! ### What holds in every state -/

def Stage.id : Stage → Option Nat
  | .idle => none
  | .taken id _ | .entered id _ | .waiting id _ => some id

/-- The channel of an id is entered, or has been used. -/
def PendingQuestions.Open (state : PendingQuestions) (id : Nat) : Prop :=
  id ∈ state.waiting ∨ ∃ reply, state.sent id = some reply ∧ (id, reply) ∈ state.accepted

/-- What holds of the prompter of a task. -/
structure Fits (state : PendingQuestions) (task : Nat) (prompter : EnginePrompter) : Prop where
  id_lt : ∀ id, prompter.stage.id = some id → id < state.nextId
  taken : ∀ id question, prompter.stage = .taken id question →
    id ∉ state.waiting ∧ ∀ reply, (id, reply) ∉ state.accepted
  unshown : ∀ id question,
    prompter.stage = .taken id question ∨ prompter.stage = .entered id question → ∀ entry ∈ state.shown, entry.2.1 ≠ id
  isOpen : ∀ id question, prompter.stage = .entered id question ∨
    prompter.stage = .waiting id question → state.Open id
  isShown : ∀ id question, prompter.stage = .waiting id question → (task, id, question) ∈ state.shown
  typed : ∀ secret save, prompter.typed = some (secret, save) → ∃ id username name,
    (task, id, .password username name) ∈ state.shown ∧
      (id, some (.password secret, save)) ∈ state.accepted

/-- Nobody else has the id of a task's question. -/
def Apart (state : PendingQuestions) : Prop :=
  ∀ first second prompter other id, state.prompters first = some prompter →
    state.prompters second = some other → prompter.stage.id = some id → other.stage.id = some id →
    first = second

/-- What holds of the questions, whoever asked them. -/
structure Kept (state : PendingQuestions) : Prop where
  waiting : ∀ id ∈ state.waiting, id < state.nextId ∧ ∀ reply, (id, reply) ∉ state.accepted
  accepted : ∀ entry ∈ state.accepted, entry.1 < state.nextId
  sent : ∀ id reply, state.sent id = some reply → (id, reply) ∈ state.accepted
  shown : ∀ entry ∈ state.shown, entry.2.1 < state.nextId
  returned : ∀ entry ∈ state.returned, ∃ question reply,
    (entry.1, entry.2.1, question) ∈ state.shown ∧ (entry.2.1, reply) ∈ state.accepted ∧
      entry.2.2 = reply.map Prod.fst
  answeredOnce : (state.accepted.map Prod.fst).Nodup
  shownOnce : (state.shown.map fun entry => entry.2.1).Nodup

structure Sound (state : PendingQuestions) : Prop where
  fits : ∀ task prompter, state.prompters task = some prompter → Fits state task prompter
  apart : Apart state
  kept : Kept state

variable {state after : PendingQuestions} {task id : Nat} {prompter changed : EnginePrompter}
  {question : Question}

/-- What happens to the questions of others leaves a prompter as it is. -/
theorem Fits.carry (fits : Fits state task prompter) (later : state.nextId ≤ after.nextId)
    (shown : state.shown ⊆ after.shown) (accepted : state.accepted ⊆ after.accepted)
    (others : ∀ entry ∈ after.shown, entry ∈ state.shown ∨ prompter.stage.id ≠ some entry.2.1)
    (waiting : ∀ id, prompter.stage.id = some id → id ∈ after.waiting → id ∈ state.waiting)
    (replies : ∀ id reply, prompter.stage.id = some id → id ∉ state.waiting →
      (id, reply) ∈ after.accepted → (id, reply) ∈ state.accepted)
    (isOpen : ∀ id, state.Open id → after.Open id) : Fits after task prompter where
  id_lt id isId := Nat.lt_of_lt_of_le (fits.id_lt id isId) later
  taken id question isTaken := by
    obtain ⟨notWaiting, notAccepted⟩ := fits.taken id question isTaken
    have isId : prompter.stage.id = some id := by rw [isTaken]; rfl
    exact ⟨fun isWaiting => notWaiting (waiting id isId isWaiting),
      fun reply isAccepted => notAccepted reply (replies id reply isId notWaiting isAccepted)⟩
  unshown id question isStage entry isShown := by
    have isId : prompter.stage.id = some id := by
      rcases isStage with isTaken | entered
      · rw [isTaken]; rfl
      · rw [entered]; rfl
    rcases others entry isShown with earlier | different
    · exact fits.unshown id question isStage entry earlier
    · rintro rfl
      exact different isId
  isOpen id question isStage := isOpen id (fits.isOpen id question isStage)
  isShown id question isStage := shown (fits.isShown id question isStage)
  typed secret save isTyped := by
    obtain ⟨id, username, name, isShown, isAccepted⟩ := fits.typed secret save isTyped
    exact ⟨id, username, name, shown isShown, accepted isAccepted⟩

/-- A task goes on: with the id that it had, with a new one or with none. -/
theorem Sound.setPrompter (sound : Sound state) (kept : Kept after)
    (prompters : after.prompters = Function.update state.prompters task (some changed))
    (fits : Fits after task changed)
    (others : ∀ other prompter, other ≠ task → state.prompters other = some prompter →
      Fits after other prompter)
    (unused : ∀ other prompter id, other ≠ task → state.prompters other = some prompter →
      changed.stage.id = some id → prompter.stage.id ≠ some id) : Sound after := by
  refine ⟨fun other found isFound => ?_, ?_, kept⟩
  · rw [prompters] at isFound
    by_cases same : other = task
    · subst same
      rw [Function.update_self, Option.some.injEq] at isFound
      exact isFound ▸ fits
    · rw [Function.update_of_ne same] at isFound
      exact others other found same isFound
  · intro first second one two id isOne isTwo oneId twoId
    rw [prompters] at isOne isTwo
    by_cases isFirst : first = task <;> by_cases isSecond : second = task
    · exact isFirst.trans isSecond.symm
    · subst isFirst
      rw [Function.update_self, Option.some.injEq] at isOne
      rw [Function.update_of_ne isSecond] at isTwo
      exact absurd twoId (unused second two id isSecond isTwo (isOne ▸ oneId))
    · subst isSecond
      rw [Function.update_self, Option.some.injEq] at isTwo
      rw [Function.update_of_ne isFirst] at isOne
      exact absurd oneId (unused first one id isFirst isOne (isTwo ▸ twoId))
    · rw [Function.update_of_ne isFirst] at isOne
      rw [Function.update_of_ne isSecond] at isTwo
      exact sound.apart first second one two id isOne isTwo oneId twoId

theorem Sound.unused (sound : Sound state) (found : state.prompters task = some prompter)
    (isId : prompter.stage.id = some id) {other : Nat} {last : EnginePrompter}
    (different : other ≠ task) (isLast : state.prompters other = some last) : last.stage.id ≠ some id :=
  fun same => different (sound.apart other task last prompter id isLast found same isId)

theorem Fits.of_eq (fits : Fits state task prompter) (nextId : after.nextId = state.nextId)
    (waiting : after.waiting = state.waiting) (sent : after.sent = state.sent)
    (shown : after.shown = state.shown) (accepted : after.accepted = state.accepted) :
    Fits after task prompter := by
  refine fits.carry nextId.ge (shown ▸ List.Subset.refl _) (accepted ▸ List.Subset.refl _) ?_ ?_ ?_ ?_
  · exact fun entry isShown => .inl (shown ▸ isShown)
  · exact fun id _ isWaiting => waiting ▸ isWaiting
  · exact fun id reply _ _ isAccepted => accepted ▸ isAccepted
  · unfold PendingQuestions.Open
    rw [waiting, sent, accepted]
    exact fun id isOpen => isOpen

theorem Fits.idle {typed : Option (String × Bool)} (isTyped : ∀ secret save,
      typed = some (secret, save) → ∃ id username name,
        (task, id, .password username name) ∈ state.shown ∧
          (id, some (.password secret, save)) ∈ state.accepted) :
    Fits state task ⟨.idle, typed⟩ :=
  ⟨nofun, nofun, nofun, nofun, nofun, isTyped⟩

theorem Sound.step (sound : Sound state) (step : Step state after) : Sound after := by
  obtain ⟨fits, apart, kept⟩ := id sound
  cases step with
  | @starts task isNew =>
    refine sound.setPrompter ⟨kept.1, kept.2, kept.3, kept.4, kept.5, kept.6, kept.7⟩ rfl
      (.idle nofun) (fun other last _ found => ?_) nofun
    exact (fits other last found).of_eq rfl rfl rfl rfl rfl
  | @takes task prompter found idle question =>
    have late (id : Nat) (lt : id < state.nextId) : id ≠ state.nextId := Nat.ne_of_lt lt
    refine sound.setPrompter ⟨fun id isWaiting => ?_, fun entry isAccepted => ?_, kept.sent,
      fun entry isShown => ?_, kept.returned, kept.answeredOnce, kept.shownOnce⟩ rfl ?_ ?_ ?_
    · exact ⟨Nat.lt_succ_of_lt (kept.waiting id isWaiting).1, (kept.waiting id isWaiting).2⟩
    · exact Nat.lt_succ_of_lt (kept.accepted entry isAccepted)
    · exact Nat.lt_succ_of_lt (kept.shown entry isShown)
    · refine ⟨?_, ?_, ?_, nofun, nofun, (fits task prompter found).typed⟩
      · rintro _ ⟨⟩
        exact Nat.lt_succ_self _
      · rintro _ _ ⟨⟩
        exact ⟨fun isWaiting => late _ (kept.waiting _ isWaiting).1 rfl,
          fun reply isAccepted => late _ (kept.accepted _ isAccepted) rfl⟩
      · rintro _ _ (⟨⟨⟩⟩ | ⟨⟨⟩⟩) entry isShown
        exact late _ (kept.shown entry isShown)
    · intro other last _ isLast
      exact (fits other last isLast).carry (Nat.le_succ _) (List.Subset.refl _) (List.Subset.refl _)
        (fun _ isShown => .inl isShown) (fun _ _ isWaiting => isWaiting)
        (fun _ _ _ _ isAccepted => isAccepted) fun _ isOpen => isOpen
    · rintro other last _ _ isLast ⟨⟩ isId
      exact late _ ((fits other last isLast).id_lt _ isId) rfl
  | @enters task id prompter question found taken =>
    have own := fits task prompter found
    have isId : prompter.stage.id = some id := by rw [taken]; rfl
    refine sound.setPrompter ⟨?_, kept.accepted, kept.sent, kept.shown, kept.returned,
      kept.answeredOnce, kept.shownOnce⟩ rfl ?_ ?_ ?_
    · rintro _ (_ | ⟨_, isWaiting⟩)
      · exact ⟨own.id_lt id isId, (own.taken id question taken).2⟩
      · exact kept.waiting _ isWaiting
    · refine ⟨fun _ same => own.id_lt _ (isId.trans same), nofun, ?_, ?_, nofun, own.typed⟩
      · rintro _ _ (⟨⟨⟩⟩ | ⟨⟨⟩⟩)
        exact own.unshown id question (.inl taken)
      · rintro _ _ (⟨⟨⟩⟩ | ⟨⟨⟩⟩)
        exact .inl (List.mem_cons_self ..)
    · intro other last different isLast
      refine (fits other last isLast).carry (Nat.le_refl _) (List.Subset.refl _) (List.Subset.refl _)
        (fun _ isShown => .inl isShown) ?_ (fun _ _ _ _ isAccepted => isAccepted)
        fun _ isOpen => isOpen.imp_left (List.mem_cons_of_mem _)
      rintro _ otherId (_ | ⟨_, isWaiting⟩)
      · exact absurd otherId (sound.unused found isId different isLast)
      · exact isWaiting
    · rintro other last _ different isLast ⟨⟩
      exact sound.unused found isId different isLast
  | @sends task id prompter question found entered =>
    have own := fits task prompter found
    have isId : prompter.stage.id = some id := by rw [entered]; rfl
    have isNew := own.unshown id question (.inr entered)
    have grows : state.shown ⊆ state.shown ++ [(task, id, question)] := List.subset_append_left _ _
    refine sound.setPrompter ⟨kept.waiting, kept.accepted, kept.sent, ?_, ?_, kept.answeredOnce, ?_⟩
      rfl ?_ ?_ ?_
    · intro entry isShown
      rcases List.mem_append.mp isShown with earlier | isLast
      · exact kept.shown entry earlier
      · cases List.mem_singleton.mp isLast
        exact own.id_lt id isId
    · intro entry isReturned
      obtain ⟨asked, reply, isShown, rest⟩ := kept.returned entry isReturned
      exact ⟨asked, reply, grows isShown, rest⟩
    · rw [List.map_append, List.nodup_append]
      refine ⟨kept.shownOnce, List.nodup_singleton _, ?_⟩
      intro earlier member last isLast
      obtain ⟨entry, isShown, rfl⟩ := List.mem_map.mp member
      cases List.mem_singleton.mp isLast
      exact isNew entry isShown
    · refine ⟨fun _ same => own.id_lt _ (isId.trans same), nofun, ?_, ?_, ?_, ?_⟩
      · rintro _ _ (⟨⟨⟩⟩ | ⟨⟨⟩⟩)
      · rintro _ _ (⟨⟨⟩⟩ | ⟨⟨⟩⟩)
        exact own.isOpen id question (.inl entered)
      · rintro _ _ ⟨⟩
        exact List.mem_append_right _ (List.mem_singleton_self _)
      · intro secret save isTyped
        obtain ⟨askedId, username, name, isShown, isAccepted⟩ := own.typed secret save isTyped
        exact ⟨askedId, username, name, grows isShown, isAccepted⟩
    · intro other last different isLast
      refine (fits other last isLast).carry (Nat.le_refl _) grows (List.Subset.refl _) ?_
        (fun _ _ isWaiting => isWaiting) (fun _ _ _ _ isAccepted => isAccepted) fun _ isOpen => isOpen
      intro entry isShown
      refine (List.mem_append.mp isShown).imp_right fun isNewest => ?_
      cases List.mem_singleton.mp isNewest
      exact sound.unused found isId different isLast
    · rintro other last _ different isLast ⟨⟩
      exact sound.unused found isId different isLast
  | @fails task id prompter question found entered =>
    refine sound.setPrompter ⟨kept.1, kept.2, kept.3, kept.4, kept.5, kept.6, kept.7⟩ rfl
      (.idle (fits task prompter found).typed) (fun other last _ isLast => ?_) nofun
    exact (fits other last isLast).of_eq rfl rfl rfl rfl rfl
  | answers id answer save =>
    unfold PendingQuestions.answer
    split_ifs with isWaiting
    swap
    · exact sound
    have isNew := (kept.waiting id isWaiting).2
    have grows (reply : Reply) : state.accepted ⊆ state.accepted ++ [(id, reply)] :=
      List.subset_append_left _ _
    have stays {other : Nat} (isOther : other ∈ state.waiting.filter fun other => other ≠ id) :
        other ∈ state.waiting ∧ other ≠ id :=
      (List.mem_filter.mp isOther).imp_right of_decide_eq_true
    have accepts {other : Nat} {reply later : Reply}
        (isAccepted : (other, later) ∈ state.accepted ++ [(id, reply)]) :
        (other, later) ∈ state.accepted ∨ other = id := by
      refine (List.mem_append.mp isAccepted).imp_right fun isLast => ?_
      cases List.mem_singleton.mp isLast
      rfl
    refine ⟨fun other last isLast => ?_, apart, ?_, ?_, ?_, kept.shown, ?_, ?_, kept.shownOnce⟩
    · refine (fits other last isLast).carry (Nat.le_refl _) (List.Subset.refl _) (grows _)
        (fun _ isShown => .inl isShown) (fun _ _ isOther => (stays isOther).1) ?_ ?_
      · intro otherId reply _ notWaiting isAccepted
        rcases accepts isAccepted with earlier | rfl
        · exact earlier
        · exact absurd isWaiting notWaiting
      · intro otherId isOpen
        by_cases same : otherId = id
        · subst same
          exact .inr ⟨_, Function.update_self .., List.mem_append_right _ (List.mem_singleton_self _)⟩
        · rcases isOpen with isOther | ⟨reply, isSent, isAccepted⟩
          · exact .inl (List.mem_filter.mpr ⟨isOther, decide_eq_true same⟩)
          · exact .inr ⟨reply, (Function.update_of_ne same _ _).trans isSent, grows _ isAccepted⟩
    · intro other isOther
      refine ⟨(kept.waiting other (stays isOther).1).1, fun reply isAccepted => ?_⟩
      rcases accepts isAccepted with earlier | same
      · exact (kept.waiting other (stays isOther).1).2 reply earlier
      · exact (stays isOther).2 same
    · intro entry isAccepted
      rcases accepts isAccepted with earlier | same
      · exact kept.accepted entry earlier
      · exact same ▸ (kept.waiting id isWaiting).1
    · intro other reply isSent
      by_cases same : other = id
      · subst same
        simp only [Function.update_self, Option.some.injEq] at isSent
        exact isSent ▸ List.mem_append_right _ (List.mem_singleton_self _)
      · exact grows _ (kept.sent other reply ((Function.update_of_ne same _ _).symm.trans isSent))
    · intro entry isReturned
      obtain ⟨question, reply, isShown, isAccepted, result⟩ := kept.returned entry isReturned
      exact ⟨question, reply, isShown, grows _ isAccepted, result⟩
    · rw [List.map_append, List.nodup_append]
      refine ⟨kept.answeredOnce, List.nodup_singleton _, ?_⟩
      intro earlier member last isLast
      obtain ⟨entry, isAccepted, rfl⟩ := List.mem_map.mp member
      cases List.mem_singleton.mp isLast
      rintro rfl
      exact isNew entry.2 isAccepted
  | @receives task id prompter question reply found waits isSent =>
    have own := fits task prompter found
    have isShown := own.isShown id question waits
    have isAccepted := kept.sent id reply isSent
    have isIdle : (prompter.receive question reply).stage = .idle := by
      unfold EnginePrompter.receive
      split <;> rfl
    refine sound.setPrompter ⟨kept.1, kept.2, kept.3, kept.4, fun entry isReturned => ?_, kept.6,
      kept.7⟩ rfl ?_ (fun other last _ isLast => ?_) ?_
    · rcases List.mem_append.mp isReturned with earlier | isLast
      · exact kept.returned entry earlier
      · cases List.mem_singleton.mp isLast
        exact ⟨question, reply, isShown, isAccepted, rfl⟩
    · unfold EnginePrompter.receive
      split
      · refine .idle fun secret save isTyped => ?_
        cases isTyped
        exact ⟨id, _, _, isShown, isAccepted⟩
      · exact .idle own.typed
    · exact (fits other last isLast).of_eq rfl rfl rfl rfl rfl
    · rw [isIdle]
      exact nofun
  | aborts task =>
    have left {other : Nat} {last : EnginePrompter}
        (isLast : Function.update state.prompters task none other = some last) :
        state.prompters other = some last := by
      by_cases same : other = task
      · subst same
        rw [Function.update_self] at isLast
        cases isLast
      · rwa [Function.update_of_ne same] at isLast
    refine ⟨fun other last isLast => (fits other last (left isLast)).of_eq rfl rfl rfl rfl rfl, ?_,
      kept.1, kept.2, kept.3, kept.4, kept.5, kept.6, kept.7⟩
    exact fun first second one two id isOne isTwo => apart first second one two id (left isOne)
      (left isTwo)

theorem sound_of_steps (run : Run state) : Sound state := by
  induction run with
  | refl => exact
      ⟨nofun, fun _ _ _ _ _ found => absurd found (Option.some_ne_none _).symm, nofun, nofun,
        nofun, nofun, nofun, List.nodup_nil, List.nodup_nil⟩
  | tail _ step sound => exact sound.step step

/-- In every run a question is shown and answered once at most, as long as a task waits its channel
takes a reply or has one, what `ask` returns is the reply to the question of its task, and a
password that a task has typed was the answer to a question for one, of its own. -/
theorem replies_of_run (run : Run state) :
    (state.shown.map fun entry => entry.2.1).Nodup ∧ (state.accepted.map Prod.fst).Nodup ∧
    (∀ task prompter id question, state.prompters task = some prompter →
      prompter.stage = .waiting id question → state.Open id) ∧
    (∀ entry ∈ state.returned, ∃ question reply, (entry.1, entry.2.1, question) ∈ state.shown ∧
      (entry.2.1, reply) ∈ state.accepted ∧ entry.2.2 = reply.map Prod.fst) ∧
    ∀ task prompter secret save, state.prompters task = some prompter →
      prompter.typed = some (secret, save) → ∃ id username name,
        (task, id, .password username name) ∈ state.shown ∧
          (id, some (.password secret, save)) ∈ state.accepted := by
  have sound := sound_of_steps run
  refine ⟨sound.kept.shownOnce, sound.kept.answeredOnce, ?_, sound.kept.returned, ?_⟩
  · exact fun task prompter id question found waits =>
      (sound.fits task prompter found).isOpen id question (.inr waits)
  · exact fun task prompter secret save found =>
      (sound.fits task prompter found).typed secret save

theorem replies_of_run_second : ∃ state, Run state ∧
    state.returned = [(1, 1, some (.password "pw"))] ∧ state.Open 0 := by
  have run : Run _ := Relation.ReflTransGen.refl
    |>.tail (@Step.starts _ 0 rfl) |>.tail (@Step.starts _ 1 rfl)
    |>.tail (@Step.takes _ 0 _ rfl rfl (.password "me" "a"))
    |>.tail (@Step.takes _ 1 _ rfl rfl (.password "me" "b"))
    |>.tail (@Step.enters _ 1 _ _ _ rfl rfl) |>.tail (@Step.enters _ 0 _ _ _ rfl rfl)
    |>.tail (@Step.sends _ 0 _ _ _ rfl rfl) |>.tail (@Step.sends _ 1 _ _ _ rfl rfl)
    |>.tail (.answers 1 (some (.password "pw")) true) |>.tail (@Step.receives _ 1 _ _ _ _ rfl rfl rfl)
  exact ⟨_, run, rfl, (replies_of_run run).2.2.1 0 _ 0 _ rfl rfl⟩

end Prompts

end Porthmos
