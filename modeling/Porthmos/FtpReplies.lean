import Porthmos.FtpPool

/-!
# Every reply answers the operation that reads it

A main connection on which nothing is unread, or that is broken, gives an operation its own replies
only, and an operation that comes to an end leaves it so.  What is left to say is which calls leave
it otherwise without a mark.
-/

namespace Porthmos.FtpPool

/-- No reply waits that a later command could read. -/
def Connection.Clear (connection : Connection) : Prop :=
  connection.broken ∨ connection.unread = []

instance (connection : Connection) : Decidable connection.Clear :=
  inferInstanceAs (Decidable (_ ∨ _))

/-- What holds between calls: an unread reply is on a marked main connection only. -/
structure Pool.InStep (pool : Pool) : Prop where
  ownReplies : pool.OwnReplies
  clear : pool.mainOutOfStep ∨ pool.main.Clear

/-- A lost main connection whose replacement leaves no reply unread: the old one has none if the
login fails, and the repeated operation leaves none on the new one. -/
def CarefulReplay {α : Type} (network : Network) (op : Operation α) (pool : Pool) : Prop :=
  (network.opens pool.logins ≠ none → pool.main.Clear) ∧
    (network.opens pool.logins = none →
      (perform network op (reopen network pool).2).2.main.Clear)

/-- Whatever main connection is lost in the call is replaced without an unread reply, and a question
is not asked on a marked connection with one. -/
def Careful (network : Network) (pool : Pool) : Call → Prop
  | .attempt op | .run op | .runRaw op | .runRawListing op =>
    let entered := enter network pool
    let tried := tryOnce network op entered.2
    entered.1 = none → tried.1 = none → CarefulReplay network op tried.2
  | .askOnce _ => pool.main.Clear

def CarefulCalls (network : Network) (pool : Pool) : List Call → Prop
  | [] => True
  | call :: calls =>
    Careful network pool call ∧ CarefulCalls network (pool.step network call) calls

section Steps

variable {α : Type} (network : Network) {pool : Pool}

/-- What a command or an operation does on a clear main connection: its replies are its own, and it
leaves the connection clear unless it is cut off. -/
structure Keeps {β : Type} (pool : Pool) (done : Option β × Pool) : Prop where
  ownReplies : done.2.OwnReplies
  mainOutOfStep : done.2.mainOutOfStep = pool.mainOutOfStep
  clear : done.1 ≠ none → done.2.main.Clear

theorem tell_keeps (command : ControlCommand) (own : pool.OwnReplies) (clear : pool.main.Clear) :
    Keeps pool (tell network command pool) := by
  by_cases broken : pool.main.broken = true
  · simp only [tell, broken, if_true]
    exact ⟨own, rfl, fun _ => .inl broken⟩
  · have nothing : pool.main.unread = [] := clear.resolve_left broken
    simp only [tell, broken, nothing]
    cases turn : network.turn pool.sent with
    | answered =>
      refine ⟨fun exchange member => ?_, rfl, fun _ => .inr rfl⟩
      rcases List.mem_append.mp member with old | new
      · exact own exchange old
      · simp only [List.mem_singleton] at new
        simp [new]
    | late reached => exact ⟨own, rfl, fun given => absurd rfl given⟩
    | broken => exact ⟨own, rfl, fun _ => .inl rfl⟩

theorem Keeps.trans {β γ : Type} {first : Option β × Pool} {second : Option γ × Pool}
    (keeps : Keeps pool first) (next : Keeps first.2 second) : Keeps pool second where
  ownReplies := next.ownReplies
  mainOutOfStep := next.mainOutOfStep.trans keeps.mainOutOfStep
  clear := next.clear

theorem perform_keeps (op : Operation α) (own : pool.OwnReplies) (clear : pool.main.Clear) :
    Keeps pool (perform network op pool) := by
  induction op generalizing pool with
  | finish result => exact ⟨own, rfl, fun _ => clear⟩
  | tell command next ih =>
    have keeps := tell_keeps network command own clear
    rcases told : tell network command pool with ⟨reply, after⟩
    rw [told] at keeps
    cases reply with
    | none =>
      simp only [perform, told]
      exact ⟨keeps.ownReplies, keeps.mainOutOfStep, fun given => absurd rfl given⟩
    | some reply =>
      simp only [perform, told]
      have cleared : after.main.Clear := keeps.clear (by simp)
      exact keeps.trans (ih reply keeps.ownReplies cleared)

theorem tryOnce_keeps (op : Operation α) (own : pool.OwnReplies) (clear : pool.main.Clear) :
    Keeps pool (tryOnce network op pool) := by
  have first := perform_keeps network op own clear
  rcases performed : perform network op pool with ⟨result, after⟩
  rw [performed] at first
  rcases result with - | (err | value)
  · simp only [tryOnce, performed, within, timedOut, FtpError.isBadResponse,
      FtpError.isConnectionLost]
    exact ⟨first.ownReplies, first.mainOutOfStep, fun given => absurd rfl given⟩
  · have cleared : after.main.Clear := first.clear (by simp)
    simp only [tryOnce, performed, within]
    by_cases bad : err.isBadResponse = true
    · have probed := tell_keeps network (.file .noop) first.ownReplies cleared
      rcases told : tell network (.file .noop) after with ⟨reply, last⟩
      rw [told] at probed
      have kept := first.trans probed
      rcases reply with - | (err | value)
      · simp only [bad, if_true]
        exact ⟨kept.ownReplies, kept.mainOutOfStep, fun given => absurd rfl given⟩
      · simp only [bad, if_true]
        exact ⟨kept.ownReplies, kept.mainOutOfStep, fun given => absurd rfl given⟩
      · simp only [bad, if_true]
        exact ⟨kept.ownReplies, kept.mainOutOfStep, fun _ => kept.clear (by simp)⟩
    · by_cases lost : err.isConnectionLost = true
      · simp only [if_neg bad, if_pos lost]
        exact ⟨first.ownReplies, first.mainOutOfStep, fun given => absurd rfl given⟩
      · simp only [if_neg bad, if_neg lost]
        exact ⟨first.ownReplies, first.mainOutOfStep, fun _ => cleared⟩
  · simp only [tryOnce, performed, within]
    exact ⟨first.ownReplies, first.mainOutOfStep, fun _ => first.clear (by simp)⟩

theorem enter_inStep (inStep : pool.InStep) : (enter network pool).2.InStep ∧
      ((enter network pool).1 = none → (enter network pool).2.main.Clear) := by
  by_cases marked : pool.mainOutOfStep = true
  · simp only [enter, marked, if_true, reopen]
    cases network.opens pool.logins with
    | none => exact ⟨⟨inStep.ownReplies, .inr (.inr rfl)⟩, fun _ => .inr rfl⟩
    | some err => exact ⟨⟨inStep.ownReplies, .inl rfl⟩, fun fails => absurd fails (by simp)⟩
  · simp only [enter, if_neg marked]
    exact ⟨inStep, fun _ => inStep.clear.resolve_left marked⟩

theorem replay_inStep (op : Operation α) (own : pool.OwnReplies)
    (careful : CarefulReplay network op pool) : (replay network op pool).2.InStep := by
  cases opened : network.opens pool.logins with
  | none =>
    have again := careful.2 opened
    simp only [reopen, opened] at again
    simp only [replay, reopen, opened]
    have fresh : Keeps _ (perform network op
        { pool with main := .fresh, logins := pool.logins + 1 }) :=
      perform_keeps network op own (.inr rfl)
    exact ⟨fresh.ownReplies, .inr again⟩
  | some err =>
    have clear := careful.1 (by simp [opened])
    simp only [replay, reopen, opened]
    exact ⟨own, .inr clear⟩

theorem attempt_inStep (op : Operation α) (inStep : pool.InStep)
    (careful : Careful network pool (.attempt op)) : (attempt network op pool).2.InStep := by
  have begun := enter_inStep network inStep
  simp only [Careful] at careful
  rcases entered : enter network pool with ⟨_ | err, after⟩
  · rw [entered] at begun careful
    have kept := tryOnce_keeps network op begun.1.ownReplies (begun.2 rfl)
    rcases tried : tryOnce network op after with ⟨_ | result, last⟩
    · rw [tried] at kept careful
      simp only [attempt, entered, tried]
      exact replay_inStep network op kept.ownReplies (careful rfl rfl)
    · rw [tried] at kept
      simp only [attempt, entered, tried]
      exact ⟨kept.ownReplies, .inr (kept.clear (by simp))⟩
  · rw [entered] at begun
    simpa only [attempt, entered] using begun.1

theorem askOnce_inStep (op : Operation α) (own : pool.OwnReplies) (clear : pool.main.Clear) :
    (askOnce network op pool).2.InStep := by
  have asked := perform_keeps network op own clear
  rcases performed : perform network op pool with ⟨result, after⟩
  rw [performed] at asked
  rcases result with - | (err | value)
  · simp only [askOnce, performed, within, timedOut, FtpError.isConnectionLost, if_true]
    exact ⟨asked.ownReplies, .inl rfl⟩
  · simp only [askOnce, performed, within]
    by_cases lost : err.isConnectionLost = true
    · simp only [if_pos lost]
      exact ⟨asked.ownReplies, .inl rfl⟩
    · simp only [if_neg lost]
      exact ⟨asked.ownReplies, .inr (asked.clear (by simp))⟩
  · simp only [askOnce, performed, within]
    exact ⟨asked.ownReplies, .inr (asked.clear (by simp))⟩

theorem step_inStep (call : Call) (inStep : pool.InStep) (careful : Careful network pool call) :
    (pool.step network call).InStep := by
  have after : (call.after network pool).InStep := by
    cases call with
    | attempt op => exact attempt_inStep network op inStep careful
    | run op => exact attempt_inStep network op inStep careful
    | runRaw op => exact attempt_inStep network op inStep careful
    | runRawListing op => exact attempt_inStep network op inStep careful
    | askOnce op => exact askOnce_inStep network op inStep.ownReplies careful
  exact ⟨after.ownReplies, after.clear⟩

theorem steps_inStep (calls : List Call) (inStep : pool.InStep)
    (careful : CarefulCalls network pool calls) : (pool.steps network calls).InStep := by
  induction calls generalizing pool with
  | nil => exact inStep
  | cons call calls ih => exact ih (step_inStep network call inStep careful.1) careful.2

end Steps

/-- However commands fare, an operation reads replies to its own commands only, where every call is
careful. -/
theorem ownReplies_of_careful (network : Network) (calls : List Call)
    (careful : CarefulCalls network .new calls) : (Pool.new.steps network calls).OwnReplies :=
  (steps_inStep network calls ⟨by simp [Pool.OwnReplies, Pool.new], .inr (.inr rfl)⟩ careful).ownReplies

/-- One command, and what its reply is read as. -/
def Operation.single (command : ControlCommand) : Operation command.Reply :=
  .tell command .finish

/-- The server removes a file and refuses everything else. -/
def sampleRead : Nat → (command : ControlCommand) → FtpResult command.Reply
  | 0, .file (.dele _) => .ok ()
  | 0, .file (.cwd _) => .ok ()
  | _, .file (.dele _) => .error (.unexpected 550 "Not found")
  | _, .file (.cwd _) => .error (.unexpected 550 "Not found")
  | _, _ => .error (.unexpected 502 "Not implemented")

/-- The first commands time out, after which every command is answered. -/
def sampleNetwork (late : Nat) (opens : Nat → Option ProtocolError) : Network where
  turn number := if number < late then .late true else .answered
  read := sampleRead
  opens := opens
  broken := "broken pipe"

def removeSample : Operation Unit := .single (.file (.dele "/a"))

def enterSample : Operation Unit := .single (.file (.cwd "/b"))

def featSample : Operation (Nat × String) := .single .feat

/-- A question without an answer in time: the next operation has a new main connection. -/
theorem ownReplies_of_careful_question :
    (Pool.new.steps (sampleNetwork 1 fun _ => none)
      [.askOnce featSample, .run removeSample, .run enterSample]).OwnReplies := by
  apply ownReplies_of_careful
  have question : Careful (sampleNetwork 1 fun _ => none) .new (.askOnce featSample) := .inr rfl
  refine ⟨question, ?_, ?_, trivial⟩
  · intro _ lost
    cases lost
  · intro _ lost
    cases lost

/-- A removal times out.  The login that would replace the main connection fails, or the repeated
removal times out as well, or the main connection is marked and a question is asked on it. -/
theorem not_ownReplies_abandoned :
    ¬ (Pool.new.steps (sampleNetwork 1 fun _ => some ⟨.connect, "refused"⟩)
        [.run removeSample, .run enterSample]).OwnReplies ∧
      ¬ (Pool.new.steps (sampleNetwork 2 fun _ => none)
        [.run removeSample, .run enterSample]).OwnReplies ∧
      ¬ (Pool.new.steps (sampleNetwork 1 fun _ => none)
        [.askOnce featSample, .askOnce enterSample]).OwnReplies := by
  refine ⟨?_, ?_, ?_⟩ <;> decide

-- The folder is entered with the reply to the removal, while the server refuses it.
example :
    let network := sampleNetwork 1 fun _ => some ⟨.connect, "refused"⟩
    let pool := Pool.new.step network (.run removeSample)
    (run network enterSample pool).1 = .ok () ∧
      network.read pool.sent (.file (.cwd "/b")) = .error (.unexpected 550 "Not found") :=
  ⟨rfl, rfl⟩

end Porthmos.FtpPool
