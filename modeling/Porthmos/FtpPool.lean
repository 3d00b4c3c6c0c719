import Porthmos.FtpFs

/-!
# Replies on the main connection

A command that times out leaves its reply on the connection, where the next command would take it
for its own.  A main connection that may hold such a reply is replaced by a new one, or marked so
that the next operation replaces it; a replacement that fails, a repeated operation that times out
and a question on a marked connection are the ways in which that does not happen.
-/

namespace Porthmos.FtpPool

/-- The commands of operations: those of the file system, and the question for features. -/
inductive ControlCommand
  | file (command : FtpCommand)
  | feat
  deriving DecidableEq, Repr

/-- A reply to `FEAT` is taken with its status, whatever it is. -/
def ControlCommand.Reply : ControlCommand → Type
  | .file command => command.Reply
  | .feat => Nat × String

/-- An operation on a connection: commands, each chosen after the reply to the one before. -/
inductive Operation (α : Type)
  | finish (result : FtpResult α)
  | tell (command : ControlCommand) (next : FtpResult command.Reply → Operation α)

/-- A command as it went out: the call that sent it, and its number among all commands. -/
structure Sent where
  call : Nat
  number : Nat
  deriving DecidableEq, Repr

/-- A reply that was read: for which command, and which command it answers. -/
structure Exchange where
  asked : Sent
  answered : Sent
  deriving DecidableEq, Repr

/-- How a command fares.  One that times out may have reached the server before, and then its reply
stays unread on the connection. -/
inductive Turn
  | answered
  | late (reached : Bool)
  | broken
  deriving DecidableEq, Repr

/-- The server and the way to it. -/
structure Network where
  /-- What becomes of each command, by its number. -/
  turn : Nat → Turn
  /-- The reply to the command of a number, read as the reply to a command. -/
  read : Nat → (command : ControlCommand) → FtpResult command.Reply
  /-- What each login comes to, by its number. -/
  opens : Nat → Option ProtocolError
  /-- What is said of a broken connection. -/
  broken : String

structure Connection where
  unread : List Sent
  broken : Bool
  deriving DecidableEq, Repr

/-- A connection after the login. -/
def Connection.fresh : Connection := ⟨[], false⟩

/-- `Pool`, with what was sent and read on its main connections. -/
structure Pool where
  main : Connection
  mainOutOfStep : Bool
  calls : Nat
  sent : Nat
  logins : Nat
  taken : List Exchange
  deriving DecidableEq, Repr

/-- `Pool::new` -/
def Pool.new : Pool := ⟨.fresh, false, 0, 0, 0, []⟩

/-- `timed_out` -/
def timedOut : FtpError := .connection "timed out waiting for the server"

/-- `within`, where nothing stands for an operation that was cut off. -/
def within {α : Type} : Option (FtpResult α) → FtpResult α
  | some result => result
  | none => .error timedOut

section Calls

variable {α : Type} (network : Network)

/-- The client library sends a command and reads the next reply.  Nothing is given back where no
reply comes in time. -/
def tell (command : ControlCommand) (pool : Pool) : Option (FtpResult command.Reply) × Pool :=
  let own : Sent := ⟨pool.calls, pool.sent⟩
  let waiting := pool.main.unread ++ [own]
  let next := pool.main.unread.headD own
  if pool.main.broken then
    (some (.error (.connection network.broken)), { pool with sent := pool.sent + 1 })
  else match network.turn pool.sent with
    | .answered =>
      (some (network.read next.number command),
        { pool with
          main := ⟨waiting.tail, false⟩
          sent := pool.sent + 1
          taken := pool.taken ++ [⟨own, next⟩] })
    | .late reached =>
      (none,
        { pool with
          main := ⟨if reached then waiting else pool.main.unread, false⟩
          sent := pool.sent + 1 })
    | .broken =>
      (some (.error (.connection network.broken)),
        { pool with main := ⟨pool.main.unread, true⟩, sent := pool.sent + 1 })

/-- An operation on the main connection, cut off at the first command that times out. -/
def perform : Operation α → Pool → Option (FtpResult α) × Pool
  | .finish result, pool => (some result, pool)
  | .tell command next, pool =>
    match tell network command pool with
    | (some reply, pool) => perform (next reply) pool
    | (none, pool) => (none, pool)

/-- `open_logged_in` in place of the main connection. -/
def reopen (pool : Pool) : Option ProtocolError × Pool :=
  match network.opens pool.logins with
  | some err => (some err, { pool with logins := pool.logins + 1 })
  | none => (none, { pool with main := .fresh, logins := pool.logins + 1 })

/-- The beginning of `attempt`: a marked main connection is replaced. -/
def enter (pool : Pool) : Option ProtocolError × Pool :=
  if pool.mainOutOfStep then
    match reopen network pool with
    | (some err, pool) => (some err, pool)
    | (none, pool) => (none, { pool with mainOutOfStep := false })
  else (none, pool)

/-- The operation on the connection as it is, with the probe after a bad response; nothing where
the connection counts as lost. -/
def tryOnce (op : Operation α) (pool : Pool) : Option (FtpResult α) × Pool :=
  let first := perform network op pool
  match within first.1 with
  | .ok value => (some (.ok value), first.2)
  | .error err =>
    if err.isBadResponse then
      let probe := tell network (.file .noop) first.2
      match within probe.1 with
      | .ok _ => (some (.error err), probe.2)
      | .error _ => (none, probe.2)
    else if err.isConnectionLost then (none, first.2)
    else (some (.error err), first.2)

/-- The operation once more, on a new main connection. -/
def replay (op : Operation α) (pool : Pool) : Except ProtocolError (FtpAttempt α) × Pool :=
  match reopen network pool with
  | (some err, pool) => (.error err, pool)
  | (none, pool) =>
    let again := perform network op pool
    (.ok ⟨within again.1, true⟩, again.2)

/-- `Pool::attempt` -/
def attempt (op : Operation α) (pool : Pool) : Except ProtocolError (FtpAttempt α) × Pool :=
  match enter network pool with
  | (some err, pool) => (.error err, pool)
  | (none, pool) =>
    match tryOnce network op pool with
    | (some result, pool) => (.ok ⟨result, false⟩, pool)
    | (none, pool) => replay network op pool

/-- `Pool::ask_once` -/
def askOnce (op : Operation α) (pool : Pool) : Option α × Pool :=
  let asked := perform network op pool
  match within asked.1 with
  | .ok value => (some value, asked.2)
  | .error err =>
    (none,
      if err.isConnectionLost then { asked.2 with mainOutOfStep := true } else asked.2)

/-- `Pool::run_raw`, and `run_raw_listing` with its longer limit. -/
def runRaw (op : Operation α) (pool : Pool) : Except ProtocolError (FtpResult α) × Pool :=
  let attempted := attempt network op pool
  (attempted.1.map FtpAttempt.result, attempted.2)

/-- `Pool::run` -/
def run (op : Operation α) (pool : Pool) : Except ProtocolError α × Pool :=
  let attempted := runRaw network op pool
  (attempted.1.bind fun result => result.mapError FtpError.toProtocol, attempted.2)

end Calls

/-- A use of the main connection. -/
inductive Call : Type 1
  | attempt {α : Type} (op : Operation α)
  | run {α : Type} (op : Operation α)
  | runRaw {α : Type} (op : Operation α)
  | runRawListing {α : Type} (op : Operation α)
  | askOnce {α : Type} (op : Operation α)

/-- The pool after a call, its result left aside. -/
def Call.after (network : Network) (pool : Pool) : Call → Pool
  | .attempt op => (FtpPool.attempt network op pool).2
  | .run op => (FtpPool.run network op pool).2
  | .runRaw op => (FtpPool.runRaw network op pool).2
  | .runRawListing op => (FtpPool.runRaw network op pool).2
  | .askOnce op => (FtpPool.askOnce network op pool).2

/-- The next call. -/
def Pool.step (network : Network) (pool : Pool) (call : Call) : Pool :=
  let after := call.after network pool
  { after with calls := after.calls + 1 }

def Pool.steps (network : Network) (pool : Pool) (calls : List Call) : Pool :=
  calls.foldl (Pool.step network) pool

/-- Every reply that was read answers a command of the call that read it. -/
def Pool.OwnReplies (pool : Pool) : Prop :=
  ∀ exchange ∈ pool.taken, exchange.answered.call = exchange.asked.call

instance (pool : Pool) : Decidable pool.OwnReplies :=
  inferInstanceAs (Decidable (∀ exchange ∈ pool.taken, _))

end Porthmos.FtpPool
