import Mathlib.Data.List.Infix
import Porthmos.FileSystem
import Porthmos.Requests
import Porthmos.Vfs

/-!
# The file system over FTP

Every operation is a program of commands on a control connection.  A command that loses the main
connection is sent once more on a new one, and what it means that it had been carried out already
is decided by looking.
-/

namespace Porthmos

/-- The command lines that operations send.  Those without a path that the client library adds (a
login, the passive mode) are left out. -/
inductive FtpCommand
  | mlsd (path : String)
  | list (path : String)
  | mlst (path : String)
  | size (path : String)
  | mdtm (path : String)
  | pwd
  | cwd (path : String)
  | mkd (path : String)
  | dele (path : String)
  | rmd (path : String)
  | rnfr (path : String)
  | rnto (path : String)
  | mfmt (stamp path : String)
  | rest (offset : Nat)
  | retr (path : String)
  | stor (path : String)
  | appe (path : String)
  | noop
  deriving DecidableEq, Repr

namespace FtpCommand

/-- The text of the line. -/
def text : FtpCommand → String
  | .mlsd path => "MLSD " ++ path
  | .list path => "LIST " ++ path
  | .mlst path => "MLST " ++ path
  | .size path => "SIZE " ++ path
  | .mdtm path => "MDTM " ++ path
  | .pwd => "PWD"
  | .cwd path => "CWD " ++ path
  | .mkd path => "MKD " ++ path
  | .dele path => "DELE " ++ path
  | .rmd path => "RMD " ++ path
  | .rnfr path => "RNFR " ++ path
  | .rnto path => "RNTO " ++ path
  | .mfmt stamp path => "MFMT " ++ stamp ++ " " ++ path
  | .rest offset => "REST " ++ offset.repr
  | .retr path => "RETR " ++ path
  | .stor path => "STOR " ++ path
  | .appe path => "APPE " ++ path
  | .noop => "NOOP"

/-- What the client library makes of a reply that is no error. -/
def Reply : FtpCommand → Type
  | .mlsd _ => List String
  | .list _ => List String
  | .mlst _ => String
  | .size _ => Nat
  | .mdtm _ => Option Nat
  | .pwd => String
  | _ => Unit

end FtpCommand

/-- `FtpError`, with the text that it shows.  The text of a reply has no white space around it. -/
inductive FtpError
  | connection (message : String)
  | badResponse (message : String)
  | secure (message : String)
  | unexpected (code : Nat) (text : String)
  | other (message : String)
  deriving DecidableEq, Repr

abbrev FtpResult := Except FtpError

inductive FtpRequest : Type → Type
  | command (command : FtpCommand) : FtpRequest (FtpResult command.Reply)
  /-- The main connection, logged in anew if it is out of step. -/
  | main : FtpRequest Unit
  /-- `open_logged_in` in place of a lost main connection. -/
  | reconnect : FtpRequest Unit
  /-- A connection for a transfer. -/
  | borrow : FtpRequest Unit
  | supportsMlst : FtpRequest Bool
  | markMlstMissing : FtpRequest Unit
  | now : FtpRequest Nat

abbrev FtpProgram := Program FtpRequest ProtocolError

structure ListedItem where
  name : String
  metadata : Metadata
  linkTarget : Option String
  deriving DecidableEq, Repr

/-- How the lines of listings are read. -/
structure FtpListing where
  parseMlsdLine : String → Option ListedItem
  parseListLine : String → Nat → Option ListedItem
  parseMlstFacts : String → Option Metadata

structure FtpFs where
  listing : FtpListing
  home : Path
  mfmt : Bool
  /-- The year of a moment, and its stamp. -/
  moment : Nat → Option (Int × String)

inductive SimpleCommand
  | makeDir
  | removeFile
  | removeDir
  deriving DecidableEq, Repr

/-- `Attempt`: what came of a command, and whether it was sent twice. -/
structure FtpAttempt (α : Type) where
  result : FtpResult α
  replayed : Bool

/-- `path_to_remote_string` -/
def Path.toRemote (path : Path) : String := path.text

def joinRemote (parent name : String) : String :=
  if parent.endsWith "/" then parent ++ name else parent ++ "/" ++ name

namespace FtpError

def isConnectionLost : FtpError → Bool
  | .connection _ => true
  | .badResponse _ => true
  | .secure _ => true
  | .unexpected code _ => code = 421 ∨ code = 221
  | .other _ => false

def isNotImplemented : FtpError → Bool
  | .unexpected code _ => code = 500 ∨ code = 502 ∨ code = 504
  | _ => false

def isUnavailable : FtpError → Bool
  | .unexpected code _ => code = 550
  | _ => false

def sessionReuse : String := "the server requires TLS session reuse on data connections"

def contains (text part : String) : Bool := decide (part.toList <:+: text.toList)

def isMissing (text : String) : Bool :=
  ["no such", "not found", "doesn't exist", "does not exist"].any (contains text)

/-- The kind of `reply_error`, for the text in lower case. -/
def replyKind (code : Nat) (lower : String) : ErrorKind :=
  if code = 550 ∧ isMissing lower then .notFound
  else if code = 553 then .permissionDenied
  else if code = 550 ∧ (contains lower "permission" ∨ contains lower "denied") then
    .permissionDenied
  else .other

def replyError (code : Nat) (text : String) : ProtocolError :=
  let lower := text.toLower
  let kind := replyKind code lower
  if code = 522 ∧ contains lower "reuse" then
    ⟨kind, code.repr ++ " " ++ text ++ " (" ++ sessionReuse ++ ")"⟩
  else ⟨kind, code.repr ++ " " ++ text⟩

/-- `ftp_error` -/
def toProtocol : FtpError → ProtocolError
  | .unexpected code text => replyError code text
  | .connection message => ⟨.other, message⟩
  | .badResponse message => ⟨.other, message⟩
  | .secure message => ⟨.other, message⟩
  | .other message => ⟨.other, message⟩

def isBadResponse : FtpError → Bool
  | .badResponse _ => true
  | _ => false

end FtpError

namespace FtpFs

open Program

variable {α β : Type}

/-- One command of an operation on a connection; an error ends the operation. -/
def tell (command : FtpCommand) : FtpProgram (FtpResult command.Reply) := send (.command command)

def thenOk (first : FtpProgram (FtpResult α)) (next : α → FtpProgram (FtpResult β)) :
    FtpProgram (FtpResult β) := do
  match ← first with
  | .ok value => next value
  | .error err => pure (.error err)

/-- `map_err(ftp_error)?` -/
def orFail : FtpResult α → FtpProgram α
  | .ok value => pure value
  | .error err => fail err.toProtocol

/-- The operation once more, on a new connection. -/
def replay (op : FtpProgram (FtpResult α)) : FtpProgram (FtpAttempt α) := do
  send .reconnect
  let result ← op
  pure ⟨result, true⟩

/-- `Pool::attempt` -/
def attempt (op : FtpProgram (FtpResult α)) : FtpProgram (FtpAttempt α) := do
  send .main
  match ← op with
  | .ok value => pure ⟨.ok value, false⟩
  | .error err =>
    if err.isBadResponse then
      match ← tell .noop with
      | .ok _ => pure ⟨.error err, false⟩
      | .error _ => replay op
    else if err.isConnectionLost then replay op
    else pure ⟨.error err, false⟩

/-- `Pool::run_raw`, and `run_raw_listing` with its longer limit. -/
def runRaw (op : FtpProgram (FtpResult α)) : FtpProgram (FtpResult α) := do
  let attempt ← attempt op
  pure attempt.result

/-- `Pool::run` -/
def run (op : FtpProgram (FtpResult α)) : FtpProgram α := do orFail (← runRaw op)

def notFound (path : String) : ProtocolError :=
  ⟨.notFound, "No such file or directory: " ++ path⟩

section Reading

variable (fs : FtpFs)

def mlsd (path : String) : FtpProgram (Option (List ListedItem)) := do
  match ← runRaw (tell (.mlsd path)) with
  | .ok lines =>
    let lines : List String := lines
    pure (some (lines.filterMap fs.listing.parseMlsdLine))
  | .error err =>
    if err.isNotImplemented then
      send .markMlstMissing
      pure none
    else fail err.toProtocol

/-- The items of a `LIST`. -/
def listItems (path : String) : FtpProgram (List ListedItem) := do
  let now ← send .now
  let lines : List String ← run (tell (.list path))
  pure (lines.filterMap fun line => fs.listing.parseListLine line now)

def items (dir : Path) : FtpProgram (List ListedItem) := do
  let path := dir.toRemote
  if ← send .supportsMlst then
    match ← fs.mlsd path with
    | some items => pure items
    | none => fs.listItems path
  else fs.listItems path

/-- The commands of `is_directory`. -/
def enters (path : String) : FtpProgram (FtpResult Bool) :=
  thenOk (tell .pwd) fun (previous : String) => do
    match ← tell (.cwd path) with
    | .ok _ => thenOk (tell (.cwd previous)) fun _ => pure (.ok true)
    | .error _ => pure (.ok false)

def isDirectory (path : String) : FtpProgram Bool := run (enters path)

def mlst (path : String) : FtpProgram (Option Metadata) := do
  match ← runRaw (tell (.mlst path)) with
  | .ok line =>
    match fs.listing.parseMlstFacts line with
    | some metadata => pure (some metadata)
    | none => fail (notFound path)
  | .error err =>
    if err.isNotImplemented then
      send .markMlstMissing
      pure none
    else if err.isUnavailable then fail (notFound path)
    else fail err.toProtocol

/-- `stat_remote` without `MLST`. -/
def statBySize (path : String) : FtpProgram Metadata := do
  match ← runRaw (tell (.size path)) with
  | .ok size =>
    let time ← runRaw (tell (.mdtm path))
    let modified : Option Nat := match time with
      | .ok moment => moment
      | .error _ => none
    pure ⟨size, modified, .file⟩
  | .error _ =>
    if ← isDirectory path then pure ⟨0, none, .dir⟩ else fail (notFound path)

def statRemote (path : String) : FtpProgram Metadata := do
  if ← send .supportsMlst then
    match ← fs.mlst path with
    | some metadata => pure metadata
    | none => statBySize path
  else statBySize path

def «exists» (path : String) : FtpProgram Bool := do
  match ← (fs.statRemote path).attempt with
  | .ok _ => pure true
  | .error err => if err.kind = .notFound then pure false else fail err

end Reading

section Changing

variable (fs : FtpFs)

def simpleOp (path : String) : SimpleCommand → FtpProgram (FtpResult Unit)
  | .makeDir => tell (.mkd path)
  | .removeFile => tell (.dele path)
  | .removeDir => tell (.rmd path)

def alreadyDone (command : SimpleCommand) (existsNow : Bool) : Bool :=
  match command with
  | .makeDir => existsNow
  | .removeFile => !existsNow
  | .removeDir => !existsNow

def simpleRaw (path : String) (command : SimpleCommand) : FtpProgram (FtpResult Unit) := do
  let attempt ← attempt (simpleOp path command)
  match attempt.result with
  | .ok () => pure (.ok ())
  | .error err =>
    if attempt.replayed && err.isUnavailable then do
      let existsNow ← fs.exists path
      pure (if alreadyDone command existsNow then .ok () else .error err)
    else pure (.error err)

def simple (path : String) (command : SimpleCommand) : FtpProgram Unit := do
  orFail (← fs.simpleRaw path command)

/-- `rename` of the client library. -/
def renameOp (source target : String) : FtpProgram (FtpResult Unit) :=
  thenOk (tell (.rnfr source)) fun _ => tell (.rnto target)

/-- A renaming that was sent twice has succeeded if only its target exists. -/
def renamed (source target : String) : FtpProgram Bool := do
  if ← fs.exists source then pure false else fs.exists target

def renameRaw (source target : String) : FtpProgram (FtpResult Unit) := do
  let attempt ← attempt (renameOp source target)
  match attempt.result with
  | .ok () => pure (.ok ())
  | .error err =>
    if attempt.replayed then do
      let isRenamed ← fs.renamed source target
      pure (if isRenamed then .ok () else .error err)
    else pure (.error err)

def backupOf (target : String) : String := target ++ ".bak"

/-- Whether a refused renaming may be tried by way of a backup. -/
def mayBackUp (source target : String) : FtpProgram Bool := do
  if ← fs.exists source then
    if ← fs.exists target then
      let backedUp ← fs.exists (backupOf target)
      pure (!backedUp)
    else pure false
  else pure false

/-- The three steps of an overwriting renaming. -/
def renameByBackup (source target : String) : FtpProgram Unit := do
  orFail (← fs.renameRaw target (backupOf target))
  match ← fs.renameRaw source target with
  | .ok () =>
    let _ ← (fs.simple (backupOf target) .removeFile).attempt
    pure ()
  | .error err =>
    let _ ← (fs.renameRaw (backupOf target) target).attempt
    fail err.toProtocol

def renameRemote (source target : String) : FtpProgram Unit := do
  match ← fs.renameRaw source target with
  | .ok () => pure ()
  | .error refused =>
    if ← fs.mayBackUp source target then fs.renameByBackup source target
    else fail refused.toProtocol

def readDir (dir : Path) : FtpProgram (List DirItem) := do
  let items ← fs.items dir
  pure (items.map fun item =>
    ⟨item.name, ⟨joinRemote dir.toRemote item.name⟩, item.metadata⟩)

/-- `remove_path`, where a folder is deleted by `deleteTree`. -/
def removePathBy (deleteTree : String → FtpProgram Unit) (path : String) : FtpProgram Unit := do
  match ← fs.simpleRaw path .removeFile with
  | .ok () => pure ()
  | .error refused =>
    if refused.isConnectionLost then fail refused.toProtocol
    else if ← isDirectory path then deleteTree path
    else fail refused.toProtocol

/-- `delete_tree`, as far as the fuel goes. -/
def deleteTree : Nat → String → FtpProgram Unit
  | 0, _ => fail ⟨.other, "out of fuel"⟩
  | fuel + 1, path => do
      let children ← fs.readDir ⟨path⟩
      forEach (fun child : DirItem =>
        if child.metadata.kind = .file then fs.simple child.path.toRemote .removeFile
        else fs.removePathBy (deleteTree fuel) child.path.toRemote) children
      fs.simple path .removeDir

def removePath (fuel : Nat) (path : String) : FtpProgram Unit :=
  fs.removePathBy (fs.deleteTree fuel) path

end Changing

section Operations

variable (fs : FtpFs)

/-- One entry of a listing. -/
def entryOf (parent : String) (item : ListedItem) : FtpProgram Entry := do
  let path := joinRemote parent item.name
  let isDir ← match item.metadata.kind with
    | .dir => pure true
    | .symlink => isDirectory path
    | .file => pure false
  pure ⟨item.name, ⟨path⟩, isDir, item.metadata.size⟩

/-- The loop of `list`. -/
def entriesOf (parent : String) : List ListedItem → FtpProgram (List Entry)
  | [] => pure []
  | item :: items => do
      let entry ← entryOf parent item
      let entries ← entriesOf parent items
      pure (entry :: entries)

def list (dir : Path) : FtpProgram (List Entry) := do
  let items ← fs.items dir
  entriesOf dir.toRemote items

def stat (path : Path) : FtpProgram Metadata := fs.statRemote path.toRemote

def createDir (path : Path) : FtpProgram Unit := fs.simple path.toRemote .makeDir

def rename (source target : Path) : FtpProgram Unit :=
  fs.renameRemote source.toRemote target.toRemote

def removeFile (path : Path) : FtpProgram Unit := fs.simple path.toRemote .removeFile

def delete (fuel : Nat) (path : Path) : FtpProgram Unit := fs.removePath fuel path.toRemote

def lastMfmtYear : Int := 9999

def mfmtStamp (seconds : Nat) : Option String :=
  match fs.moment seconds with
  | some (year, stamp) => if year ≤ lastMfmtYear then some stamp else none
  | none => none

def setModified (path : Path) (seconds : Nat) : FtpProgram Unit :=
  if fs.mfmt then
    match fs.mfmtStamp seconds with
    | some stamp => do
        let _ ← run (tell (.mfmt stamp path.toRemote))
        pure ()
    | none => fail ⟨.other, "a modification time of " ++ seconds.repr ++
        " seconds is beyond year 9999, which FTP can't express"⟩
  else fail ⟨.unsupported, "this server doesn't support setting modification times (MFMT)"⟩

/-- Up to the start of the transfer. -/
def openRead (path : Path) (offset : Nat) : FtpProgram Unit := do
  send .borrow
  if offset > 0 then
    let _ ← orFail (← tell (.rest offset))
    let _ ← orFail (← tell (.retr path.toRemote))
    pure ()
  else
    let _ ← orFail (← tell (.retr path.toRemote))
    pure ()

inductive WriteStart
  | restartStore
  | append
  | store
  deriving DecidableEq, Repr

def WriteStart.offset : WriteStart → Nat → Nat
  | .restartStore, requested => requested
  | .append, requested => requested
  | .store, _ => 0

def firstWriteStart (offset : Nat) : WriteStart := if offset = 0 then .store else .restartStore

def fallback : WriteStart → Option WriteStart
  | .restartStore => some .append
  | .append => some .store
  | .store => none

def startOp (path : String) (offset : Nat) : WriteStart → FtpProgram (FtpResult Unit)
  | .store => tell (.stor path)
  | .append => tell (.appe path)
  | .restartStore => thenOk (tell (.rest offset)) fun _ => tell (.stor path)

/-- The loop of `open_write` from one start on; at most three starts are tried. -/
def openWriteFrom (path : String) (offset : Nat) : Nat → WriteStart → FtpProgram Nat
  | 0, _ => fail ⟨.other, "out of fuel"⟩
  | fuel + 1, start => do
      match ← startOp path offset start with
      | .ok _ => pure (start.offset offset)
      | .error err =>
        if err.isConnectionLost then fail err.toProtocol
        else
          match fallback start with
          | some next => openWriteFrom path offset fuel next
          | none => fail err.toProtocol

/-- `open_write` up to the start of the transfer, with the offset of the writer. -/
def openWrite (path : Path) (offset : Nat) : FtpProgram Nat := do
  send .borrow
  openWriteFrom path.toRemote offset 3 (firstWriteStart offset)

end Operations

end FtpFs

end Porthmos
