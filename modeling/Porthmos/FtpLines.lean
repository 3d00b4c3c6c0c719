import Porthmos.FtpFs
import Porthmos.Lines
import Porthmos.RequestRuns

/-!
# Lines on the control connection

The client library sends the text of a command and ends the line.  What the server reads are the
commands that were meant as long as no path has a line break in it, and no operation looks for one.
-/

namespace Porthmos

open Lines

/-- An operation of the file system with what it is given. -/
inductive FtpOperation
  | list (dir : Path)
  | readDir (dir : Path)
  | stat (path : Path)
  | createDir (path : Path)
  | removeFile (path : Path)
  | delete (path : Path) (fuel : Nat)
  | rename (source target : Path)
  | setModified (path : Path) (seconds : Nat)
  | openRead (path : Path) (offset : Nat)
  | openWrite (path : Path) (offset : Nat)
  deriving DecidableEq, Repr

namespace FtpOperation

/-- The commands of an operation, whatever it makes of the replies in the end. -/
def program (fs : FtpFs) : FtpOperation → FtpProgram Unit
  | .list dir => do let _ ← fs.list dir
  | .readDir dir => do let _ ← fs.readDir dir
  | .stat path => do let _ ← fs.stat path
  | .createDir path => fs.createDir path
  | .removeFile path => fs.removeFile path
  | .delete path fuel => fs.delete fuel path
  | .rename source target => fs.rename source target
  | .setModified path seconds => fs.setModified path seconds
  | .openRead path offset => FtpFs.openRead path offset
  | .openWrite path offset => do let _ ← FtpFs.openWrite path offset

def paths : FtpOperation → List Path
  | .list dir => [dir]
  | .readDir dir => [dir]
  | .stat path => [path]
  | .createDir path => [path]
  | .removeFile path => [path]
  | .delete path _ => [path]
  | .rename source target => [source, target]
  | .setModified path _ => [path]
  | .openRead path _ => [path]
  | .openWrite path _ => [path]

/-- Nothing is sent: the time cannot be set on this server, or not to this moment. -/
def Refused (fs : FtpFs) : FtpOperation → Prop
  | .setModified _ seconds => fs.mfmt = false ∨ fs.mfmtStamp seconds = none
  | _ => False

end FtpOperation

/-- A path is one line. -/
def Path.OneLine (path : Path) : Prop := NoBreak path.toRemote.toList

instance (path : Path) : Decidable path.OneLine := inferInstanceAs (Decidable (NoBreak _))

namespace FtpCommand

def line (command : FtpCommand) : List Char := command.text.toList

/-- What follows the name of the command. -/
@[simp]
def arguments : FtpCommand → List String
  | .mlsd path => [path]
  | .list path => [path]
  | .mlst path => [path]
  | .size path => [path]
  | .mdtm path => [path]
  | .pwd => []
  | .cwd path => [path]
  | .mkd path => [path]
  | .dele path => [path]
  | .rmd path => [path]
  | .rnfr path => [path]
  | .rnto path => [path]
  | .mfmt stamp path => [stamp, path]
  | .rest offset => [offset.repr]
  | .retr path => [path]
  | .stor path => [path]
  | .appe path => [path]
  | .noop => []

theorem noBreak_line (command : FtpCommand) :
    NoBreak command.line ↔ ∀ argument ∈ command.arguments, NoBreak argument.toList := by
  cases command <;> simp [line, text, noBreak_nil, noBreak_append, noBreak_cons, IsBreak]

end FtpCommand

namespace FtpRequest

variable (fs : FtpFs)

/-- Nothing in the reply that is sent back has a line break: the names that are listed and the
folder to return to. -/
def Plain : Program.Fits FtpRequest
  | _, .command (.mlsd _), answer => ∀ lines : List String, answer = .ok lines → ∀ line ∈ lines,
      ∀ item, fs.listing.parseMlsdLine line = some item → NoBreak item.name.toList
  | _, .command (.list _), answer => ∀ lines : List String, answer = .ok lines → ∀ line ∈ lines,
      ∀ now item, fs.listing.parseListLine line now = some item → NoBreak item.name.toList
  | _, .command .pwd, answer => ∀ dir : String, answer = .ok dir → NoBreak dir.toList
  | _, _, _ => True

/-- The command that is sent, if the request is one. -/
def sent : {β : Type} → FtpRequest β → List FtpCommand
  | _, .command meant => [meant]
  | _, _ => []

def OneLine {β : Type} (asked : FtpRequest β) : Prop :=
  ∀ command ∈ asked.sent, NoBreak command.line

end FtpRequest

/-- The control connection with all that was sent on it.  The server answers as it likes. -/
def controlConnection (fs : FtpFs) : Program.Service (List FtpCommand) FtpRequest ProtocolError :=
  fun _ before asked answer after =>
    after = before ++ asked.sent ∧ ∀ value, answer = .ok value → asked.Plain fs value

/-- The server reads the commands that were sent, one a line. -/
def ReadAsSent (commands : List FtpCommand) : Prop :=
  read (sendAll (commands.map FtpCommand.line)) = commands.map FtpCommand.line

instance (commands : List FtpCommand) : Decidable (ReadAsSent commands) :=
  inferInstanceAs (Decidable (_ = _))

theorem readAsSent_iff (commands : List FtpCommand) :
    ReadAsSent commands ↔ ∀ command ∈ commands, NoBreak command.line := by
  unfold ReadAsSent
  rw [read_sendAll_iff]
  simp

namespace FtpFs

open Program

variable {α β : Type} {fs : FtpFs}

/-- All commands are of one line each. -/
def Sends (fs : FtpFs) (known : α → Prop) (program : FtpProgram α) : Prop :=
  program.Meets FtpRequest.OneLine (FtpRequest.Plain fs) (onOk known)

/-- What is known of the value of a reply that is no error. -/
def Brings (known : α → Prop) (result : FtpResult α) : Prop :=
  ∀ value, result = .ok value → known value

/-- Nothing is known. -/
abbrev Anything (_ : α) : Prop := True

theorem sends_pure {known : α → Prop} {value : α} (isKnown : known value) :
    Sends fs known (pure value) := isKnown

theorem sends_fail {known : α → Prop} {err : ProtocolError} : Sends fs known (fail err) := trivial

theorem Sends.bind {before : α → Prop} {known : β → Prop} {program : FtpProgram α}
    {next : α → FtpProgram β} (first : Sends fs before program)
    (rest : ∀ value, before value → Sends fs known (next value)) :
    Sends fs known (program >>= next) := Meets.andThen first rest

theorem Sends.mono {first second : α → Prop} {program : FtpProgram α}
    (sends : Sends fs first program) (weaker : ∀ value, first value → second value) :
    Sends fs second program := by
  apply Meets.mono sends
  intro result isFirst
  cases result with
  | ok value => exact weaker value isFirst
  | error err => trivial

theorem Sends.attempt {known : α → Prop} {program : FtpProgram α} (sends : Sends fs known program) :
    Sends fs Anything program.attempt := by
  apply (Meets.attempt sends).mono
  intro result _
  cases result <;> trivial

theorem sends_silent {asked : FtpRequest α} (silent : asked.sent = []) :
    Sends fs Anything (send asked) := by
  have sends : Sends fs (FtpRequest.Plain fs asked) (send asked) := by
    apply meets_send
    intro other member
    rw [silent] at member
    cases member
  apply sends.mono
  intro _ _
  trivial

theorem sends_tell (command : FtpCommand)
    (clean : ∀ argument ∈ command.arguments, NoBreak argument.toList) :
    Sends fs (FtpRequest.Plain fs (.command command)) (tell command) := by
  apply meets_send
  intro other member
  rw [List.mem_singleton.mp member]
  exact (FtpCommand.noBreak_line command).mpr clean

theorem sends_tell_only (command : FtpCommand)
    (clean : ∀ argument ∈ command.arguments, NoBreak argument.toList) :
    Sends fs (Brings Anything) (tell command) := by
  apply (sends_tell command clean).mono
  intro _ _ _ _
  trivial

theorem sends_orFail {known : α → Prop} {result : FtpResult α} (brings : Brings known result) :
    Sends fs known (orFail result) := by
  cases result with
  | ok value => exact sends_pure (brings value rfl)
  | error err => exact sends_fail

theorem sends_thenOk {before : α → Prop} {known : β → Prop} {first : FtpProgram (FtpResult α)}
    {next : α → FtpProgram (FtpResult β)} (sends : Sends fs (Brings before) first)
    (rest : ∀ value, before value → Sends fs (Brings known) (next value)) :
    Sends fs (Brings known) (thenOk first next) := by
  apply sends.bind
  intro result brings
  cases result with
  | ok value => exact rest value (brings value rfl)
  | error err => exact sends_pure (by rintro _ ⟨⟩)

theorem sends_replay {known : α → Prop} {op : FtpProgram (FtpResult α)}
    (sends : Sends fs (Brings known) op) :
    Sends fs (fun tried => Brings known tried.result) (replay op) := by
  apply (sends_silent rfl).bind
  intro _ _
  apply sends.bind
  intro result brings
  exact sends_pure brings

theorem sends_attempt {known : α → Prop} {op : FtpProgram (FtpResult α)}
    (sends : Sends fs (Brings known) op) :
    Sends fs (fun tried => Brings known tried.result) (FtpFs.attempt op) := by
  apply (sends_silent rfl).bind
  intro _ _
  apply sends.bind
  intro result brings
  cases result with
  | ok value => exact sends_pure brings
  | error err =>
    have failed : Brings known (.error err : FtpResult α) := brings
    dsimp only
    split_ifs with isBad lost
    · apply (sends_tell .noop (by simp)).bind
      intro answer _
      cases answer with
      | ok _ => exact sends_pure failed
      | error _ => exact sends_replay sends
    · exact sends_replay sends
    · exact sends_pure failed

theorem sends_runRaw {known : α → Prop} {op : FtpProgram (FtpResult α)}
    (sends : Sends fs (Brings known) op) : Sends fs (Brings known) (runRaw op) := by
  apply (sends_attempt sends).bind
  intro tried brings
  exact sends_pure brings

theorem sends_run {known : α → Prop} {op : FtpProgram (FtpResult α)}
    (sends : Sends fs (Brings known) op) : Sends fs known (run op) := by
  apply (sends_runRaw sends).bind
  intro result brings
  exact sends_orFail brings

/-! ### Reading -/

/-- A name of a listing that can be sent. -/
def OneLineItem (item : ListedItem) : Prop := NoBreak item.name.toList

variable {path : String}

theorem sends_mlsd (clean : NoBreak path.toList) :
    Sends fs (fun found => ∀ items, found = some items → ∀ item ∈ items, OneLineItem item)
      (fs.mlsd path) := by
  apply (sends_runRaw (sends_tell (.mlsd path) (by simpa))).bind
  intro result plain
  cases result with
  | ok lines =>
    apply sends_pure
    rintro _ ⟨⟩ item member
    obtain ⟨line, isLine, parses⟩ := List.mem_filterMap.mp member
    exact plain lines rfl line isLine item parses
  | error err =>
    dsimp only
    split_ifs
    · apply (sends_silent rfl).bind
      intro _ _
      exact sends_pure (by rintro _ ⟨⟩)
    · exact sends_fail

theorem sends_listItems (clean : NoBreak path.toList) :
    Sends fs (fun items => ∀ item ∈ items, OneLineItem item) (fs.listItems path) := by
  apply (sends_silent rfl).bind
  intro now _
  have reads : Sends fs (fun lines : List String => ∀ line ∈ lines, ∀ now item,
      fs.listing.parseListLine line now = some item → NoBreak item.name.toList)
      (run (tell (.list path))) := sends_run (sends_tell (.list path) (by simpa))
  apply reads.bind
  intro lines plain
  apply sends_pure
  intro item member
  obtain ⟨line, isLine, parses⟩ := List.mem_filterMap.mp member
  exact plain line isLine now item parses

theorem sends_items {dir : Path} (clean : dir.OneLine) :
    Sends fs (fun items => ∀ item ∈ items, OneLineItem item) (fs.items dir) := by
  apply (sends_silent rfl).bind
  intro supported _
  split_ifs
  · apply (sends_mlsd clean).bind
    intro found brings
    cases found with
    | some items => exact sends_pure (brings items rfl)
    | none => exact sends_listItems clean
  · exact sends_listItems clean

theorem sends_enters (clean : NoBreak path.toList) : Sends fs (Brings Anything) (enters path) := by
  have asks : Sends fs (Brings fun previous : String => NoBreak previous.toList) (tell .pwd) :=
    sends_tell .pwd (by simp)
  apply sends_thenOk asks
  intro previous back
  apply (sends_tell (.cwd path) (by simpa)).bind
  intro entered _
  cases entered with
  | ok _ =>
    apply sends_thenOk (sends_tell_only (.cwd previous) (by simpa))
    intro _ _
    exact sends_pure fun _ _ => trivial
  | error _ => exact sends_pure fun _ _ => trivial

theorem sends_isDirectory (clean : NoBreak path.toList) : Sends fs Anything (isDirectory path) :=
  sends_run (sends_enters clean)

theorem sends_mlst (clean : NoBreak path.toList) : Sends fs Anything (fs.mlst path) := by
  apply (sends_runRaw (sends_tell_only (.mlst path) (by simpa))).bind
  intro result _
  cases result with
  | ok line =>
    dsimp only
    split
    · exact sends_pure trivial
    · exact sends_fail
  | error err =>
    dsimp only
    split_ifs
    · apply (sends_silent rfl).bind
      intro _ _
      exact sends_pure trivial
    · exact sends_fail
    · exact sends_fail

theorem sends_statBySize (clean : NoBreak path.toList) : Sends fs Anything (statBySize path) := by
  apply (sends_runRaw (sends_tell_only (.size path) (by simpa))).bind
  intro result _
  cases result with
  | ok size =>
    apply (sends_runRaw (sends_tell_only (.mdtm path) (by simpa))).bind
    intro _ _
    exact sends_pure trivial
  | error err =>
    apply (sends_isDirectory clean).bind
    intro isDir _
    split_ifs
    · exact sends_pure trivial
    · exact sends_fail

theorem sends_statRemote (clean : NoBreak path.toList) : Sends fs Anything (fs.statRemote path) := by
  apply (sends_silent rfl).bind
  intro supported _
  split_ifs
  · apply (sends_mlst clean).bind
    intro found _
    cases found with
    | some metadata => exact sends_pure trivial
    | none => exact sends_statBySize clean
  · exact sends_statBySize clean

theorem sends_exists (clean : NoBreak path.toList) : Sends fs Anything (fs.exists path) := by
  apply (sends_statRemote clean).attempt.bind
  intro outcome _
  cases outcome with
  | ok metadata => exact sends_pure trivial
  | error err =>
    dsimp only
    split_ifs
    · exact sends_pure trivial
    · exact sends_fail

/-! ### Changing -/

theorem sends_simpleRaw {command : SimpleCommand} (clean : NoBreak path.toList) :
    Sends fs Anything (fs.simpleRaw path command) := by
  have asks : Sends fs (Brings Anything) (simpleOp path command) := by
    cases command <;> exact sends_tell_only _ (by simpa)
  apply (sends_attempt asks).bind
  rintro ⟨result, replayed⟩ _
  cases result with
  | ok _ => exact sends_pure trivial
  | error err =>
    dsimp only
    split_ifs
    · apply (sends_exists clean).bind
      intro existsNow _
      exact sends_pure trivial
    · exact sends_pure trivial

theorem sends_simple {command : SimpleCommand} (clean : NoBreak path.toList) :
    Sends fs Anything (fs.simple path command) := by
  apply (sends_simpleRaw clean).bind
  intro result _
  exact sends_orFail fun _ _ => trivial

variable {source target : String}

theorem sends_renameRaw (sourceClean : NoBreak source.toList) (targetClean : NoBreak target.toList) :
    Sends fs Anything (fs.renameRaw source target) := by
  have asks : Sends fs (Brings Anything) (renameOp source target) := by
    apply sends_thenOk (sends_tell_only (.rnfr source) (by simpa))
    intro _ _
    exact sends_tell_only (.rnto target) (by simpa)
  apply (sends_attempt asks).bind
  rintro ⟨result, replayed⟩ _
  cases result with
  | ok _ => exact sends_pure trivial
  | error err =>
    dsimp only
    split_ifs
    · have looks : Sends fs Anything (fs.renamed source target) := by
        apply (sends_exists sourceClean).bind
        intro isThere _
        split_ifs
        · exact sends_pure trivial
        · exact sends_exists targetClean
      apply looks.bind
      intro isRenamed _
      exact sends_pure trivial
    · exact sends_pure trivial

theorem noBreak_backupOf (clean : NoBreak target.toList) : NoBreak (backupOf target).toList := by
  have ending : NoBreak ".bak".toList := by decide
  rw [backupOf, String.toList_append, noBreak_append]
  exact ⟨clean, ending⟩

theorem sends_mayBackUp (sourceClean : NoBreak source.toList) (targetClean : NoBreak target.toList) :
    Sends fs Anything (fs.mayBackUp source target) := by
  apply (sends_exists sourceClean).bind
  intro sourceThere _
  split_ifs
  · apply (sends_exists targetClean).bind
    intro targetThere _
    split_ifs
    · apply (sends_exists (noBreak_backupOf targetClean)).bind
      intro _ _
      exact sends_pure trivial
    · exact sends_pure trivial
  · exact sends_pure trivial

theorem sends_renameByBackup (sourceClean : NoBreak source.toList)
    (targetClean : NoBreak target.toList) : Sends fs Anything (fs.renameByBackup source target) := by
  have backupClean := noBreak_backupOf targetClean
  apply (sends_renameRaw targetClean backupClean).bind
  intro setAside _
  apply (sends_orFail fun _ _ => trivial : Sends fs Anything (orFail setAside)).bind
  intro _ _
  apply (sends_renameRaw sourceClean targetClean).bind
  intro result _
  cases result with
  | ok _ =>
    apply (sends_simple backupClean).attempt.bind
    intro _ _
    exact sends_pure trivial
  | error err =>
    apply (sends_renameRaw backupClean targetClean).attempt.bind
    intro _ _
    exact sends_fail

theorem sends_renameRemote (sourceClean : NoBreak source.toList)
    (targetClean : NoBreak target.toList) : Sends fs Anything (fs.renameRemote source target) := by
  apply (sends_renameRaw sourceClean targetClean).bind
  intro result _
  cases result with
  | ok _ => exact sends_pure trivial
  | error refused =>
    apply (sends_mayBackUp sourceClean targetClean).bind
    intro mayBackUp _
    split_ifs
    · exact sends_renameByBackup sourceClean targetClean
    · exact sends_fail

theorem noBreak_joinRemote {parent name : String} (parentClean : NoBreak parent.toList)
    (nameClean : NoBreak name.toList) : NoBreak (joinRemote parent name).toList := by
  have slash : NoBreak "/".toList := by decide
  unfold joinRemote
  split_ifs <;> simp only [String.toList_append, noBreak_append, parentClean, nameClean, slash,
    and_self]

theorem sends_readDir {dir : Path} (clean : dir.OneLine) :
    Sends fs (fun children => ∀ child ∈ children, child.path.OneLine) (fs.readDir dir) := by
  apply (sends_items clean).bind
  intro items oneLine
  apply sends_pure
  intro child member
  obtain ⟨item, isItem, rfl⟩ := List.mem_map.mp member
  exact noBreak_joinRemote clean (oneLine item isItem)

theorem sends_removePathBy {deleteTree : String → FtpProgram Unit} (clean : NoBreak path.toList)
    (deletes : Sends fs Anything (deleteTree path)) :
    Sends fs Anything (fs.removePathBy deleteTree path) := by
  apply (sends_simpleRaw clean).bind
  intro result _
  cases result with
  | ok _ => exact sends_pure trivial
  | error refused =>
    dsimp only
    split_ifs
    · exact sends_fail
    · apply (sends_isDirectory clean).bind
      intro isDir _
      split_ifs
      · exact deletes
      · exact sends_fail

theorem sends_forEach {work : α → FtpProgram Unit} {values : List α}
    (each : ∀ value ∈ values, Sends fs Anything (work value)) :
    Sends fs Anything (forEach work values) := meets_forEach each

theorem sends_deleteTree (fuel : Nat) (clean : NoBreak path.toList) :
    Sends fs Anything (fs.deleteTree fuel path) := by
  induction fuel generalizing path with
  | zero => exact sends_fail
  | succ fuel ih =>
    have reads : Sends fs _ (fs.readDir ⟨path⟩) := sends_readDir clean
    apply reads.bind
    intro children oneLine
    apply Sends.bind (sends_forEach _)
    · intro _ _
      exact sends_simple clean
    · intro child member
      have childClean : NoBreak child.path.toRemote.toList := oneLine child member
      split_ifs
      · exact sends_simple childClean
      · exact sends_removePathBy childClean (ih childClean)

/-! ### Operations -/

theorem sends_entryOf {parent : String} {item : ListedItem} (clean : NoBreak parent.toList)
    (oneLine : OneLineItem item) : Sends fs Anything (entryOf parent item) := by
  unfold entryOf
  cases item.metadata.kind with
  | dir => exact sends_pure trivial
  | file => exact sends_pure trivial
  | symlink =>
    apply (sends_isDirectory (noBreak_joinRemote clean oneLine)).bind
    intro _ _
    exact sends_pure trivial

theorem sends_entriesOf {parent : String} {items : List ListedItem} (clean : NoBreak parent.toList)
    (oneLine : ∀ item ∈ items, OneLineItem item) :
    Sends fs Anything (entriesOf parent items) := by
  induction items with
  | nil => exact sends_pure trivial
  | cons item items ih =>
    obtain ⟨here, later⟩ := List.forall_mem_cons.mp oneLine
    apply (sends_entryOf clean here).bind
    intro entry _
    apply (ih later).bind
    intro entries _
    exact sends_pure trivial

theorem sends_list {dir : Path} (clean : dir.OneLine) : Sends fs Anything (fs.list dir) := by
  apply (sends_items clean).bind
  intro items oneLine
  exact sends_entriesOf clean oneLine

/-- The stamps that a moment is formatted to. -/
def PlainStamps (fs : FtpFs) : Prop :=
  ∀ seconds year stamp, fs.moment seconds = some (year, stamp) → NoBreak stamp.toList

theorem noBreak_mfmtStamp (stamps : PlainStamps fs) {seconds : Nat} {stamp : String}
    (isStamp : fs.mfmtStamp seconds = some stamp) : NoBreak stamp.toList := by
  unfold mfmtStamp at isStamp
  split at isStamp
  case h_1 year formatted isMoment =>
    split_ifs at isStamp
    obtain rfl := Option.some.inj isStamp
    exact stamps _ _ _ isMoment
  case h_2 => cases isStamp

theorem sends_setModified (stamps : PlainStamps fs) {path : Path} (clean : path.OneLine)
    (seconds : Nat) : Sends fs Anything (fs.setModified path seconds) := by
  unfold setModified
  split_ifs
  · split
    case h_1 stamp isStamp =>
      have stampClean := noBreak_mfmtStamp stamps isStamp
      apply (sends_run (sends_tell_only (.mfmt stamp path.toRemote) _)).bind
      · intro _ _
        exact sends_pure trivial
      · simpa using ⟨stampClean, clean⟩
    case h_2 => exact sends_fail
  · exact sends_fail

theorem noBreak_repr (number : Nat) : NoBreak number.repr.toList := by
  intro char member isBreak
  rw [Nat.toList_repr] at member
  have isDigit := Nat.isDigit_of_mem_toDigits (by decide) (by decide) member
  rcases isBreak with rfl | rfl <;> exact absurd isDigit (by decide)

theorem sends_openRead {path : Path} (clean : path.OneLine) (offset : Nat) :
    Sends fs Anything (openRead path offset) := by
  have retrieves : Sends fs Anything (do
      let _ ← orFail (← tell (.retr path.toRemote))
      pure ()) := by
    apply (sends_tell_only (.retr path.toRemote) (by simpa)).bind
    intro result brings
    apply (sends_orFail brings).bind
    intro _ _
    exact sends_pure trivial
  apply (sends_silent rfl).bind
  intro _ _
  split_ifs
  · apply (sends_tell_only (.rest offset) (by simpa using noBreak_repr offset)).bind
    intro result brings
    apply (sends_orFail brings).bind
    intro _ _
    exact retrieves
  · exact retrieves

theorem sends_startOp (clean : NoBreak path.toList) (offset : Nat) (start : WriteStart) :
    Sends fs (Brings Anything) (startOp path offset start) := by
  cases start with
  | store => exact sends_tell_only (.stor path) (by simpa)
  | append => exact sends_tell_only (.appe path) (by simpa)
  | restartStore =>
    apply sends_thenOk (sends_tell_only (.rest offset) (by simpa using noBreak_repr offset))
    intro _ _
    exact sends_tell_only (.stor path) (by simpa)

theorem sends_openWriteFrom (clean : NoBreak path.toList) (offset fuel : Nat) (start : WriteStart) :
    Sends fs Anything (openWriteFrom path offset fuel start) := by
  induction fuel generalizing start with
  | zero => exact sends_fail
  | succ fuel ih =>
    apply (sends_startOp clean offset start).bind
    intro result _
    cases result with
    | ok _ => exact sends_pure trivial
    | error err =>
      dsimp only
      split_ifs
      · exact sends_fail
      · cases fallback start with
        | some next => exact ih next
        | none => exact sends_fail

theorem sends_openWrite {path : Path} (clean : path.OneLine) (offset : Nat) :
    Sends fs Anything (openWrite path offset) := by
  apply (sends_silent rfl).bind
  intro _ _
  exact sends_openWriteFrom clean offset 3 _

end FtpFs

namespace FtpOperation

open Program FtpFs

variable {fs : FtpFs}

theorem sends_program (stamps : PlainStamps fs) {operation : FtpOperation}
    (oneLine : ∀ path ∈ operation.paths, path.OneLine) :
    Sends fs Anything (operation.program fs) := by
  cases operation with
  | list dir => exact (sends_list (oneLine dir (by simp [paths]))).bind fun _ _ => trivial
  | readDir dir => exact (sends_readDir (oneLine dir (by simp [paths]))).bind fun _ _ => trivial
  | stat path => exact (sends_statRemote (oneLine path (by simp [paths]))).bind fun _ _ => trivial
  | createDir path => exact sends_simple (oneLine path (by simp [paths]))
  | removeFile path => exact sends_simple (oneLine path (by simp [paths]))
  | delete path fuel =>
    have clean : NoBreak path.toRemote.toList := oneLine path (by simp [paths])
    exact sends_removePathBy clean (sends_deleteTree fuel clean)
  | rename source target =>
    exact sends_renameRemote (oneLine source (by simp [paths])) (oneLine target (by simp [paths]))
  | setModified path seconds => exact sends_setModified stamps (oneLine path (by simp [paths])) seconds
  | openRead path offset => exact sends_openRead (oneLine path (by simp [paths])) offset
  | openWrite path offset =>
    exact (sends_openWrite (oneLine path (by simp [paths])) offset).bind fun _ _ => trivial

theorem sends_refused {operation : FtpOperation} (refused : operation.Refused fs) {result : _}
    {log : List FtpCommand}
    (run : (operation.program fs).Runs (controlConnection fs) [] result log) : log = [] := by
  cases operation with
  | setModified path seconds =>
    have fails : ∃ err, program fs (.setModified path seconds) = fail err := by
      rcases refused with noMfmt | noStamp
      · exact ⟨_, by rw [program, FtpFs.setModified, noMfmt]; rfl⟩
      · cases mfmt : fs.mfmt with
        | true => exact ⟨_, by rw [program, FtpFs.setModified, mfmt, noStamp]; rfl⟩
        | false => exact ⟨_, by rw [program, FtpFs.setModified, mfmt]; rfl⟩
    obtain ⟨err, isFail⟩ := fails
    rw [isFail] at run
    exact run.2
  | _ => exact absurd refused id

/-- Replies of a server that carries out every command. -/
def obligingReply : (command : FtpCommand) → command.Reply
  | .mlsd _ => ([] : List String)
  | .list _ => ([] : List String)
  | .mlst _ => ""
  | .size _ => (0 : Nat)
  | .mdtm _ => (none : Option Nat)
  | .pwd => ""
  | .cwd _ => ()
  | .mkd _ => ()
  | .dele _ => ()
  | .rmd _ => ()
  | .rnfr _ => ()
  | .rnto _ => ()
  | .mfmt _ _ => ()
  | .rest _ => ()
  | .retr _ => ()
  | .stor _ => ()
  | .appe _ => ()
  | .noop => ()

def obliging : (β : Type) → List FtpCommand → FtpRequest β → Except ProtocolError β × List FtpCommand
  | _, log, .command meant => (.ok (.ok (obligingReply meant)), log ++ [meant])
  | _, log, .main => (.ok (), log)
  | _, log, .reconnect => (.ok (), log)
  | _, log, .borrow => (.ok (), log)
  | _, log, .supportsMlst => (.ok true, log)
  | _, log, .markMlstMissing => (.ok (), log)
  | _, log, .now => (.ok 0, log)

theorem serves_obliging (β : Type) (log : List FtpCommand) (asked : FtpRequest β) :
    controlConnection fs β log asked (obliging β log asked).1 (obliging β log asked).2 := by
  cases asked with
  | command meant =>
    refine ⟨rfl, ?_⟩
    rintro _ ⟨⟩
    cases meant with
    | mlsd path =>
      rintro _ ⟨⟩ line member
      cases member
    | list path =>
      rintro _ ⟨⟩ line member
      cases member
    | pwd =>
      rintro _ ⟨⟩
      exact noBreak_nil
    | _ => trivial
  | _ => exact ⟨(List.append_nil log).symm, fun _ _ => trivial⟩

/-- The commands of an operation where the server carries out every one. -/
def commands (fs : FtpFs) (operation : FtpOperation) : List FtpCommand :=
  ((operation.program fs).exec obliging []).2

theorem runs_commands (operation : FtpOperation) :
    ∃ result, (operation.program fs).Runs (controlConnection fs) [] result (operation.commands fs) :=
  ⟨_, runs_exec serves_obliging (operation.program fs) []⟩

theorem sent_of_mem_paths {operation : FtpOperation} (accepted : ¬operation.Refused fs) {path : Path}
    (member : path ∈ operation.paths) :
    ∃ command ∈ operation.commands fs, path.toRemote ∈ command.arguments := by
  cases operation with
  | list dir =>
    have sent : commands fs (.list dir) = [.mlsd dir.toRemote] := rfl
    obtain rfl := List.mem_singleton.mp member
    simp [sent]
  | readDir dir =>
    have sent : commands fs (.readDir dir) = [.mlsd dir.toRemote] := rfl
    obtain rfl := List.mem_singleton.mp member
    simp [sent]
  | stat file =>
    have sent : commands fs (.stat file) = [.mlst file.toRemote] := by
      cases facts : fs.listing.parseMlstFacts "" <;>
        simp [commands, program, FtpFs.stat, statRemote, FtpFs.mlst, runRaw, FtpFs.attempt, FtpFs.tell,
          Program.send, Bind.bind, Program.bind, Pure.pure, fail, exec, obliging, obligingReply,
          facts]
    obtain rfl := List.mem_singleton.mp member
    simp [sent]
  | createDir dir =>
    have sent : commands fs (.createDir dir) = [.mkd dir.toRemote] := rfl
    obtain rfl := List.mem_singleton.mp member
    simp [sent]
  | removeFile file =>
    have sent : commands fs (.removeFile file) = [.dele file.toRemote] := rfl
    obtain rfl := List.mem_singleton.mp member
    simp [sent]
  | delete file fuel =>
    have sent : commands fs (.delete file fuel) = [.dele file.toRemote] := rfl
    obtain rfl := List.mem_singleton.mp member
    simp [sent]
  | rename source target =>
    have sent : commands fs (.rename source target) =
      [.rnfr source.toRemote, .rnto target.toRemote] := rfl
    rcases List.mem_pair.mp member with rfl | rfl <;> simp [sent]
  | setModified file seconds =>
    obtain rfl := List.mem_singleton.mp member
    have sets : fs.mfmt = true := eq_true_of_ne_false fun noMfmt => accepted (Or.inl noMfmt)
    obtain ⟨stamp, isStamp⟩ := Option.ne_none_iff_exists'.mp fun noStamp => accepted (Or.inr noStamp)
    have sent : commands fs (.setModified path seconds) = [.mfmt stamp path.toRemote] := by
      rw [commands, program, FtpFs.setModified, sets, isStamp]
      rfl
    simp [sent]
  | openRead file offset =>
    obtain rfl := List.mem_singleton.mp member
    refine ⟨.retr path.toRemote, ?_, by simp⟩
    change .retr path.toRemote ∈ (exec obliging (if offset > 0 then _ else _) []).2
    split_ifs
    · exact List.mem_cons_of_mem _ List.mem_cons_self
    · exact List.mem_cons_self
  | openWrite file offset =>
    obtain rfl := List.mem_singleton.mp member
    have sent (start : WriteStart) : ∃ command ∈ (exec obliging (do
        let _ ← openWriteFrom path.toRemote offset 3 start
        pure ()) []).2, path.toRemote ∈ command.arguments := by
      cases start with
      | store => exact ⟨.stor path.toRemote, List.mem_cons_self, by simp⟩
      | append => exact ⟨.appe path.toRemote, List.mem_cons_self, by simp⟩
      | restartStore =>
        exact ⟨.stor path.toRemote, List.mem_cons_of_mem _ List.mem_cons_self, by simp⟩
    exact sent (firstWriteStart offset)

theorem readAsSent_of_sends {program : FtpProgram Unit} (sends : Sends fs Anything program)
    {result : Except ProtocolError Unit} {log : List FtpCommand}
    (run : program.Runs (controlConnection fs) [] result log) : ReadAsSent log := by
  rw [readAsSent_iff]
  have starts : ∀ command ∈ ([] : List FtpCommand), NoBreak command.line := by simp
  have meets := Meets.of_runs (fun log => ∀ command ∈ log, NoBreak command.line) ?_
    (fun _ _ _ _ _ serves => serves.2 _ rfl) sends starts run
  · exact meets.1
  · rintro β before asked answer _ ⟨rfl, _⟩ oneLine clean command member
    rcases List.mem_append.mp member with earlier | now
    · exact clean command earlier
    · exact oneLine command now

/-- A file system of a server without `MFMT`, whose listings show no names. -/
def plainFs : FtpFs where
  listing := ⟨fun _ => none, fun _ _ => none, fun _ => none⟩
  home := ⟨"/"⟩
  mfmt := false
  moment := fun seconds => if seconds = 0 then some (1970, "19700101000000") else none

theorem plainStamps_plainFs : PlainStamps plainFs := by
  intro seconds year stamp isMoment
  dsimp only [plainFs] at isMoment
  split_ifs at isMoment
  cases isMoment
  decide

end FtpOperation

end Porthmos
