import Porthmos.ChunkShutdowns
import Porthmos.FtpFs
import Porthmos.RequestRuns
import Porthmos.ShellCommands

/-!
# Where a resumed upload lands

A file system opens a file for writing at an offset and says where it really
starts.  Servers refuse steps on the way: a restart, an append, to open without
truncation, to set a size.  What a file system then does instead must start where
it says.
-/

namespace Porthmos

open Program

/-! ### Files that are written -/

/-- An open file of a server: what it held when it was opened, and where the next
bytes go. -/
structure WriteHandle where
  base : List UInt8
  position : Nat
  deriving DecidableEq

/-- The content with a size of its own, filled up with zeros. -/
def resized (content : List UInt8) (size : Nat) : List UInt8 :=
  (content ++ List.replicate (size - content.length) 0).take size

/-- The content once some bytes have been written at a place. -/
def writtenAt (content : List UInt8) (position : Nat) (bytes : List UInt8) : List UInt8 :=
  resized content position ++ bytes ++ content.drop (position + bytes.length)

/-- The file once all bytes of an upload are there. -/
def WriteHandle.written (handle : WriteHandle) (bytes : List UInt8) : List UInt8 :=
  writtenAt handle.base handle.position bytes

/-- An upload at an offset has started at the place it tells: what it leaves is the
beginning of the old file and what was written. -/
def Honours (old : List UInt8) (requested offset : Nat) (bytes left : List UInt8) : Prop :=
  (offset = 0 ∨ offset = requested) ∧
    (old.length ≤ offset + bytes.length → left = old.take offset ++ bytes)

/-- The place is the one that is told, and the file is the old one up to there. -/
structure WriteHandle.StartsAt (handle : WriteHandle) (old : List UInt8) (offset : Nat) : Prop where
  position : handle.position = offset
  within : offset ≤ handle.base.length
  short : handle.base.length ≤ old.length
  kept : handle.base.take offset = old.take offset

theorem resized_eq_take {content : List UInt8} {size : Nat} (within : size ≤ content.length) :
    resized content size = content.take size := by
  rw [resized, List.take_append_of_le_length within]

theorem WriteHandle.StartsAt.honours {handle : WriteHandle} {old : List UInt8}
    {requested offset : Nat} (starts : handle.StartsAt old offset)
    (isRequested : offset = 0 ∨ offset = requested) (bytes : List UInt8) :
    Honours old requested offset bytes (handle.written bytes) := by
  refine ⟨isRequested, fun covers => ?_⟩
  have noTail : handle.base.drop (offset + bytes.length) = [] := by
    apply List.drop_eq_nil_of_le
    exact le_trans starts.short covers
  rw [written, writtenAt, starts.position, resized_eq_take starts.within, starts.kept, noTail,
    List.append_nil]

theorem startsAt_empty (old : List UInt8) : (WriteHandle.mk [] 0).StartsAt old 0 :=
  ⟨rfl, le_rfl, Nat.zero_le _, rfl⟩

theorem startsAt_end (old : List UInt8) : (WriteHandle.mk old old.length).StartsAt old old.length :=
  ⟨rfl, le_rfl, le_rfl, rfl⟩

/-! ### FTP -/

/-- A file on an FTP server, the place that a `REST` has told for the next command,
and the transfer that was begun. -/
structure FtpUpload where
  content : List UInt8
  restart : Option Nat
  transfer : Option WriteHandle

namespace FtpUpload

def Refused {β : Type} (reply : FtpResult β) : Prop := ∃ err, reply = .error err

/-- A command is carried out or refused; a restart is for the next command only.
At the place of a restart the server may cut the file or not. -/
def Serves (file : String) (before : FtpUpload) :
    (command : FtpCommand) → FtpResult command.Reply → FtpUpload → Prop
  | .rest offset, reply, after =>
    (reply = .ok () ∧ after = { before with restart := some offset }) ∨
      Refused reply ∧ after = { before with restart := none }
  | .stor path, reply, after =>
    (reply = .ok () ∧ path = file ∧ ∃ base,
      (before.restart = none → base = []) ∧
      (∀ offset, before.restart = some offset →
        base = before.content ∨ base = resized before.content offset) ∧
      after = { before with
        restart := none
        transfer := some ⟨base, before.restart.getD 0⟩ }) ∨
      Refused reply ∧ after = { before with restart := none }
  | .appe path, reply, after =>
    (reply = .ok () ∧ path = file ∧ after = { before with
      restart := none
      transfer := some ⟨before.content, before.content.length⟩ }) ∨
      Refused reply ∧ after = { before with restart := none }
  | _, _, after => after = { before with restart := none }

/-- A connection that is borrowed waits for no restart. -/
def serves (file : String) : Service FtpUpload FtpRequest ProtocolError
  | _, before, .command command, answer, after =>
    ∃ reply, answer = .ok reply ∧ before.Serves file command reply after
  | _, before, _, _, after => after = { before with restart := none }

/-- No transfer was begun, and no restart is waited for. -/
def Idle (old : List UInt8) (upload : FtpUpload) : Prop :=
  upload.content = old ∧ upload.restart = none

/-- A transfer was begun at the offset that is told. -/
def Begun (old : List UInt8) (requested offset : Nat) (upload : FtpUpload) : Prop :=
  (offset = 0 ∨ offset = requested) ∧
    ∃ handle : WriteHandle, upload.transfer = some handle ∧ handle.StartsAt old offset

end FtpUpload

namespace FtpFs

open FtpUpload

/-- What is known when a start was tried. -/
def Tried (old : List UInt8) (requested offset : Nat) :
    Except ProtocolError (FtpResult Unit) → FtpUpload → Prop
  | .ok (.ok _), upload => Begun old requested offset upload
  | _, upload => Idle old upload

theorem tell_stor_spec (path : String) {old : List UInt8} {requested offset : Nat}
    {restart : Option Nat} (isOffset : restart.getD 0 = offset) (within : offset ≤ old.length)
    (isRequested : offset = 0 ∨ offset = requested) :
    Ensures (FtpUpload.serves path) (fun upload => upload.content = old ∧ upload.restart = restart)
      (tell (.stor path)) (Tried old requested offset) := by
  apply ensures_send
  rintro before answer after ⟨rfl, isRestart⟩ ⟨reply, rfl, serves⟩
  rcases serves with ⟨rfl, -, base, fresh, kept, rfl⟩ | ⟨⟨err, rfl⟩, rfl⟩
  · rw [isRestart] at fresh kept
    refine ⟨isRequested, ⟨base, offset⟩, by rw [isRestart, isOffset], ?_⟩
    cases restart with
    | none =>
      obtain rfl := fresh rfl
      obtain rfl : 0 = offset := isOffset
      exact startsAt_empty _
    | some place =>
      obtain rfl : place = offset := isOffset
      rcases kept place rfl with rfl | rfl
      · exact ⟨rfl, within, le_rfl, rfl⟩
      · rw [resized_eq_take within]
        refine ⟨rfl, ?_, ?_, ?_⟩
        · simp [within]
        · simp
        · simp
  · exact ⟨rfl, rfl⟩

theorem tell_appe_spec (path : String) {old : List UInt8} :
    Ensures (FtpUpload.serves path) (Idle old) (tell (.appe path))
      (Tried old old.length old.length) := by
  apply ensures_send
  rintro before answer after ⟨rfl, -⟩ ⟨reply, rfl, serves⟩
  rcases serves with ⟨rfl, -, rfl⟩ | ⟨⟨err, rfl⟩, rfl⟩
  · exact ⟨.inr rfl, _, rfl, startsAt_end _⟩
  · exact ⟨rfl, rfl⟩

/-- What is known when a restart was asked for. -/
def Restarted {β : Type} (old : List UInt8) :
    Except ProtocolError (FtpResult β) → FtpUpload → Prop
  | .ok (.ok _), upload => upload.content = old ∧ upload.restart = some old.length
  | _, upload => Idle old upload

theorem startOp_spec (path : String) {old : List UInt8} {offset : Nat} {start : WriteStart}
    (suits : start = .store ∨ offset = old.length) :
    Ensures (FtpUpload.serves path) (Idle old) (startOp path offset start)
      (Tried old offset (start.offset offset)) := by
  cases start with
  | store => exact tell_stor_spec path rfl (Nat.zero_le _) (.inl rfl)
  | append =>
    obtain rfl := suits.resolve_left nofun
    exact tell_appe_spec path
  | restartStore =>
    obtain rfl := suits.resolve_left nofun
    apply ensures_bind (Restarted old)
    · apply ensures_send
      rintro before answer after ⟨rfl, -⟩ ⟨reply, rfl, serves⟩
      rcases serves with ⟨rfl, rfl⟩ | ⟨⟨err, rfl⟩, rfl⟩
      · exact ⟨rfl, rfl⟩
      · exact ⟨rfl, rfl⟩
    · intro reply
      cases reply with
      | ok value => exact tell_stor_spec path rfl le_rfl (.inr rfl)
      | error err => exact ensures_done fun upload idle => idle
    · intro err upload idle
      exact idle

/-- An upload that was begun, or none. -/
def Opened (old : List UInt8) (requested : Nat) : Except ProtocolError Nat → FtpUpload → Prop
  | .ok offset, upload => Begun old requested offset upload
  | .error _, _ => True

/-- The starts that are tried one after the other. -/
theorem openWriteFrom_spec (path : String) {old : List UInt8} {offset : Nat} (fuel : Nat)
    {start : WriteStart} (suits : start = .store ∨ offset = old.length) :
    Ensures (FtpUpload.serves path) (Idle old) (openWriteFrom path offset fuel start)
      (Opened old offset) := by
  induction fuel generalizing start with
  | zero => exact ensures_done fun upload _ => trivial
  | succ fuel ih =>
    apply ensures_bind _ (startOp_spec path suits)
    · intro reply
      cases reply with
      | ok value => exact ensures_done fun upload begun => begun
      | error err =>
        dsimp only
        split_ifs
        · exact ensures_done fun upload _ => trivial
        · cases isNext : fallback start with
          | none => exact ensures_done fun upload _ => trivial
          | some next =>
            have goesOn : start ≠ .store := by
              rintro rfl
              cases isNext
            exact ih (.inr (suits.resolve_left goesOn))
    · intro err upload _
      trivial

theorem openWrite_spec (path : Path) {old : List UInt8} {offset : Nat}
    (isEnd : offset = 0 ∨ offset = old.length) :
    Ensures (FtpUpload.serves path.toRemote) (fun upload => upload.content = old)
      (openWrite path offset) (Opened old offset) := by
  apply ensures_bind fun _ upload => Idle old upload
  · apply ensures_send
    rintro before answer after rfl rfl
    exact ⟨rfl, rfl⟩
  · intro _
    apply openWriteFrom_spec
    rcases isEnd with rfl | atEnd
    · exact .inl rfl
    · exact .inr atEnd
  · intro err upload _
    trivial

end FtpFs

/-! ### SCP -/

/-- The commands whose input is written. -/
inductive ScpRequest : Type → Type
  | exec (command : ShellCommand) : ScpRequest Unit

structure ScpUpload where
  content : List UInt8
  handle : Option WriteHandle

namespace ScpFs

/-- `command_writer`, with the offset of the writer. -/
def openWrite (path : Path) (offset : Nat) : Program ScpRequest ProtocolError Nat := do
  send (.exec (if offset > 0 then .append path else .create path))
  pure offset

/-- The shell opens the file of a redirection, or nothing is executed. -/
def Executes (file : Path) (before : ScpUpload) : ShellCommand → ScpUpload → Prop
  | .append path, after =>
    path = file ∧ after = { before with handle := some ⟨before.content, before.content.length⟩ }
  | .create path, after => path = file ∧ after = { before with handle := some ⟨[], 0⟩ }
  | _, after => after = before

def serves (file : Path) : Service ScpUpload ScpRequest ProtocolError
  | _, before, .exec command, answer, after =>
    (answer = .ok () ∧ Executes file before command after) ∨
      (∃ err, answer = .error err) ∧ after = before

theorem openWrite_spec (path : Path) {old : List UInt8} {offset : Nat}
    (isEnd : offset = 0 ∨ offset = old.length) :
    Ensures (serves path) (fun upload => upload.content = old) (openWrite path offset)
      (WhenOk fun opened upload => opened = offset ∧
        ∃ handle : WriteHandle, upload.handle = some handle ∧ handle.StartsAt old opened) := by
  apply ensures_bind (WhenOk fun _ upload =>
    ∃ handle : WriteHandle, upload.handle = some handle ∧ handle.StartsAt old offset)
  · apply ensures_send
    rintro before answer after rfl (⟨rfl, executes⟩ | ⟨⟨err, rfl⟩, rfl⟩)
    · split_ifs at executes with positive
      · obtain ⟨-, rfl⟩ := executes
        obtain rfl := isEnd.resolve_left (by omega)
        exact ⟨_, rfl, startsAt_end _⟩
      · obtain ⟨-, rfl⟩ := executes
        obtain rfl : offset = 0 := by omega
        exact ⟨_, rfl, startsAt_empty _⟩
    · trivial
  · intro _
    exact ensures_done fun upload started => ⟨rfl, started⟩
  · intro err upload _
    trivial

end ScpFs

/-! ### SFTP -/

/-- The requests about the file that is opened. -/
inductive SftpFileRequest : Type → Type
  /-- `open_with_flags` with `WRITE` and `CREATE`. -/
  | openKept (path : String) : SftpFileRequest Unit
  /-- `create`, which truncates. -/
  | create (path : String) : SftpFileRequest Unit
  | setSize (size : Nat) : SftpFileRequest Unit
  | seek (position : Nat) : SftpFileRequest Unit

namespace SftpFs

/-- `SFTP_MAX_CONCURRENT_WRITES` times `SFTP_MAX_WRITE_PACKET_LEN`. -/
def resumeBackoff : Nat := 16 * (32 * 1024)

def createFile (path : String) : Program SftpFileRequest ProtocolError Nat := do
  send (.create path)
  pure 0

def openWrite (path : Path) (offset : Nat) : Program SftpFileRequest ProtocolError Nat := do
  if offset > 0 then
    match ← attempt (send (.openKept path.toRemote)) with
    | .ok () => do
        let _ ← attempt (send (.setSize offset))
        send (.seek offset)
        pure offset
    | .error _ => createFile path.toRemote
  else createFile path.toRemote

structure Upload where
  content : List UInt8
  handle : Option WriteHandle

/-- The requests are answered in this way, or with an error and to no effect. -/
def Answers (file : String) (before : Upload) : {β : Type} → SftpFileRequest β → Upload → Prop
  | _, .openKept path, after => path = file ∧ after = { before with handle := some ⟨before.content, 0⟩ }
  | _, .create path, after => path = file ∧ after = { before with handle := some ⟨[], 0⟩ }
  | _, .setSize size, after => after = { before with
      handle := before.handle.map fun handle => { handle with base := resized handle.base size } }
  | _, .seek position, after => after = { before with
      handle := before.handle.map fun handle => { handle with position } }

def serves (file : String) : Service Upload SftpFileRequest ProtocolError
  | _, before, asked, answer, after =>
    ((∃ value, answer = .ok value) ∧ Answers file before asked after) ∨
      (∃ err, answer = .error err) ∧ after = before

/-- The writer starts at the offset that is told. -/
def Starts (old : List UInt8) (requested : Nat) : Except ProtocolError Nat → Upload → Prop
  | .ok offset, upload => (offset = 0 ∨ offset = requested) ∧
      ∃ handle : WriteHandle, upload.handle = some handle ∧ handle.StartsAt old offset
  | .error _, _ => True

theorem createFile_spec (path : String) (old : List UInt8) (requested : Nat) :
    Ensures (serves path) (fun _ => True) (createFile path) (Starts old requested) := by
  apply ensures_bind (WhenOk fun _ upload =>
    ∃ handle : WriteHandle, upload.handle = some handle ∧ handle.StartsAt old 0)
  · apply ensures_send
    rintro before answer after - (⟨⟨value, rfl⟩, -, rfl⟩ | ⟨⟨err, rfl⟩, rfl⟩)
    · exact ⟨_, rfl, startsAt_empty old⟩
    · trivial
  · intro _
    exact ensures_done fun upload starts => ⟨.inl rfl, starts⟩
  · intro err upload _
    trivial

/-- The file that was opened without truncation holds what it held, at least up to
the offset. -/
def Kept (old : List UInt8) (offset : Nat) (upload : Upload) : Prop :=
  ∃ handle : WriteHandle, upload.handle = some handle ∧ offset ≤ handle.base.length ∧
    handle.base.length ≤ old.length ∧ handle.base.take offset = old.take offset

theorem setSize_spec (file : String) {old : List UInt8} {offset : Nat} :
    Ensures (serves file) (Kept old offset)
      (send (.setSize offset) : Program SftpFileRequest ProtocolError Unit)
      fun _ upload => Kept old offset upload := by
  apply ensures_send
  rintro before answer after ⟨handle, isHandle, within, short, kept⟩ (⟨-, rfl⟩ | ⟨-, rfl⟩)
  · refine ⟨{ handle with base := resized handle.base offset }, by simp [isHandle], ?_⟩
    rw [resized_eq_take within]
    refine ⟨by simp [within], ?_, by simp [kept]⟩
    exact (List.length_take_le _ _).trans (within.trans short)
  · exact ⟨handle, isHandle, within, short, kept⟩

theorem seek_spec (file : String) {old : List UInt8} {offset : Nat} :
    Ensures (serves file) (Kept old offset)
      (send (.seek offset) : Program SftpFileRequest ProtocolError Unit)
      (WhenOk fun _ upload =>
        ∃ handle : WriteHandle, upload.handle = some handle ∧ handle.StartsAt old offset) := by
  apply ensures_send
  rintro before answer after ⟨handle, isHandle, within, short, kept⟩
    (⟨⟨value, rfl⟩, rfl⟩ | ⟨⟨err, rfl⟩, rfl⟩)
  · exact ⟨{ handle with position := offset }, by simp [isHandle], rfl, within, short, kept⟩
  · trivial

theorem openWrite_spec (path : Path) {old : List UInt8} {offset : Nat}
    (within : offset ≤ old.length) :
    Ensures (serves path.toRemote) (fun upload => upload.content = old) (openWrite path offset)
      (Starts old offset) := by
  have created := createFile_spec path.toRemote old offset
  unfold openWrite
  split_ifs with positive
  · apply ensures_attempt_bind (WhenOk fun _ upload => Kept old offset upload)
    · apply ensures_send
      rintro before answer after rfl (⟨⟨value, rfl⟩, -, rfl⟩ | ⟨⟨err, rfl⟩, rfl⟩)
      · exact ⟨_, rfl, within, le_rfl, rfl⟩
      · trivial
    · intro result
      cases result with
      | error err => exact created
      | ok value =>
        apply ensures_attempt_bind (fun _ upload => Kept old offset upload)
          (setSize_spec path.toRemote)
        intro _
        apply ensures_bind _ (seek_spec path.toRemote)
        · intro _
          exact ensures_done fun upload starts => ⟨.inr rfl, starts⟩
        · intro err upload _
          trivial
  · exact created.strengthen fun _ _ => trivial

end SftpFs

/-! ### WebDAV -/

inductive DavRequest : Type → Type
  /-- A `PUT` of an empty body, whatever is replied to it. -/
  | putEmpty : DavRequest Unit

/-- `PatchUpload` with its first position, or `PutUpload`. -/
inductive DavWriter
  | patch (start : Nat)
  | put

namespace WebDavFs

def patchChunk : Nat := 4 * 1024 * 1024

/-- `open_write`, with the offset of the writer. -/
def openWrite (partialUpdate awaitsChallenge : Bool) (offset : Nat) :
    Program DavRequest ProtocolError (DavWriter × Nat) := do
  if offset > 0 ∧ partialUpdate then pure (.patch offset, offset)
  else
    if awaitsChallenge then
      send .putEmpty
      pure (.put, 0)
    else pure (.put, 0)

/-- The file before and after an empty body was sent. -/
def serves : Service (List UInt8) DavRequest ProtocolError
  | _, before, .putEmpty, _, after => after = before ∨ after = []

/-- The file after some patches. -/
def patched (content : List UInt8) (patches : List (Nat × List UInt8)) : List UInt8 :=
  patches.foldl (fun content patch => writtenAt content patch.1 patch.2) content

open Chunked

/-- The writer of the patches. -/
def patchUpload (start : Nat) : Made ProtocolError := .patch start patchChunk (by decide)

/-- What a file may hold when a writer has taken some bytes and was shut down with
success: the body of the request, or what the patches have made of it. -/
inductive Leaves (content : List UInt8) : DavWriter → List UInt8 → List UInt8 → Prop
  | put (bytes : List UInt8) : Leaves content .put bytes bytes
  | patch (start : Nat) (replies : Nat → Reply ProtocolError) (calls : List Chunked.Call)
      (noWrite : NoWriteAfterShutdown calls)
      (works : ∀ entry ∈ trace (patchUpload start).kind ((patchUpload start).writer replies) calls,
        entry.2.isFailed = false)
      (done : (call (patchUpload start).kind
        (after (patchUpload start).kind ((patchUpload start).writer replies) calls)
        .shutdown).2 = .done) :
      Leaves content (.patch start)
        (Chunked.accepted (trace (patchUpload start).kind ((patchUpload start).writer replies) calls))
        (patched content (starts (call (patchUpload start).kind
          (after (patchUpload start).kind ((patchUpload start).writer replies) calls)
          .shutdown).1.log))

theorem writtenAt_end (content bytes : List UInt8) :
    writtenAt content content.length bytes = content ++ bytes := by
  rw [writtenAt, resized_eq_take le_rfl, List.take_length, List.drop_eq_nil_of_le (by omega),
    List.append_nil]

theorem patched_of_consecutive {content : List UInt8} {patches : List (Nat × List UInt8)}
    {start : Nat} (atEnd : start = content.length)
    (consecutive : Consecutive (patchUpload start).kind start patches) :
    patched content patches = content ++ patches.flatMap Prod.snd := by
  induction patches using List.reverseRecOn with
  | nil => simp [patched]
  | append_singleton patches last ih =>
    have place : last.1 = (content ++ patches.flatMap Prod.snd).length := by
      rw [consecutive patches last [] rfl, atEnd, List.length_append, List.length_flatMap]
      rfl
    have earlier := ih (EachAfter.of_append consecutive)
    rw [patched] at earlier ⊢
    rw [List.foldl_append, earlier, List.foldl_cons, List.foldl_nil, place, writtenAt_end]
    simp

theorem patch_honours {old : List UInt8} {bytes left : List UInt8}
    (leaves : Leaves old (.patch old.length) bytes left) : left = old ++ bytes := by
  cases leaves with
  | patch _ replies calls noWrite works done =>
    have sound := (patchUpload old.length).sound_writer replies
    have isOpen := (patchUpload old.length).open_writer replies
    have soundAfter := sound.after works
    have complete := complete_of_done soundAfter (isOpen.after sound noWrite works) done
    have last := soundAfter.call (congrArg Outcome.isFailed done)
    rw [patched_of_consecutive rfl last.consecutive]
    exact congrArg _ complete.content

theorem openWrite_spec {partialUpdate awaitsChallenge : Bool} {old : List UInt8} {offset : Nat}
    (isEnd : offset = 0 ∨ offset = old.length) :
    Ensures serves (fun content => content = old) (openWrite partialUpdate awaitsChallenge offset)
      (WhenOk fun opened content => ∀ bytes left, Leaves content opened.1 bytes left →
        Honours old offset opened.2 bytes left) := by
  have put (pre : List UInt8 → Prop) :
      Ensures serves pre (pure (.put, 0) : Program DavRequest ProtocolError (DavWriter × Nat))
        (WhenOk fun opened content => ∀ bytes left, Leaves content opened.1 bytes left →
          Honours old offset opened.2 bytes left) := by
    apply ensures_done
    intro content _ bytes left leaves
    cases leaves
    exact ⟨.inl rfl, fun _ => rfl⟩
  unfold openWrite
  split_ifs with patches awaits
  · apply ensures_done
    rintro content rfl bytes left leaves
    obtain rfl := isEnd.resolve_left (by omega)
    refine ⟨.inr rfl, fun _ => ?_⟩
    rw [patch_honours leaves, List.take_length]
  · apply ensures_bind (fun _ _ => True)
    · exact ensures_send fun _ _ _ _ _ => trivial
    · exact fun _ => put _
    · exact fun _ _ _ => trivial
  · exact put _

end WebDavFs

/-! ### All of them -/

/-- The writer that each file system opens starts where it says, whatever the server
refuses. -/
theorem openWrite_honours (old : List UInt8) :
    (∀ (path : Path) (offset opened : Nat) (before after : FtpUpload),
      before.content = old → offset = 0 ∨ offset = old.length →
      (FtpFs.openWrite path offset).Runs (FtpUpload.serves path.toRemote) before (.ok opened) after →
      ∃ handle : WriteHandle, after.transfer = some handle ∧
        ∀ bytes, Honours old offset opened bytes (handle.written bytes)) ∧
    (∀ (path : Path) (offset opened : Nat) (before after : ScpUpload),
      before.content = old → offset = 0 ∨ offset = old.length →
      (ScpFs.openWrite path offset).Runs (ScpFs.serves path) before (.ok opened) after →
      ∃ handle : WriteHandle, after.handle = some handle ∧
        ∀ bytes, Honours old offset opened bytes (handle.written bytes)) ∧
    (∀ (path : Path) (offset opened : Nat) (before after : SftpFs.Upload),
      before.content = old → offset = 0 ∨ offset = old.length - SftpFs.resumeBackoff →
      (SftpFs.openWrite path offset).Runs (SftpFs.serves path.toRemote) before (.ok opened) after →
      ∃ handle : WriteHandle, after.handle = some handle ∧
        ∀ bytes, Honours old offset opened bytes (handle.written bytes)) ∧
    ∀ (partialUpdate awaitsChallenge : Bool) (offset opened : Nat) (writer : DavWriter)
      (after : List UInt8), offset = 0 ∨ offset = old.length →
      (WebDavFs.openWrite partialUpdate awaitsChallenge offset).Runs WebDavFs.serves old
        (.ok (writer, opened)) after →
      ∀ bytes left, WebDavFs.Leaves after writer bytes left →
        Honours old offset opened bytes left := by
  refine ⟨?_, ?_, ?_, ?_⟩
  · intro path offset opened before after isOld isEnd run
    obtain ⟨isRequested, handle, isHandle, starts⟩ :=
      (FtpFs.openWrite_spec path isEnd).of_run before _ after isOld run
    exact ⟨handle, isHandle, starts.honours isRequested⟩
  · intro path offset opened before after isOld isEnd run
    obtain ⟨rfl, handle, isHandle, starts⟩ :=
      (ScpFs.openWrite_spec path isEnd).of_run before _ after isOld run
    exact ⟨handle, isHandle, starts.honours (.inr rfl)⟩
  · intro path offset opened before after isOld isEnd run
    have within : offset ≤ old.length := by omega
    obtain ⟨isRequested, handle, isHandle, starts⟩ :=
      (SftpFs.openWrite_spec path within).of_run before _ after isOld run
    exact ⟨handle, isHandle, starts.honours isRequested⟩
  · intro partialUpdate awaitsChallenge offset opened writer after isEnd run
    exact (WebDavFs.openWrite_spec isEnd).of_run old _ after rfl run

end Porthmos
