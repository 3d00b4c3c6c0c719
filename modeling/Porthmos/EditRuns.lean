import Porthmos.EditSessions

/-!
# Edited content is not lost

From the moment an editor has gone nobody writes the file of its edit any more, so what an
inspection or an upload has found out about it stays true until the engine hears of it.
-/

namespace Porthmos

/-- Whether the message ends the download of the edit. -/
def EditMessage.prepares (editId : Nat) : EditMessage → Bool
  | .event (.prepared id _) => id = editId
  | _ => false

def EditMessage.editId : EditMessage → Nat
  | .event (.prepared id _) | .event (.inspected id _ _) | .event (.conflict id)
  | .event (.uploaded id _) | .taskPanicked id => id

namespace EditTask

variable {byte : Type*}

def isDownload : EditTask byte → Bool
  | statting | creating _ _ | fetching _ _ | securing _ _ | hashing _ _ => true
  | _ => false

end EditTask

/-- Whether the task downloads the edit. -/
def LiveEdit.prepares {byte : Type*} (editId : Nat) (live : LiveEdit byte) : Bool :=
  live.editId = editId && live.task.isDownload

namespace Edits

variable {byte : Type*} {hashFile : List byte → Nat} {edits after : Edits byte} {editId : Nat}

/-- The number of tasks and messages of the download of an edit. -/
def preparing (edits : Edits byte) (editId : Nat) : Nat :=
  edits.tasks.total (fun _ live => if live.prepares editId then 1 else 0) +
    edits.internal.countP (EditMessage.prepares editId)

/-- The file of the edit, if it is there, hashes to the baseline, if there is one. -/
def Unchanged (hashFile : List byte → Nat) (edits : Edits byte) (editId : Nat) : Prop :=
  ∀ baseline contents, edits.baselines editId = some baseline → edits.fileOf editId = some contents →
    hashFile contents = baseline.hash

/-- The path is the one of the remote file, or that of a copy beside it. -/
def IsTarget (edits : Edits byte) (editId : Nat) (target : Path) : Prop :=
  ∃ remote name, edits.originals editId = some (remote, name) ∧
    (target = remote ∨ ∃ stamp, target = remote.withFileName (conflictCopyName name stamp))

/-- The edit was uploaded with these contents. -/
def IsStored (edits : Edits byte) (editId : Nat) (contents : List byte) : Prop :=
  ∃ entry ∈ edits.stored, entry.editId = editId ∧ entry.contents = contents ∧
    edits.IsTarget editId entry.target

/-- An upload has stored the file as it is. -/
def StoredWhole (edits : Edits byte) (editId : Nat) : Prop :=
  ∀ contents, edits.fileOf editId = some contents → edits.IsStored editId contents

/-- An upload is about the remote file of its edit. -/
def Aims (edits : Edits byte) (editId : Nat) (job : UploadJob) : Prop :=
  edits.originals editId = some (job.remote, job.name)

theorem Aims.isTarget {job : UploadJob} (aims : edits.Aims editId job) :
    edits.IsTarget editId job.target := by
  refine ⟨job.remote, job.name, aims, ?_⟩
  unfold UploadJob.target
  cases job.mode with
  | copy => exact Or.inr ⟨job.stamp, rfl⟩
  | checked | forced => exact Or.inl rfl

/-- What a task has learned. -/
def TaskFits (edits : Edits byte) (live : LiveEdit byte) : Prop :=
  match live.task with
  | .statting | .creating _ _ | .fetching _ _ | .securing _ _ | .hashing _ _ =>
    edits.editors live.editId = .idle ∧ edits.baselines live.editId = none
  | .inspecting baseline _ =>
    edits.editors live.editId = .exited ∧ edits.baselines live.editId = some baseline
  | .checking job | .probing job | .opening job =>
    edits.editors live.editId = .exited ∧ edits.Aims live.editId job
  | .copying job left sent =>
    edits.editors live.editId = .exited ∧ edits.Aims live.editId job ∧
      ∀ contents, edits.fileOf live.editId = some contents → sent ++ left = contents
  | .closing job sent =>
    edits.editors live.editId = .exited ∧ edits.Aims live.editId job ∧
      ∀ contents, edits.fileOf live.editId = some contents → sent = contents

/-- What a message says. -/
def MessageFits (hashFile : List byte → Nat) (edits : Edits byte) : EditMessage → Prop
  | .event (.prepared editId (.ready baseline)) =>
    edits.editors editId = .idle ∧ edits.baselines editId = some baseline
  | .event (.prepared _ _) | .taskPanicked _ => True
  | .event (.inspected editId changed _) =>
    edits.editors editId = .exited ∧ (changed = some false → edits.Unchanged hashFile editId)
  | .event (.conflict editId) => edits.editors editId = .exited
  | .event (.uploaded editId stored) =>
    edits.editors editId = .exited ∧ (stored = true → edits.StoredWhole editId)

/-- What a session has. -/
structure SessionFits (edits : Edits byte) (editId : Nat) (session : EditSession) : Prop where
  original : edits.originals editId = some (session.remotePath, session.name)
  baseline : session.temp = true →
    ∃ baseline, session.baseline = some baseline ∧ edits.baselines editId = some baseline
  started : session.temp = true ∨ session.awaitingEditor = true → edits.editors editId ≠ .idle
  pending : session.pending ≠ none → edits.editors editId = .exited
  onThisSide : session.location = .local → session.temp = false ∧ edits.editors editId ≠ .idle

/-- What holds of the edits while everybody takes steps. -/
structure Safe (hashFile : List byte → Nat) (edits : Edits byte) : Prop where
  sessions_lt : ∀ id session, edits.sessions.get? id = some session → id < edits.nextId
  tasks_lt : ∀ key live, edits.tasks.get? key = some live →
    key < edits.nextTask ∧ live.editId < edits.nextId
  internal_lt : ∀ message ∈ edits.internal, message.editId < edits.nextId
  fresh : ∀ id, edits.nextId ≤ id → edits.editors id = .idle ∧ edits.baselines id = none
  once : ∀ id, edits.preparing id ≤ 1
  unchanged : ∀ id, edits.editors id = .idle ∨ edits.editors id = .ready →
    edits.Unchanged hashFile id
  sessions : ∀ id session, edits.sessions.get? id = some session → edits.SessionFits id session
  tasks : ∀ key live, edits.tasks.get? key = some live → edits.TaskFits live
  internal : ∀ message ∈ edits.internal, edits.MessageFits hashFile message

/-! ### Parts of the state -/

/-- What is known of an edit stays true. -/
structure Carries (edits after : Edits byte) (editId : Nat) : Prop where
  originals : after.originals editId = edits.originals editId
  baselines : after.baselines editId = edits.baselines editId
  idle : edits.editors editId = .idle ↔ after.editors editId = .idle
  exited : edits.editors editId = .exited → after.editors editId = .exited
  file : edits.editors editId = .exited → ∀ contents, after.fileOf editId = some contents →
    edits.fileOf editId = some contents

/-- The engine has not asked for the editor, and no download of the edit is under way. -/
def Quiet (edits : Edits byte) (editId : Nat) : Prop :=
  edits.editors editId = .idle ∧ edits.preparing editId = 0

theorem TaskFits.carry {live : LiveEdit byte} (fits : edits.TaskFits live)
    (carries : edits.Carries after live.editId) : after.TaskFits live := by
  unfold TaskFits at fits ⊢
  split at fits
  · exact ⟨carries.idle.mp fits.1, carries.baselines.trans fits.2⟩
  · exact ⟨carries.idle.mp fits.1, carries.baselines.trans fits.2⟩
  · exact ⟨carries.idle.mp fits.1, carries.baselines.trans fits.2⟩
  · exact ⟨carries.idle.mp fits.1, carries.baselines.trans fits.2⟩
  · exact ⟨carries.idle.mp fits.1, carries.baselines.trans fits.2⟩
  · exact ⟨carries.exited fits.1, carries.baselines.trans fits.2⟩
  · exact ⟨carries.exited fits.1, carries.originals.trans fits.2⟩
  · exact ⟨carries.exited fits.1, carries.originals.trans fits.2⟩
  · exact ⟨carries.exited fits.1, carries.originals.trans fits.2⟩
  · exact ⟨carries.exited fits.1, carries.originals.trans fits.2.1, fun contents isFile =>
      fits.2.2 contents (carries.file fits.1 contents isFile)⟩
  · exact ⟨carries.exited fits.1, carries.originals.trans fits.2.1, fun contents isFile =>
      fits.2.2 contents (carries.file fits.1 contents isFile)⟩

theorem MessageFits.carry {message : EditMessage} (fits : edits.MessageFits hashFile message)
    (carries : edits.Carries after message.editId) (stored : edits.stored ⊆ after.stored) :
    after.MessageFits hashFile message := by
  cases message with
  | taskPanicked editId => trivial
  | event event =>
    cases event with
    | prepared editId result =>
      cases result with
      | ready baseline => exact ⟨carries.idle.mp fits.1, carries.baselines.trans fits.2⟩
      | cancelled | failed => trivial
    | inspected editId changed aborted =>
      refine ⟨carries.exited fits.1, fun same baseline contents isBaseline isFile => ?_⟩
      exact fits.2 same baseline contents (carries.baselines ▸ isBaseline)
        (carries.file fits.1 contents isFile)
    | conflict editId => exact carries.exited fits
    | uploaded editId isStored =>
      refine ⟨carries.exited fits.1, fun ok contents isFile => ?_⟩
      obtain ⟨entry, member, same, whole, remote, name, isOriginal, aims⟩ :=
        fits.2 ok contents (carries.file fits.1 contents isFile)
      exact ⟨entry, stored member, same, whole, remote, name,
        carries.originals.trans isOriginal, aims⟩

theorem SessionFits.carry {session : EditSession} (fits : edits.SessionFits editId session)
    (carries : edits.Carries after editId) : after.SessionFits editId session where
  original := carries.originals.trans fits.original
  baseline := fun temp => by
    obtain ⟨baseline, isBaseline, known⟩ := fits.baseline temp
    exact ⟨baseline, isBaseline, carries.baselines.trans known⟩
  started := fun started idle => fits.started started (carries.idle.mpr idle)
  pending := fun pending => carries.exited (fits.pending pending)
  onThisSide := fun isLocal => ⟨(fits.onThisSide isLocal).1, fun idle =>
    (fits.onThisSide isLocal).2 (carries.idle.mpr idle)⟩

theorem preparing_pos_of_task {key : Nat} {live : LiveEdit byte}
    (found : edits.tasks.get? key = some live) (prepares : live.prepares editId = true) :
    0 < edits.preparing editId := by
  have counted := OrderedMap.le_total (fun _ live => if live.prepares editId then 1 else 0) found
  rw [if_pos prepares] at counted
  unfold preparing
  omega

theorem preparing_pos_of_message {message : EditMessage} (member : message ∈ edits.internal)
    (prepares : message.prepares editId = true) : 0 < edits.preparing editId := by
  have counted := List.countP_pos_iff.mpr ⟨message, member, prepares⟩
  unfold preparing
  omega

theorem Quiet.task_ne (quiet : edits.Quiet editId) {key : Nat} {live : LiveEdit byte}
    (found : edits.tasks.get? key = some live) (fits : edits.TaskFits live) :
    live.editId ≠ editId := by
  rintro rfl
  obtain ⟨idle, none⟩ := quiet
  by_cases download : live.task.isDownload = true
  · have prepares : live.prepares live.editId = true := by
      rw [LiveEdit.prepares, download, decide_eq_true rfl]
      rfl
    exact absurd none (preparing_pos_of_task found prepares).ne'
  · unfold TaskFits at fits
    split at fits <;> first
      | (next stage => rw [stage] at download; exact download rfl)
      | (rw [idle] at fits; simp at fits)

theorem Quiet.message (quiet : edits.Quiet editId) {message : EditMessage}
    (member : message ∈ edits.internal) (fits : edits.MessageFits hashFile message)
    (same : message.editId = editId) : after.MessageFits hashFile message := by
  subst same
  obtain ⟨idle, none⟩ := quiet
  have ended : edits.editors message.editId ≠ .exited := by
    rw [idle]
    exact nofun
  cases message with
  | taskPanicked editId => trivial
  | event event =>
    cases event with
    | prepared editId result =>
      exact absurd none (preparing_pos_of_message member (decide_eq_true rfl)).ne'
    | inspected editId changed aborted => exact absurd fits.1 ended
    | conflict editId => exact absurd fits ended
    | uploaded editId isStored => exact absurd fits.1 ended

theorem Quiet.session (quiet : edits.Quiet editId) {session : EditSession}
    (fits : edits.SessionFits editId session)
    (original : after.originals editId = some (session.remotePath, session.name)) :
    after.SessionFits editId session where
  original := original
  baseline := fun temp => absurd quiet.1 (fits.started (Or.inl temp))
  started := fun started => absurd quiet.1 (fits.started started)
  pending := fun pending => by
    have exited := fits.pending pending
    rw [quiet.1] at exited
    cases exited
  onThisSide := fun isLocal => absurd quiet.1 (fits.onThisSide isLocal).2

namespace Safe

theorem withSessions (safe : edits.Safe hashFile) {sessions : OrderedMap Nat EditSession}
    (each : ∀ id session, sessions.get? id = some session →
      id < edits.nextId ∧ edits.SessionFits id session) :
    ({ edits with sessions := sessions }).Safe hashFile where
  sessions_lt := fun id session found => (each id session found).1
  tasks_lt := safe.tasks_lt
  internal_lt := safe.internal_lt
  fresh := safe.fresh
  once := safe.once
  unchanged := safe.unchanged
  sessions := fun id session found =>
    ⟨(each id session found).2.original, (each id session found).2.baseline, (each id session found).2.started,
      (each id session found).2.pending, (each id session found).2.onThisSide⟩
  tasks := safe.tasks
  internal := fun message member =>
    (safe.internal message member).carry ⟨rfl, rfl, Iff.rfl, fun exited => exited, fun _ _ file => file⟩
      (List.Subset.refl _)

theorem removeSession (safe : edits.Safe hashFile) (editId : Nat) :
    (edits.removeSession editId).Safe hashFile := by
  apply safe.withSessions
  intro id session found
  rw [OrderedMap.get?_erase] at found
  split_ifs at found
  exact ⟨safe.sessions_lt id session found, safe.sessions id session found⟩

theorem setSession (safe : edits.Safe hashFile) {session : EditSession} (lt : editId < edits.nextId)
    (fits : edits.SessionFits editId session) : (edits.setSession editId session).Safe hashFile := by
  apply safe.withSessions
  intro id other found
  rcases OrderedMap.get?_insert_cases found with ⟨rfl, rfl⟩ | ⟨_, earlier⟩
  · exact ⟨lt, fits⟩
  · exact ⟨safe.sessions_lt id other earlier, safe.sessions id other earlier⟩

/-- Tasks and messages come and go, and none of them joins a download. -/
theorem withWork (safe : edits.Safe hashFile) {tasks : OrderedMap Nat (LiveEdit byte)}
    {nextTask : Nat} {internal : List EditMessage}
    (eachTask : ∀ key live, tasks.get? key = some live →
      key < nextTask ∧ live.editId < edits.nextId ∧ edits.TaskFits live)
    (eachMessage : ∀ message ∈ internal,
      message.editId < edits.nextId ∧ edits.MessageFits hashFile message)
    (once : ∀ id, ({ edits with tasks, nextTask, internal }).preparing id ≤ 1) :
    ({ edits with tasks, nextTask, internal }).Safe hashFile where
  sessions_lt := safe.sessions_lt
  tasks_lt := fun key live found => ⟨(eachTask key live found).1, (eachTask key live found).2.1⟩
  internal_lt := fun message member => (eachMessage message member).1
  fresh := safe.fresh
  once := once
  unchanged := safe.unchanged
  sessions := fun id session found =>
    (safe.sessions id session found).carry ⟨rfl, rfl, Iff.rfl, fun exited => exited, fun _ _ file => file⟩
  tasks := fun key live found =>
    (eachTask key live found).2.2.carry ⟨rfl, rfl, Iff.rfl, fun exited => exited, fun _ _ file => file⟩
  internal := fun message member =>
    (eachMessage message member).2.carry ⟨rfl, rfl, Iff.rfl, fun exited => exited, fun _ _ file => file⟩
      (List.Subset.refl _)

/-- The folders and editors of the edits change, and what is known of them stays true. -/
theorem withState (safe : edits.Safe hashFile) {folders : Nat → Option (EditFolder byte)}
    {editors : Nat → Editor} {baselines : Nat → Option Baseline} {stored : List (StoredEdit byte)}
    (carries : ∀ id, edits.Carries { edits with folders, editors, baselines, stored } id ∨
      edits.Quiet id)
    (grown : edits.stored ⊆ stored)
    (fresh : ∀ id, edits.nextId ≤ id → editors id = .idle ∧ baselines id = none)
    (unchanged : ∀ id, editors id = .idle ∨ editors id = .ready →
      ({ edits with folders, editors, baselines, stored }).Unchanged hashFile id) :
    ({ edits with folders, editors, baselines, stored }).Safe hashFile where
  sessions_lt := safe.sessions_lt
  tasks_lt := safe.tasks_lt
  internal_lt := safe.internal_lt
  fresh := fresh
  once := safe.once
  unchanged := unchanged
  sessions := fun id session found => by
    rcases carries id with carries | quiet
    · exact (safe.sessions id session found).carry carries
    · exact quiet.session (safe.sessions id session found) (safe.sessions id session found).original
  tasks := fun key live found => by
    rcases carries live.editId with carries | quiet
    · exact (safe.tasks key live found).carry carries
    · exact absurd rfl (quiet.task_ne found (safe.tasks key live found))
  internal := fun message member => by
    rcases carries message.editId with carries | quiet
    · exact (safe.internal message member).carry carries grown
    · exact quiet.message member (safe.internal message member) rfl

theorem withMarks (safe : edits.Safe hashFile) (cancelled connected : OrderedSet Nat) :
    ({ edits with cancelled, connected }).Safe hashFile := by
  have same (id : Nat) : edits.Carries { edits with cancelled, connected } id :=
    ⟨rfl, rfl, Iff.rfl, fun exited => exited, fun _ _ file => file⟩
  exact ⟨safe.sessions_lt, safe.tasks_lt, safe.internal_lt, safe.fresh, safe.once, safe.unchanged,
    fun id session found => (safe.sessions id session found).carry (same id),
    fun key live found => (safe.tasks key live found).carry (same live.editId),
    fun message member =>
      (safe.internal message member).carry (same message.editId) (List.Subset.refl _)⟩

theorem forget (safe : edits.Safe hashFile) (editId : Nat) : (edits.forget editId).Safe hashFile :=
  safe.withMarks (edits.cancelled.erase editId) edits.connected

theorem removeDir (safe : edits.Safe hashFile) (editId : Nat) :
    (edits.removeDir editId).Safe hashFile := by
  have file (id : Nat) (contents : List byte)
      (isFile : (edits.removeDir editId).fileOf id = some contents) :
      edits.fileOf id = some contents := by
    unfold fileOf Edits.removeDir at isFile
    dsimp only at isFile
    rw [Function.update_apply] at isFile
    split_ifs at isFile
    · cases isFile
    · exact isFile
  exact safe.withState
    (fun id => Or.inl ⟨rfl, rfl, Iff.rfl, fun exited => exited, fun _ => file id⟩) (List.Subset.refl _)
    safe.fresh fun id early baseline contents isBaseline isFile =>
      safe.unchanged id early baseline contents isBaseline (file id contents isFile)

/-- An editor that the engine has asked for runs or goes. -/
theorem setEditor (safe : edits.Safe hashFile) (started : edits.editors editId ≠ .idle)
    {editor : Editor} (isNext : editor = .running ∨ editor = .exited)
    (stays : edits.editors editId = .exited → editor = .exited) :
    (edits.setEditor editId editor).Safe hashFile := by
  have value (id : Nat) : (edits.setEditor editId editor).editors id =
      if id = editId then editor else edits.editors id := Function.update_apply ..
  have late : editor ≠ .idle ∧ editor ≠ .ready := by
    rcases isNext with rfl | rfl <;> exact ⟨nofun, nofun⟩
  have lt : editId < edits.nextId := by
    by_contra notLt
    exact started (safe.fresh editId (not_lt.mp notLt)).1
  apply safe.withState
  · intro id
    left
    by_cases same : id = editId
    · subst same
      have isEditor := (value id).trans (if_pos rfl)
      refine ⟨rfl, rfl, ⟨fun idle => absurd idle started, fun idle => ?_⟩, fun exited => ?_,
        fun _ _ isFile => isFile⟩
      · exact absurd (isEditor.symm.trans idle) late.1
      · exact isEditor.trans (stays exited)
    · have isEditor := (value id).trans (if_neg same)
      exact ⟨rfl, rfl, iff_of_eq (congrArg (· = Editor.idle) isEditor.symm), isEditor.trans,
        fun _ _ isFile => isFile⟩
  · exact List.Subset.refl _
  · intro id unused
    refine ⟨?_, (safe.fresh id unused).2⟩
    exact ((value id).trans (if_neg (by omega))).trans (safe.fresh id unused).1
  · intro id early
    by_cases same : id = editId
    · subst same
      have isEditor := (value id).trans (if_pos rfl)
      rcases early with idle | ready
      · exact absurd (isEditor.symm.trans idle) late.1
      · exact absurd (isEditor.symm.trans ready) late.2
    · have isEditor := (value id).trans (if_neg same)
      exact safe.unchanged id (early.imp isEditor.symm.trans isEditor.symm.trans)

theorem dropEdit (safe : edits.Safe hashFile) (editId : Nat) : (edits.dropEdit editId).Safe hashFile := by
  unfold Edits.dropEdit
  cases edits.sessions.get? editId with
  | none => exact safe.forget editId
  | some session =>
    dsimp only
    split_ifs
    · exact ((safe.forget editId).removeSession editId).removeDir editId
    · exact (safe.forget editId).removeSession editId

theorem keepEdit (safe : edits.Safe hashFile) (editId : Nat) : (edits.keepEdit editId).Safe hashFile :=
  (safe.forget editId).removeSession editId

theorem askEdit (safe : edits.Safe hashFile) (exited : edits.editors editId = .exited)
    (kind : EditQuestionKind) : (edits.askEdit editId kind).Safe hashFile := by
  unfold Edits.askEdit
  cases found : edits.sessions.get? editId with
  | none => exact safe
  | some session =>
    have fits := safe.sessions editId session found
    exact safe.setSession (safe.sessions_lt editId session found)
      ⟨fits.original, fits.baseline, fits.started, fun _ => exited, fits.onThisSide⟩

theorem spawn (safe : edits.Safe hashFile) (lt : editId < edits.nextId) {task : EditTask byte}
    (fits : edits.TaskFits ⟨editId, false, task⟩) (later : task.isDownload = false) :
    (edits.spawn editId task).Safe hashFile := by
  have fresh : edits.tasks.get? edits.nextTask = none := by
    rw [Option.eq_none_iff_forall_ne_some]
    exact fun live found => lt_irrefl _ (safe.tasks_lt _ live found).1
  apply safe.withWork
  · intro key live found
    rcases OrderedMap.get?_insert_cases found with ⟨rfl, rfl⟩ | ⟨_, earlier⟩
    · exact ⟨Nat.lt_succ_self _, lt, fits⟩
    · have before := safe.tasks_lt key live earlier
      exact ⟨Nat.lt_succ_of_lt before.1, before.2, safe.tasks key live earlier⟩
  · exact fun message member => ⟨safe.internal_lt message member, safe.internal message member⟩
  · intro id
    have added := OrderedMap.total_insert_new fresh
      (fun _ live => if live.prepares id then 1 else 0) (⟨editId, false, task⟩ : LiveEdit byte)
    have once := safe.once id
    unfold LiveEdit.prepares at added
    dsimp only at added
    rw [later, Bool.and_false] at added
    unfold preparing LiveEdit.prepares at once ⊢
    dsimp only
    rw [added]
    exact once

theorem startUpload (safe : edits.Safe hashFile) (exited : edits.editors editId = .exited)
    (mode : UploadMode) (stamp : String) : (edits.startUpload editId mode stamp).Safe hashFile := by
  unfold Edits.startUpload
  cases found : edits.sessions.get? editId with
  | none => exact safe
  | some session =>
    dsimp only
    split
    · next baseline _ _ =>
        have fits := safe.sessions editId session found
        have lt := safe.sessions_lt editId session found
        have saving : (edits.setSession editId { session with saving := true }).Safe hashFile :=
          safe.setSession lt ⟨fits.original, fits.baseline, fits.started, fits.pending, fits.onThisSide⟩
        split_ifs
        · apply saving.spawn lt
          · have aims : edits.Aims editId ⟨session.remotePath, baseline, session.name, mode, stamp⟩ :=
              fits.original
            cases mode <;> exact ⟨exited, aims⟩
          · cases mode <;> rfl
        · exact saving.keepEdit editId
    · exact safe

theorem inspectEdit (safe : edits.Safe hashFile) (exited : edits.editors editId = .exited)
    (aborted : Option Int) : (edits.inspectEdit editId aborted).Safe hashFile := by
  unfold Edits.inspectEdit
  cases found : edits.sessions.get? editId with
  | none => exact safe
  | some session =>
    have fits := safe.sessions editId session found
    have lt := safe.sessions_lt editId session found
    have saving : (edits.setSession editId { session with saving := true }).Safe hashFile :=
      safe.setSession lt ⟨fits.original, fits.baseline, fits.started, fits.pending, fits.onThisSide⟩
    dsimp only
    split
    · next baseline temp isBaseline =>
        obtain ⟨_, same, known⟩ := fits.baseline temp
        rw [isBaseline] at same
        cases same
        exact saving.spawn lt ⟨exited, known⟩ rfl
    · exact saving.dropEdit editId

/-! ### Tasks -/

theorem preparing_erase {key : Nat} {live : LiveEdit byte} (found : edits.tasks.get? key = some live)
    (id : Nat) : (edits.tasks.erase key).total (fun _ live => if live.prepares id then 1 else 0) +
      (if live.prepares id then 1 else 0) =
        edits.tasks.total fun _ live => if live.prepares id then 1 else 0 :=
  OrderedMap.total_erase_add found fun _ live => if live.prepares id then 1 else 0

theorem abort (safe : edits.Safe hashFile) (key : Nat) : (edits.abort key).Safe hashFile := by
  apply safe.withWork
  · intro other live found
    rw [OrderedMap.get?_erase] at found
    split_ifs at found
    have before := safe.tasks_lt other live found
    exact ⟨before.1, before.2, safe.tasks other live found⟩
  · exact fun message member => ⟨safe.internal_lt message member, safe.internal message member⟩
  · intro id
    have removed := OrderedMap.total_erase edits.tasks
      (fun _ live => if live.prepares id then 1 else 0) key
    have once := safe.once id
    unfold preparing at once ⊢
    dsimp only
    omega

/-- A task ends with a message that is true. -/
theorem endTask (safe : edits.Safe hashFile) {key : Nat} {live : LiveEdit byte}
    (found : edits.tasks.get? key = some live) {message : EditMessage}
    (same : message.editId = live.editId) (fits : edits.MessageFits hashFile message)
    (prepares : message.prepares live.editId = true → live.task.isDownload = true) :
    (edits.endTask key message).Safe hashFile := by
  have before := safe.tasks_lt key live found
  apply safe.withWork
  · intro other last isLast
    rw [OrderedMap.get?_erase] at isLast
    split_ifs at isLast
    have earlier := safe.tasks_lt other last isLast
    exact ⟨earlier.1, earlier.2, safe.tasks other last isLast⟩
  · intro other member
    rcases List.mem_append.mp member with earlier | isNew
    · exact ⟨safe.internal_lt other earlier, safe.internal other earlier⟩
    · cases List.mem_singleton.mp isNew
      exact ⟨same ▸ before.2, fits⟩
  · intro id
    have removed := preparing_erase found id
    have once := safe.once id
    unfold preparing at once ⊢
    dsimp only
    rw [List.countP_append, List.countP_singleton]
    by_cases isPrepared : message.prepares id = true
    · have isId : live.editId = id := by
        rw [← same]
        cases message with
        | taskPanicked => cases isPrepared
        | event event =>
          cases event with
          | prepared => exact of_decide_eq_true isPrepared
          | inspected | conflict | uploaded => cases isPrepared
      subst isId
      have download : live.prepares live.editId = true := by
        rw [LiveEdit.prepares, prepares isPrepared, decide_eq_true rfl]
        rfl
      rw [if_pos download] at removed
      rw [if_pos isPrepared]
      omega
    · rw [if_neg isPrepared]
      omega

theorem setTask (safe : edits.Safe hashFile) {key : Nat} {live : LiveEdit byte}
    (found : edits.tasks.get? key = some live) {task : EditTask byte}
    (fits : edits.TaskFits { live with task }) (download : task.isDownload = live.task.isDownload) :
    (edits.setTask key live task).Safe hashFile := by
  have before := safe.tasks_lt key live found
  apply safe.withWork
  · intro other last isLast
    rcases OrderedMap.get?_insert_cases isLast with ⟨rfl, rfl⟩ | ⟨_, isLast⟩
    · exact ⟨before.1, before.2, fits⟩
    · have earlier := safe.tasks_lt other last isLast
      exact ⟨earlier.1, earlier.2, safe.tasks other last isLast⟩
  · exact fun message member => ⟨safe.internal_lt message member, safe.internal message member⟩
  · intro id
    have kept : (edits.tasks.insert key { live with task }).total
        (fun _ live => if live.prepares id then 1 else 0) =
          edits.tasks.total fun _ live => if live.prepares id then 1 else 0 := by
      apply OrderedMap.total_insert_of_eq found
      unfold LiveEdit.prepares
      rw [download]
    have once := safe.once id
    unfold preparing at once ⊢
    dsimp only
    omega

theorem panic (safe : edits.Safe hashFile) (key : Nat) : (edits.panic key).Safe hashFile := by
  unfold Edits.panic
  cases found : edits.tasks.get? key with
  | none => exact safe
  | some live => exact safe.endTask found rfl trivial nofun

/-- A file is written before the baseline is known, or while the editor runs. -/
theorem setFile (safe : edits.Safe hashFile) (stays : edits.editors editId ≠ .exited)
    (unknown : edits.editors editId = .idle ∨ edits.editors editId = .ready →
      edits.baselines editId = none) (file : Option (List byte)) :
    (edits.setFile editId file).Safe hashFile := by
  have others (id : Nat) (different : id ≠ editId) :
      (edits.setFile editId file).fileOf id = edits.fileOf id := by
    unfold fileOf Edits.setFile
    dsimp only
    rw [Function.update_of_ne different]
  apply safe.withState
  · intro id
    left
    refine ⟨rfl, rfl, Iff.rfl, fun exited => exited, fun exited contents isFile => ?_⟩
    rw [← others id, ← isFile]
    · rfl
    · rintro rfl
      exact stays exited
  · exact List.Subset.refl _
  · exact safe.fresh
  · intro id early baseline contents isBaseline isFile
    apply safe.unchanged id early baseline contents isBaseline
    rw [← others id, ← isFile]
    · rfl
    · rintro rfl
      rw [show edits.baselines id = some baseline from isBaseline] at unknown
      cases unknown early

theorem endPrepare (safe : edits.Safe hashFile) {key : Nat} {live : LiveEdit byte}
    (found : edits.tasks.get? key = some live) (download : live.task.isDownload = true)
    (created : Bool) {result : Prepared} (failed : ∀ baseline, result ≠ .ready baseline) :
    (edits.endPrepare key live.editId created result).Safe hashFile := by
  unfold Edits.endPrepare
  have fits (edits : Edits byte) :
      edits.MessageFits hashFile (.event (.prepared live.editId result)) := by
    cases result with
    | ready baseline => exact absurd rfl (failed baseline)
    | cancelled | failed => trivial
  cases created with
  | false => exact safe.endTask found rfl (fits _) fun _ => download
  | true =>
    have removed := safe.removeDir live.editId
    exact removed.endTask found rfl (fits _) fun _ => download

/-- A message that is true is sent. -/
theorem send (safe : edits.Safe hashFile) {message : EditMessage} (lt : message.editId < edits.nextId)
    (fits : edits.MessageFits hashFile message)
    (first : ∀ id, message.prepares id = true → edits.preparing id = 0) :
    ({ edits with internal := edits.internal ++ [message] }).Safe hashFile := by
  apply safe.withWork
  · exact fun key live found =>
      ⟨(safe.tasks_lt key live found).1, (safe.tasks_lt key live found).2, safe.tasks key live found⟩
  · intro other member
    rcases List.mem_append.mp member with earlier | isNew
    · exact ⟨safe.internal_lt other earlier, safe.internal other earlier⟩
    · cases List.mem_singleton.mp isNew
      exact ⟨lt, fits⟩
  · intro id
    have once := safe.once id
    have none := first id
    unfold preparing at once none ⊢
    dsimp only
    rw [List.countP_append, List.countP_singleton]
    split_ifs with prepares
    · have := none prepares
      omega
    · exact once

/-- The downloaded file is hashed. -/
theorem hash (safe : edits.Safe hashFile) {key : Nat} {live : LiveEdit byte}
    (found : edits.tasks.get? key = some live) (download : live.task.isDownload = true)
    (idle : edits.editors live.editId = .idle) {contents : List byte}
    (isFile : edits.fileOf live.editId = some contents) {baseline : Baseline}
    (isHash : hashFile contents = baseline.hash) :
    ({ edits with baselines := Function.update edits.baselines live.editId (some baseline)
      }.endTask key (.event (.prepared live.editId (.ready baseline)))).Safe hashFile := by
  have before := safe.tasks_lt key live found
  have prepares : live.prepares live.editId = true := by
    rw [LiveEdit.prepares, download, decide_eq_true rfl]
    rfl
  have quiet : (edits.abort key).Quiet live.editId := by
    have removed := preparing_erase found live.editId
    have once := safe.once live.editId
    rw [if_pos prepares] at removed
    unfold preparing at once
    refine ⟨idle, ?_⟩
    unfold preparing Edits.abort
    dsimp only
    omega
  have known : ({ edits.abort key with
      baselines := Function.update edits.baselines live.editId (some baseline) }).Safe hashFile := by
    apply (safe.abort key).withState
    · intro id
      by_cases same : id = live.editId
      · exact Or.inr (same ▸ quiet)
      · exact Or.inl ⟨rfl, Function.update_of_ne same _ _, Iff.rfl, fun exited => exited,
          fun _ _ isFile => isFile⟩
    · exact List.Subset.refl _
    · intro id unused
      refine ⟨(safe.fresh id unused).1, ?_⟩
      rw [Function.update_of_ne (by have := before.2; change edits.nextId ≤ id at unused; omega)]
      exact (safe.fresh id unused).2
    · intro id early other bytes isBaseline isBytes
      change Function.update edits.baselines live.editId (some baseline) id = some other at isBaseline
      rw [Function.update_apply] at isBaseline
      split_ifs at isBaseline with same
      · subst same
        cases isBaseline
        rw [show edits.fileOf live.editId = some bytes from isBytes] at isFile
        cases isFile
        exact isHash
      · exact safe.unchanged id early other bytes isBaseline isBytes
  apply known.send
  · exact before.2
  · exact ⟨idle, Function.update_self ..⟩
  · intro id isPrepared
    cases of_decide_eq_true isPrepared
    exact quiet.2

theorem work (safe : edits.Safe hashFile) (key : Nat) (answer : EditAnswer byte) :
    (edits.work hashFile key answer).Safe hashFile := by
  unfold Edits.work
  cases found : edits.tasks.get? key with
  | none => exact safe
  | some live =>
    have fits := safe.tasks key live found
    obtain ⟨editId, cancel, task⟩ := live
    have failed (exited : edits.editors editId = .exited) :
        (edits.endTask key (.event (.uploaded editId false))).Safe hashFile :=
      safe.endTask found rfl ⟨exited, nofun⟩ nofun
    cases task with
    | statting =>
      dsimp only
      split_ifs
      · exact safe.setTask found fits rfl
      · exact safe.endPrepare found rfl false nofun
    | creating size modified =>
      dsimp only
      split_ifs
      · have stays : edits.editors editId ≠ .exited := fits.1.symm ▸ nofun
        have written := safe.setFile stays (fun _ => fits.2) none
        exact written.setTask found fits rfl
      · exact safe.endPrepare found rfl false nofun
    | fetching size modified =>
      dsimp only
      split_ifs
      · exact safe.endPrepare found rfl true nofun
      · have stays : edits.editors editId ≠ .exited := fits.1.symm ▸ nofun
        have written := safe.setFile stays (fun _ => fits.2) (some answer.bytes)
        exact written.setTask found fits rfl
      · exact safe.endPrepare found rfl true nofun
    | securing size modified =>
      dsimp only
      split_ifs
      · exact safe.setTask found fits rfl
      · exact safe.endPrepare found rfl true nofun
    | hashing size modified =>
      dsimp only
      split
      · next contents _ isFile => exact safe.hash found rfl fits.1 isFile rfl
      · exact safe.endPrepare found rfl true nofun
    | inspecting baseline aborted =>
      dsimp only
      refine safe.endTask found rfl ?_ nofun
      refine ⟨fits.1, fun same other contents isBaseline isFile => ?_⟩
      rw [fits.2] at isBaseline
      cases isBaseline
      rw [isFile] at same
      cases ok : answer.ok with
      | false =>
        rw [ok] at same
        cases same
      | true =>
        rw [ok] at same
        simpa using same
    | checking job =>
      dsimp only
      split_ifs
      · exact safe.endTask found rfl fits.1 nofun
      · exact safe.setTask found fits rfl
      · exact safe.endTask found rfl fits.1 nofun
      · exact failed fits.1
    | probing job =>
      dsimp only
      split_ifs
      · exact failed fits.1
      · exact safe.setTask found fits rfl
    | opening job =>
      dsimp only
      split
      · next contents _ isFile =>
          refine safe.setTask found ?_ rfl
          refine ⟨fits.1, fits.2, fun other isOther => ?_⟩
          rw [show edits.fileOf editId = some other from isOther] at isFile
          cases isFile
          rfl
      · exact failed fits.1
    | copying job left sent =>
      dsimp only
      split_ifs with ok done
      · refine safe.setTask found ?_ rfl
        refine ⟨fits.1, fits.2.1, fun contents isFile => ?_⟩
        rw [← fits.2.2 contents isFile, done, List.append_nil]
      · refine safe.setTask found ?_ rfl
        refine ⟨fits.1, fits.2.1, fun contents isFile => ?_⟩
        rw [← fits.2.2 contents isFile, List.append_assoc, List.take_append_drop]
      · exact failed fits.1
    | closing job sent =>
      dsimp only
      split_ifs
      · let entry : StoredEdit byte := ⟨editId, job.target, sent⟩
        have stored : ({ edits with stored := edits.stored ++ [entry] }).Safe hashFile :=
          safe.withState (fun id => Or.inl ⟨rfl, rfl, Iff.rfl, fun exited => exited,
            fun _ _ isFile => isFile⟩) (List.subset_append_left _ _) safe.fresh safe.unchanged
        have whole : ({ edits with stored := edits.stored ++ [entry] }).StoredWhole editId :=
          fun contents isFile => ⟨entry, List.mem_append_right _ (List.mem_singleton_self _), rfl,
            fits.2.2 contents isFile, fits.2.1.isTarget⟩
        exact stored.endTask found rfl ⟨fits.1, fun _ => whole⟩ nofun
      · exact failed fits.1

/-! ### Commands -/

theorem total_filterMap_some {κ α β : Type*} [LinearOrder κ] (map : OrderedMap κ α) (image : κ → α → β)
    (weight : κ → β → Nat) : (map.filterMap fun key value => some (image key value)).total weight =
      map.total fun key value => weight key (image key value) := by
  unfold OrderedMap.total OrderedMap.filterMap
  dsimp only [Option.map_some]
  rw [List.filterMap_eq_map', List.map_map]
  rfl

theorem preparing_nextId (safe : edits.Safe hashFile) : edits.preparing edits.nextId = 0 := by
  have noTask : edits.tasks.total (fun _ live => if live.prepares edits.nextId then 1 else 0) = 0 := by
    apply OrderedMap.total_eq_zero
    intro key live found
    have lt := (safe.tasks_lt key live found).2
    rw [if_neg]
    rw [LiveEdit.prepares, decide_eq_false lt.ne]
    exact Bool.false_ne_true
  have noMessage : edits.internal.countP (EditMessage.prepares edits.nextId) = 0 := by
    rw [List.countP_eq_zero]
    intro message member
    have lt := safe.internal_lt message member
    cases message with
    | taskPanicked => exact Bool.false_ne_true
    | event event =>
      cases event with
      | prepared editId result =>
        intro prepares
        exact lt.ne (of_decide_eq_true prepares)
      | inspected | conflict | uploaded => exact Bool.false_ne_true
  unfold preparing
  omega

theorem quiet_nextId (safe : edits.Safe hashFile) : edits.Quiet edits.nextId :=
  ⟨(safe.fresh _ le_rfl).1, safe.preparing_nextId⟩

theorem grow (safe : edits.Safe hashFile) (path : Path) (name : String) : ({ edits with
      nextId := edits.nextId + 1
      originals := Function.update edits.originals edits.nextId (some (path, name)) }).Safe
        hashFile := by
  have same {id : Nat} (lt : id < edits.nextId) : edits.Carries { edits with
      nextId := edits.nextId + 1
      originals := Function.update edits.originals edits.nextId (some (path, name)) } id :=
    ⟨Function.update_of_ne lt.ne _ _, rfl, Iff.rfl, fun exited => exited, fun _ _ isFile => isFile⟩
  exact ⟨fun id session found => Nat.lt_succ_of_lt (safe.sessions_lt id session found),
    fun key live found => ⟨(safe.tasks_lt key live found).1,
      Nat.lt_succ_of_lt (safe.tasks_lt key live found).2⟩,
    fun message member => Nat.lt_succ_of_lt (safe.internal_lt message member),
    fun id unused => safe.fresh id (Nat.le_of_succ_le unused), safe.once, safe.unchanged,
    fun id session found => (safe.sessions id session found).carry (same (safe.sessions_lt _ _ found)),
    fun key live found => (safe.tasks key live found).carry (same (safe.tasks_lt _ _ found).2),
    fun message member => (safe.internal message member).carry (same (safe.internal_lt _ member))
      (List.Subset.refl _)⟩

/-- The engine asks for the editor of a quiet edit. -/
theorem ready (safe : edits.Safe hashFile) (quiet : edits.Quiet editId) (lt : editId < edits.nextId) :
    (edits.setEditor editId .ready).Safe hashFile := by
  have value (id : Nat) : (edits.setEditor editId .ready).editors id =
      if id = editId then .ready else edits.editors id := Function.update_apply ..
  apply safe.withState
  · intro id
    by_cases same : id = editId
    · exact Or.inr (same ▸ quiet)
    · left
      have isEditor := (value id).trans (if_neg same)
      exact ⟨rfl, rfl, iff_of_eq (congrArg (· = Editor.idle) isEditor.symm), isEditor.trans,
        fun _ _ isFile => isFile⟩
  · exact List.Subset.refl _
  · intro id unused
    refine ⟨?_, (safe.fresh id unused).2⟩
    exact ((value id).trans (if_neg (by omega))).trans (safe.fresh id unused).1
  · intro id early
    by_cases same : id = editId
    · subst same
      exact safe.unchanged id (Or.inl quiet.1)
    · have isEditor := (value id).trans (if_neg same)
      exact safe.unchanged id (early.imp isEditor.symm.trans isEditor.symm.trans)

/-- The download of a quiet edit starts. -/
theorem download (safe : edits.Safe hashFile) (quiet : edits.Quiet editId)
    (lt : editId < edits.nextId) (unknown : edits.baselines editId = none) :
    (edits.spawn editId .statting).Safe hashFile := by
  have fresh : edits.tasks.get? edits.nextTask = none := by
    rw [Option.eq_none_iff_forall_ne_some]
    exact fun live found => lt_irrefl _ (safe.tasks_lt _ live found).1
  apply safe.withWork
  · intro key live found
    rcases OrderedMap.get?_insert_cases found with ⟨rfl, rfl⟩ | ⟨_, earlier⟩
    · exact ⟨Nat.lt_succ_self _, lt, quiet.1, unknown⟩
    · have before := safe.tasks_lt key live earlier
      exact ⟨Nat.lt_succ_of_lt before.1, before.2, safe.tasks key live earlier⟩
  · exact fun message member => ⟨safe.internal_lt message member, safe.internal message member⟩
  · intro id
    have added := OrderedMap.total_insert_new fresh
      (fun _ live => if live.prepares id then 1 else 0) (⟨editId, false, .statting⟩ : LiveEdit byte)
    have once := safe.once id
    have none := quiet.2
    unfold preparing at once none ⊢
    dsimp only
    by_cases same : id = editId
    · subst same
      split_ifs at added <;> omega
    · have other : (⟨editId, false, .statting⟩ : LiveEdit byte).prepares id = false := by
        rw [LiveEdit.prepares, decide_eq_false (Ne.symm same), Bool.false_and]
      rw [other, if_neg Bool.false_ne_true] at added
      omega

theorem editLocalFile (safe : edits.Safe hashFile) (path : Path) (isDir : Bool) :
    (edits.editLocalFile path isDir).Safe hashFile := by
  unfold Edits.editLocalFile
  split_ifs
  · exact safe
  · have asked := (safe.grow path (path.fileName.getD "")).ready safe.quiet_nextId (Nat.lt_succ_self _)
    have started : Function.update edits.editors edits.nextId .ready edits.nextId ≠ .idle := by
      rw [Function.update_self]
      exact nofun
    exact asked.setSession (Nat.lt_succ_self _)
      ⟨Function.update_self .., nofun, fun _ => started, fun pending => absurd rfl pending,
        fun _ => ⟨rfl, started⟩⟩

theorem editRemoteFile (safe : edits.Safe hashFile) (sessionId : Nat) (path : Path) :
    (edits.editRemoteFile sessionId path).Safe hashFile := by
  unfold Edits.editRemoteFile
  split_ifs
  · have made : (edits.newEditSession (.session sessionId) path false).Safe hashFile := by
      refine (safe.grow path (path.fileName.getD "")).setSession (Nat.lt_succ_self _)
        ⟨Function.update_self .., nofun, ?_, fun pending => absurd rfl pending, nofun⟩
      rintro (temp | waiting)
      · cases temp
      · cases waiting
    exact made.download safe.quiet_nextId (Nat.lt_succ_self _) (safe.fresh _ le_rfl).2
  · exact safe

theorem cancelEditDownloads (safe : edits.Safe hashFile) :
    edits.cancelEditDownloads.Safe hashFile := by
  apply (safe.withMarks edits.cancelEditDownloads.cancelled edits.connected).withWork
  · intro key live found
    rw [OrderedMap.get?_filterMap] at found
    obtain ⟨before, isBefore, same⟩ := Option.bind_eq_some_iff.mp found
    cases same
    have known := safe.tasks_lt key before isBefore
    exact ⟨known.1, known.2, (safe.tasks key before isBefore).carry
      ⟨rfl, rfl, Iff.rfl, fun exited => exited, fun _ _ isFile => isFile⟩⟩
  · exact fun message member => ⟨safe.internal_lt message member, (safe.internal message member).carry
      ⟨rfl, rfl, Iff.rfl, fun exited => exited, fun _ _ isFile => isFile⟩ (List.Subset.refl _)⟩
  · intro id
    have once := safe.once id
    unfold preparing at once ⊢
    rw [total_filterMap_some]
    exact once

theorem gone (safe : edits.Safe hashFile) (stopped : edits.editors editId ≠ .running) :
    (edits.setEditor editId (edits.editors editId).gone).Safe hashFile := by
  cases isEditor : edits.editors editId with
  | idle =>
    have same : edits.setEditor editId .idle = edits := by
      unfold Edits.setEditor
      rw [← isEditor, Function.update_eq_self]
    rw [show edits.setEditor editId Editor.idle.gone = edits from same]
    exact safe
  | running => exact absurd isEditor stopped
  | ready | exited =>
    apply safe.setEditor
    · rw [isEditor]
      exact nofun
    · exact Or.inr rfl
    · exact fun _ => rfl

theorem finishEdit (safe : edits.Safe hashFile) {exit : EditorExit}
    (mayExit : (edits.editors editId).mayExit exit = true) :
    ((edits.setEditor editId (edits.editors editId).gone).finishEdit editId exit).Safe hashFile := by
  have gone : (edits.setEditor editId (edits.editors editId).gone).Safe hashFile := by
    apply safe.gone
    intro running
    rw [running] at mayExit
    cases mayExit
  generalize isGone : edits.setEditor editId (edits.editors editId).gone = after at gone ⊢
  unfold Edits.finishEdit
  cases found : after.sessions.get? editId with
  | none => exact gone
  | some session =>
    dsimp only
    split_ifs with awaiting
    · have fits := gone.sessions editId session found
      have exited : after.editors editId = .exited := by
        have started := fits.started (Or.inr awaiting)
        rw [← isGone] at started ⊢
        change Function.update edits.editors editId _ editId ≠ _ at started
        change Function.update edits.editors editId _ editId = _
        rw [Function.update_self] at started ⊢
        cases isEditor : edits.editors editId with
        | idle => exact absurd (by rw [isEditor]; rfl) started
        | ready | running | exited => rfl
      have waits : (after.setSession editId { session with awaitingEditor := false }).Safe hashFile := by
        refine gone.setSession (gone.sessions_lt editId session found)
          ⟨fits.original, fits.baseline, fun _ => ?_, fits.pending, fits.onThisSide⟩
        rw [exited]
        exact nofun
      split
      · exact waits.dropEdit editId
      · exact waits.dropEdit editId
      · exact waits.dropEdit editId
      · exact waits.inspectEdit exited _
      · exact waits.inspectEdit exited _
    · exact gone

theorem resolveEdit (safe : edits.Safe hashFile) (choice : EditChoice) (stamp : String) :
    (edits.resolveEdit editId choice stamp).Safe hashFile := by
  unfold Edits.resolveEdit
  cases found : edits.sessions.get? editId with
  | none => exact safe
  | some session =>
    have fits := safe.sessions editId session found
    dsimp only
    cases isPending : session.pending with
    | none => exact safe
    | some kind =>
      have exited := fits.pending (by rw [isPending]; exact nofun)
      have taken : (edits.setSession editId { session with pending := none }).Safe hashFile :=
        safe.setSession (safe.sessions_lt editId session found)
          ⟨fits.original, fits.baseline, fits.started, fun pending => absurd rfl pending, fits.onThisSide⟩
      cases kind <;> cases choice <;>
        first
        | exact taken.keepEdit editId
        | exact taken.startUpload exited _ stamp

/-! ### Messages -/

/-- The message that a download ends with is the last of it. -/
theorem finishPrepare (safe : edits.Safe hashFile) {result : Prepared}
    (lt : editId < edits.nextId) (none : edits.preparing editId = 0)
    (fits : edits.MessageFits hashFile (.event (.prepared editId result))) :
    (edits.finishPrepare editId result).Safe hashFile := by
  unfold Edits.finishPrepare
  cases result with
  | cancelled | failed => exact (safe.forget editId).removeSession editId
  | ready baseline =>
    dsimp only
    cases found : edits.sessions.get? editId with
    | none => exact safe.removeDir editId
    | some session =>
      dsimp only
      split_ifs
      · exact ((safe.forget editId).removeSession editId).removeDir editId
      · have quiet : edits.Quiet editId := ⟨fits.1, none⟩
        have asked := safe.ready quiet lt
        have started : (edits.setEditor editId .ready).editors editId ≠ .idle := by
          change Function.update edits.editors editId .ready editId ≠ .idle
          rw [Function.update_self]
          exact nofun
        have before := safe.sessions editId session found
        refine asked.setSession lt ⟨before.original, fun _ => ⟨baseline, rfl, fits.2⟩,
          fun _ => started, fun pending => ?_, fun isLocal => absurd quiet.1 (before.onThisSide isLocal).2⟩
        have exited := before.pending pending
        rw [quiet.1] at exited
        cases exited

theorem finishInspect (safe : edits.Safe hashFile) (exited : edits.editors editId = .exited)
    (changed : Option Bool) (aborted : Option Int) (stamp : String) :
    (edits.finishInspect editId changed aborted stamp).Safe hashFile := by
  unfold Edits.finishInspect
  by_cases known : edits.sessions.contains editId = true
  · rw [if_pos known]
    split
    · exact safe.keepEdit editId
    · exact safe.dropEdit editId
    · exact safe.dropEdit editId
    · exact safe.keepEdit editId
    · split_ifs
      · exact safe.startUpload exited _ stamp
      · exact safe.askEdit exited _
  · rw [if_neg known]
    exact safe

theorem finishUpload (safe : edits.Safe hashFile) (editId : Nat) (isStored : Bool) :
    (edits.finishUpload editId isStored).Safe hashFile := by
  unfold Edits.finishUpload
  split_ifs
  · exact safe.dropEdit editId
  · exact safe.keepEdit editId
  · exact safe

/-- The first message is taken. -/
theorem take (safe : edits.Safe hashFile) {message : EditMessage} {rest : List EditMessage}
    (isFirst : edits.internal = message :: rest) :
    ({ edits with internal := rest }).Safe hashFile ∧ message.editId < edits.nextId ∧
      ({ edits with internal := rest }).MessageFits hashFile message ∧
      ∀ id, message.prepares id = true → ({ edits with internal := rest }).preparing id = 0 := by
  have isMember : message ∈ edits.internal := isFirst ▸ List.mem_cons_self
  have fewer (id : Nat) : ({ edits with internal := rest }).preparing id +
      (if message.prepares id = true then 1 else 0) = edits.preparing id := by
    unfold preparing
    rw [isFirst, List.countP_cons]
    exact Nat.add_assoc ..
  refine ⟨?_, safe.internal_lt message isMember, (safe.internal message isMember).carry
    ⟨rfl, rfl, Iff.rfl, fun exited => exited, fun _ _ isFile => isFile⟩ (List.Subset.refl _),
    fun id prepares => ?_⟩
  · apply safe.withWork
    · exact fun key live found =>
        ⟨(safe.tasks_lt key live found).1, (safe.tasks_lt key live found).2, safe.tasks key live found⟩
    · intro other member
      have earlier : other ∈ edits.internal := isFirst ▸ List.mem_cons_of_mem message member
      exact ⟨safe.internal_lt other earlier, safe.internal other earlier⟩
    · intro id
      exact (Nat.le_add_right _ _).trans ((fewer id).trans_le (safe.once id))
  · have once := safe.once id
    have count := fewer id
    rw [if_pos prepares] at count
    omega

theorem handleInternal (safe : edits.Safe hashFile) (stamp : String) :
    (edits.handleInternal stamp).Safe hashFile := by
  unfold Edits.handleInternal
  cases isFirst : edits.internal with
  | nil => exact safe
  | cons message rest =>
    obtain ⟨taken, lt, fits, last⟩ := safe.take isFirst
    dsimp only
    cases message with
    | taskPanicked editId =>
      unfold Edits.recoverFromPanic
      dsimp only
      split_ifs
      · exact taken.keepEdit editId
      · exact taken
    | event event =>
      cases event with
      | prepared editId result => exact taken.finishPrepare lt (last editId (decide_eq_true rfl)) fits
      | inspected editId changed aborted => exact taken.finishInspect fits.1 changed aborted stamp
      | conflict editId => exact taken.askEdit fits .conflict
      | uploaded editId isStored => exact taken.finishUpload editId isStored

theorem next (safe : edits.Safe hashFile) (step : EditStep byte) :
    (edits.next hashFile step).Safe hashFile := by
  cases step with
  | editLocal path isDir => exact safe.editLocalFile path isDir
  | editRemote sessionId path => exact safe.editRemoteFile sessionId path
  | cancelAll => exact safe.cancelEditDownloads
  | finishEdit editId exit =>
    unfold Edits.next
    dsimp only
    split_ifs with mayExit
    · exact safe.finishEdit mayExit
    · exact safe
  | resolveEdit editId choice stamp => exact safe.resolveEdit choice stamp
  | connect sessionId => exact safe.withMarks edits.cancelled (edits.connected.insert sessionId ())
  | disconnect sessionId => exact safe.withMarks edits.cancelled (edits.connected.erase sessionId)
  | handle stamp => exact safe.handleInternal stamp
  | work key answer => exact safe.work key answer
  | panic key => exact safe.panic key
  | abort key => exact safe.abort key
  | launch editId =>
    unfold Edits.next
    dsimp only
    split_ifs with isReady
    · apply safe.setEditor
      · rw [isReady]
        exact nofun
      · exact Or.inl rfl
      · rw [isReady]
        exact nofun
    · exact safe
  | save editId file =>
    unfold Edits.next
    dsimp only
    split_ifs with isRunning
    · apply safe.setFile
      · rw [isRunning.1]
        exact nofun
      · rw [isRunning.1]
        exact nofun
    · exact safe
  | quit editId =>
    unfold Edits.next
    dsimp only
    split_ifs with isRunning
    · apply safe.setEditor
      · rw [isRunning]
        exact nofun
      · exact Or.inr rfl
      · exact fun _ => rfl
    · exact safe

theorem start (hashFile : List byte → Nat) (autoUpload : Bool) :
    (Edits.start autoUpload : Edits byte).Safe hashFile where
  sessions_lt := by intro id session found; cases found
  tasks_lt := by intro key live found; cases found
  internal_lt := by intro message member; cases member
  fresh := fun _ _ => ⟨rfl, rfl⟩
  once := fun _ => Nat.zero_le _
  unchanged := by intro id _ baseline contents isBaseline; cases isBaseline
  sessions := by intro id session found; cases found
  tasks := by intro key live found; cases found
  internal := by intro message member; cases member

theorem run (safe : edits.Safe hashFile) (steps : List (EditStep byte)) :
    (edits.after hashFile steps).Safe hashFile := by
  induction steps generalizing edits with
  | nil => exact safe
  | cons step rest ih => exact ih (safe.next step)

end Safe

/-! ### Folders that go -/

/-- No folder goes with a file that differs from the baseline, unless the file was stored. -/
def Lossless (hashFile : List byte → Nat) (edits after : Edits byte) : Prop :=
  ∀ id contents baseline, edits.fileOf id = some contents → after.folders id = none →
    edits.baselines id = some baseline → hashFile contents ≠ baseline.hash →
    edits.IsStored id contents

theorem lossless_of_folders (same : after.folders = edits.folders) :
    edits.Lossless hashFile after := by
  intro id contents baseline isFile isGone
  rw [same] at isGone
  unfold fileOf at isFile
  rw [isGone] at isFile
  cases isFile

theorem lossless_of_known (others : ∀ id, id ≠ editId → after.folders id = edits.folders id)
    (known : edits.Unchanged hashFile editId ∨ edits.StoredWhole editId) :
    edits.Lossless hashFile after := by
  intro id contents baseline isFile isGone isBaseline differs
  by_cases same : id = editId
  · subst same
    rcases known with unchanged | stored
    · exact absurd (unchanged baseline contents isBaseline isFile) differs
    · exact stored contents isFile
  · rw [others id same] at isGone
    unfold fileOf at isFile
    rw [isGone] at isFile
    cases isFile

theorem dropEdit_folders (edits : Edits byte) (editId : Nat) {id : Nat} (different : id ≠ editId) :
    (edits.dropEdit editId).folders id = edits.folders id := by
  unfold dropEdit
  split
  · rfl
  · split_ifs
    · exact Function.update_of_ne different _ _
    · rfl

theorem startUpload_folders (edits : Edits byte) (editId : Nat) (mode : UploadMode) (stamp : String) :
    (edits.startUpload editId mode stamp).folders = edits.folders := by
  unfold startUpload
  split
  · rfl
  · split
    · dsimp only
      split_ifs <;> rfl
    · rfl

theorem askEdit_folders (edits : Edits byte) (editId : Nat) (kind : EditQuestionKind) :
    (edits.askEdit editId kind).folders = edits.folders := by
  unfold askEdit
  split <;> rfl

theorem inspectEdit_folders {session : EditSession} (found : edits.sessions.get? editId = some session)
    (known : session.temp = true → session.baseline ≠ none) (aborted : Option Int) :
    (edits.inspectEdit editId aborted).folders = edits.folders := by
  unfold inspectEdit
  rw [found]
  dsimp only
  split
  · rfl
  · next missing =>
      -- Without a folder there is nothing to remove.
      have noTemp : session.temp = false := by
        cases temp : session.temp with
        | false => rfl
        | true =>
          obtain ⟨baseline, isBaseline⟩ := Option.ne_none_iff_exists'.mp (known temp)
          exact absurd isBaseline (missing baseline temp)
      unfold dropEdit
      rw [show (edits.setSession editId { session with saving := true }).sessions.get? editId =
        some { session with saving := true } from (OrderedMap.get?_insert ..).trans (if_pos rfl)]
      dsimp only
      rw [noTemp]
      rfl

namespace Safe

theorem lossless_finishEdit (safe : edits.Safe hashFile) {exit : EditorExit}
    (mayExit : (edits.editors editId).mayExit exit = true) :
    edits.Lossless hashFile
      ((edits.setEditor editId (edits.editors editId).gone).finishEdit editId exit) := by
  have folders : (edits.setEditor editId (edits.editors editId).gone).folders = edits.folders := rfl
  have sessions : (edits.setEditor editId (edits.editors editId).gone).sessions = edits.sessions := rfl
  generalize edits.setEditor editId (edits.editors editId).gone = after at folders sessions ⊢
  unfold Edits.finishEdit
  rw [sessions]
  cases found : edits.sessions.get? editId with
  | none => exact lossless_of_folders folders
  | some session =>
    have fits := safe.sessions editId session found
    have isSession : (after.setSession editId { session with awaitingEditor := false }).sessions.get?
        editId = some { session with awaitingEditor := false } :=
      (OrderedMap.get?_insert ..).trans (if_pos rfl)
    dsimp only
    split_ifs with awaiting
    · have onThisSide (isLocal : session.location = .local) :
          ((after.setSession editId { session with awaitingEditor := false }).dropEdit editId).folders =
            edits.folders := by
        unfold Edits.dropEdit
        rw [isSession]
        dsimp only
        rw [(fits.onThisSide isLocal).1]
        exact folders
      have inspected (aborted : Option Int) :
          ((after.setSession editId { session with awaitingEditor := false }).inspectEdit editId
            aborted).folders = edits.folders := by
        refine (inspectEdit_folders isSession (fun temp => ?_) aborted).trans folders
        obtain ⟨baseline, isBaseline, _⟩ := fits.baseline temp
        rw [show ({ session with awaitingEditor := false } : EditSession).baseline = session.baseline
          from rfl, isBaseline]
        exact nofun
      split
      · -- The editor never ran.
        apply lossless_of_known
        · intro id different
          rw [dropEdit_folders _ _ different]
          exact congrFun folders id
        · left
          apply safe.unchanged
          have started := fits.started (Or.inr awaiting)
          cases isEditor : edits.editors editId with
          | idle => exact absurd isEditor started
          | ready => exact Or.inr rfl
          | running | exited =>
            rw [isEditor] at mayExit
            cases mayExit
      · exact lossless_of_folders (onThisSide ‹session.location = .local›)
      · exact lossless_of_folders (onThisSide ‹session.location = .local›)
      · exact lossless_of_folders (inspected _)
      · exact lossless_of_folders (inspected _)
    · exact lossless_of_folders folders

theorem lossless_resolveEdit (edits : Edits byte) (editId : Nat) (choice : EditChoice)
    (stamp : String) : edits.Lossless hashFile (edits.resolveEdit editId choice stamp) := by
  apply lossless_of_folders
  unfold Edits.resolveEdit
  split
  · rfl
  · split
    · rfl
    · split
      · exact startUpload_folders _ _ _ _
      · exact startUpload_folders _ _ _ _
      · exact startUpload_folders _ _ _ _
      · rfl
      · rfl

theorem lossless_handleInternal (safe : edits.Safe hashFile) (stamp : String) :
    edits.Lossless hashFile (edits.handleInternal stamp) := by
  unfold Edits.handleInternal
  cases isFirst : edits.internal with
  | nil => exact lossless_of_folders rfl
  | cons message rest =>
    obtain ⟨taken, _, fits, _⟩ := safe.take isFirst
    dsimp only
    generalize isTaken : ({ edits with internal := rest } : Edits byte) = middle at taken fits ⊢
    have same : middle.Lossless hashFile = edits.Lossless hashFile := by
      subst isTaken
      rfl
    rw [← same]
    cases message with
    | taskPanicked editId =>
      apply lossless_of_folders
      unfold Edits.recoverFromPanic
      dsimp only
      split_ifs <;> rfl
    | event event =>
      cases event with
      | prepared editId result =>
        change middle.Lossless hashFile (middle.finishPrepare editId result)
        unfold Edits.finishPrepare
        cases result with
        | cancelled | failed => exact lossless_of_folders rfl
        | ready baseline =>
          have unchanged := taken.unchanged editId (Or.inl fits.1)
          dsimp only
          split
          · exact lossless_of_known (fun id different => Function.update_of_ne different _ _)
              (Or.inl unchanged)
          · split_ifs
            · exact lossless_of_known (fun id different => Function.update_of_ne different _ _)
                (Or.inl unchanged)
            · exact lossless_of_folders rfl
      | inspected editId changed aborted =>
        change middle.Lossless hashFile (middle.finishInspect editId changed aborted stamp)
        unfold Edits.finishInspect
        by_cases known : middle.sessions.contains editId = true
        · rw [if_pos known]
          split
          · exact lossless_of_folders rfl
          · exact lossless_of_known (fun id => dropEdit_folders middle editId) (Or.inl (fits.2 rfl))
          · exact lossless_of_known (fun id => dropEdit_folders middle editId) (Or.inl (fits.2 rfl))
          · exact lossless_of_folders rfl
          · split_ifs
            · exact lossless_of_folders (startUpload_folders _ _ _ _)
            · exact lossless_of_folders (askEdit_folders _ _ _)
        · rw [if_neg known]
          exact lossless_of_folders rfl
      | conflict editId => exact lossless_of_folders (askEdit_folders _ _ _)
      | uploaded editId isStored =>
        change middle.Lossless hashFile (middle.finishUpload editId isStored)
        unfold Edits.finishUpload
        split_ifs with _ stored
        · exact lossless_of_known (fun id => dropEdit_folders middle editId)
            (Or.inr (fits.2 stored))
        · exact lossless_of_folders rfl
        · exact lossless_of_folders rfl

theorem lossless_endPrepare (edits : Edits byte) (key : Nat) (created : Bool) (result : Prepared)
    (unknown : edits.baselines editId = none) :
    edits.Lossless hashFile (edits.endPrepare key editId created result) := by
  unfold Edits.endPrepare
  split_ifs
  · apply lossless_of_known
    · exact fun id (different : id ≠ editId) => Function.update_of_ne different _ _
    · left
      intro baseline contents isBaseline
      rw [unknown] at isBaseline
      cases isBaseline
  · exact lossless_of_folders rfl

theorem lossless_setFile {editId : Nat} {file : Option (List byte)}
    (folders : after.folders = (edits.setFile editId file).folders) :
    edits.Lossless hashFile after := by
  intro id contents baseline isFile isGone
  rw [folders] at isGone
  change Function.update edits.folders editId _ id = none at isGone
  rw [Function.update_apply] at isGone
  split_ifs at isGone
  unfold fileOf at isFile
  rw [isGone] at isFile
  cases isFile

/-- A task removes a folder only before its baseline is known. -/
theorem lossless_work (safe : edits.Safe hashFile) (key : Nat) (answer : EditAnswer byte) :
    edits.Lossless hashFile (edits.work hashFile key answer) := by
  unfold Edits.work
  cases found : edits.tasks.get? key with
  | none => exact lossless_of_folders rfl
  | some live =>
    have fits := safe.tasks key live found
    obtain ⟨editId, cancel, task⟩ := live
    cases task with
    | statting =>
      dsimp only
      split_ifs
      · exact lossless_of_folders rfl
      · exact lossless_endPrepare edits key false .failed fits.2
    | creating size modified =>
      dsimp only
      split_ifs
      · exact lossless_setFile rfl
      · exact lossless_endPrepare edits key false .failed fits.2
    | fetching size modified =>
      dsimp only
      split_ifs
      · exact lossless_endPrepare edits key true .cancelled fits.2
      · exact lossless_setFile rfl
      · exact lossless_endPrepare edits key true .failed fits.2
    | securing size modified =>
      dsimp only
      split_ifs
      · exact lossless_of_folders rfl
      · exact lossless_endPrepare edits key true .failed fits.2
    | hashing size modified =>
      dsimp only
      split
      · exact lossless_of_folders rfl
      · exact lossless_endPrepare edits key true .failed fits.2
    | inspecting baseline aborted => exact lossless_of_folders rfl
    | checking job =>
      dsimp only
      split_ifs <;> exact lossless_of_folders rfl
    | probing job =>
      dsimp only
      split_ifs <;> exact lossless_of_folders rfl
    | opening job =>
      dsimp only
      split <;> exact lossless_of_folders rfl
    | copying job left sent =>
      dsimp only
      split_ifs <;> exact lossless_of_folders rfl
    | closing job sent =>
      dsimp only
      split_ifs <;> exact lossless_of_folders rfl

theorem lossless_next (safe : edits.Safe hashFile) (step : EditStep byte) :
    edits.Lossless hashFile (edits.next hashFile step) := by
  unfold Edits.next
  cases step with
  | editLocal path isDir =>
    apply lossless_of_folders
    unfold Edits.editLocalFile
    dsimp only
    split_ifs <;> rfl
  | editRemote sessionId path =>
    apply lossless_of_folders
    unfold Edits.editRemoteFile
    dsimp only
    split_ifs <;> rfl
  | cancelAll => exact lossless_of_folders rfl
  | finishEdit editId exit =>
    dsimp only
    split_ifs with mayExit
    · exact safe.lossless_finishEdit mayExit
    · exact lossless_of_folders rfl
  | resolveEdit editId choice stamp => exact lossless_resolveEdit edits editId choice stamp
  | connect sessionId => exact lossless_of_folders rfl
  | disconnect sessionId => exact lossless_of_folders rfl
  | handle stamp => exact safe.lossless_handleInternal stamp
  | work key answer => exact safe.lossless_work key answer
  | panic key =>
    apply lossless_of_folders
    unfold Edits.panic
    dsimp only
    split <;> rfl
  | abort key => exact lossless_of_folders rfl
  | launch editId =>
    dsimp only
    split_ifs <;> exact lossless_of_folders rfl
  | save editId file =>
    dsimp only
    split_ifs
    · exact lossless_setFile rfl
    · exact lossless_of_folders rfl
  | quit editId =>
    dsimp only
    split_ifs <;> exact lossless_of_folders rfl

end Safe

/-- Whatever the order of commands, messages and steps of tasks and editors: when a step removes
the folder of an edit whose file differs from the baseline, the file was stored at the
remote target before, whole as it is. -/
theorem lossless_of_run (hashFile : List byte → Nat) (autoUpload : Bool)
    (steps : List (EditStep byte)) (step : EditStep byte) :
    ((start autoUpload).after hashFile steps).Lossless hashFile
      (((start autoUpload).after hashFile steps).next hashFile step) :=
  ((Safe.start hashFile autoUpload).run steps).lossless_next step

/-- In every run a download of an edit is the only one, and the editor was not asked for yet; what
looks at the file or uploads it begins when the editor has exited. -/
theorem apart_of_run (hashFile : List byte → Nat) (autoUpload : Bool) (steps : List (EditStep byte)) :
    let edits := (start autoUpload).after hashFile steps
    (∀ editId, edits.preparing editId ≤ 1) ∧
    ∀ key live, edits.tasks.get? key = some live →
      edits.editors live.editId = if live.task.isDownload then .idle else .exited := by
  have safe := (Safe.start hashFile autoUpload).run steps
  refine ⟨safe.once, fun key live found => ?_⟩
  have fits := safe.tasks key live found
  unfold TaskFits at fits
  cases isTask : live.task <;> rw [isTask] at fits <;> exact fits.1

end Edits

end Porthmos
