import Porthmos.KnownCertificates

/-!
# Pins are kept

While an attempt has the document that it is about to write, the file says what the document was
made from, as long as no other attempt writes too.  So a run in which no attempt starts to
remember while another one does, or over a different pin, loses no pin and replaces none.
-/

namespace Porthmos

/-- The certificate that `remember` is at work on. -/
def VerifyStage.remembers : VerifyStage → Option CertificateDetails
  | .trusting details => some details
  | .merged details _ => some details
  | .writing details _ _ _ => some details
  | _ => none

/-- The document that `remember` has made and not put in place. -/
def VerifyStage.document : VerifyStage → Option (List Char)
  | .merged _ contents => some contents
  | .writing _ _ written left => some (written ++ left)
  | _ => none

namespace Trust

variable (store : KnownCertificates) (trust : Trust)

/-- The pin of the file for this host and port. -/
def pin (key : String) : Option Pinned :=
  match store.load trust.disk with
  | .ok pins => pins.get? key
  | .error _ => none

/-- The file is missing, or it is the one of the start or a whole document of a `remember`, and it
can be read. -/
def Whole (started : Option (List Char)) : Prop :=
  (∃ pins, store.load trust.disk = .ok pins) ∧
    (trust.disk.read .known = started ∨
      ∃ pins contents, store.toml.toText pins = .ok contents ∧
        trust.disk.read .known = some contents)

/-- What the user confirmed is pinned, or the attempt is at work on it. -/
def Settled (id : Nat) (details : CertificateDetails) : Prop :=
  (∃ pinned, trust.pin store (trust.attempts id).key = some pinned ∧
    pinned.sha256 = details.fingerprint) ∨
  (trust.attempts id).stage.remembers = some details

/-- No pin differs from the certificate. -/
def Agrees (key : String) (details : CertificateDetails) : Prop :=
  ∀ pinned, trust.pin store key = some pinned → pinned.sha256 = details.fingerprint

/-- The file is read for an insertion only while no other attempt has a document to write, and
only where no different certificate is pinned. -/
def Admits : TrustStep → Prop
  | .load id =>
    ∀ details, (trust.attempts id).stage = .trusting details →
      (∀ other, (trust.attempts other).stage.document = none) ∧
        trust.Agrees store (trust.attempts id).key details
  | _ => True

def Admitted (trust : Trust) : List TrustStep → Prop
  | [] => True
  | step :: steps => trust.Admits store step ∧ Admitted (trust.next store step) steps

/-- No attempt has begun. -/
structure Fresh : Prop where
  distinct : trust.disk.Distinct
  readable : ∃ pins, store.load trust.disk = .ok pins
  stages : ∀ id, (trust.attempts id).stage = .handshake
  owed : trust.owed = []

/-- What holds between the steps of a run with no overlap. -/
structure Orderly (started : Option (List Char)) : Prop where
  distinct : trust.disk.Distinct
  whole : trust.Whole store started
  single : ∀ first second, (trust.attempts first).stage.document ≠ none →
    (trust.attempts second).stage.document ≠ none → first = second
  /-- The document is what the file says, with the new pin. -/
  document : ∀ id contents, (trust.attempts id).stage.document = some contents →
    ∃ details pins, (trust.attempts id).stage.remembers = some details ∧
      store.load trust.disk = .ok pins ∧
      store.toml.toText (pins.insert (trust.attempts id).key details.pinned) = .ok contents ∧
      trust.Agrees store (trust.attempts id).key details
  /-- The temporary file has what was written of it. -/
  temporary : ∀ id details file written left,
    (trust.attempts id).stage = .writing details file written left →
      trust.disk.entries .temporary = some file ∧ trust.disk.files file = written
  settled : ∀ id details, (id, details) ∈ trust.owed → trust.Settled store id details

/-- The pins of one state are still there in another one. -/
def Keeps (later : Trust) : Prop :=
  ∀ key pinned, trust.pin store key = some pinned →
    ∃ pinned', later.pin store key = some pinned' ∧ pinned'.sha256 = pinned.sha256

variable {store trust} {started : Option (List Char)}

theorem Fresh.orderly (fresh : trust.Fresh store) :
    trust.Orderly store (trust.disk.read .known) where
  distinct := fresh.distinct
  whole := ⟨fresh.readable, Or.inl rfl⟩
  single := by
    intro first second firstHas
    rw [fresh.stages first] at firstHas
    exact absurd rfl firstHas
  document := by
    intro id contents has
    rw [fresh.stages id] at has
    cases has
  temporary := by
    intro id details file written left isWriting
    rw [fresh.stages id] at isWriting
    cases isWriting
  settled := by
    intro id details isOwed
    rw [fresh.owed] at isOwed
    cases isOwed

theorem load_congr {disk disk' : Disk StoreFile Char}
    (same : disk'.read .known = disk.read .known) : store.load disk' = store.load disk := by
  unfold KnownCertificates.load
  rw [same]

theorem pin_congr {later : Trust} (same : later.disk.read .known = trust.disk.read .known)
    (key : String) : later.pin store key = trust.pin store key := by
  unfold pin
  rw [load_congr same]

theorem pin_of_load {pins : Pins} (loaded : store.load trust.disk = .ok pins) (key : String) :
    trust.pin store key = pins.get? key := by
  unfold pin
  rw [loaded]

theorem keeps_of_read {later : Trust} (same : later.disk.read .known = trust.disk.read .known) :
    trust.Keeps store later := by
  intro key pinned found
  exact ⟨pinned, (pin_congr same key).trans found, rfl⟩

theorem key_update (id : Nat) (stage : VerifyStage) (other : Nat) :
    (Function.update trust.attempts id ((trust.attempts id).at stage) other).key =
      (trust.attempts other).key := by
  rw [Function.update_apply]
  split_ifs with same
  · rw [same]
    rfl
  · rfl

theorem stage_update (id : Nat) (stage : VerifyStage) (other : Nat) :
    (Function.update trust.attempts id ((trust.attempts id).at stage) other).stage =
      if other = id then stage else (trust.attempts other).stage := by
  rw [Function.update_apply]
  split_ifs <;> rfl

/-- A new document, if any, is the only one and is what the file says with the pin. -/
def Ready (store : KnownCertificates) (trust : Trust) (id : Nat) (stage : VerifyStage) : Prop :=
  ∀ contents, stage.document = some contents →
    (∀ other, other ≠ id → (trust.attempts other).stage.document = none) ∧
    ∃ details pins, stage.remembers = some details ∧ store.load trust.disk = .ok pins ∧
      store.toml.toText (pins.insert (trust.attempts id).key details.pinned) = .ok contents ∧
      trust.Agrees store (trust.attempts id).key details

/-- A step of one attempt that leaves the file as it is. -/
theorem Orderly.move (orderly : trust.Orderly store started) (later : Trust) (id : Nat)
    (stage : VerifyStage) (distinct : later.disk.Distinct)
    (same : later.disk.read .known = trust.disk.read .known)
    (attempts : later.attempts = Function.update trust.attempts id ((trust.attempts id).at stage))
    (ready : trust.Ready store id stage)
    (temporary : ∀ other details file written left,
      (later.attempts other).stage = .writing details file written left →
        later.disk.entries .temporary = some file ∧ later.disk.files file = written)
    (owed : ∀ other details, (other, details) ∈ later.owed → (other, details) ∈ trust.owed ∧
        (other = id → (trust.attempts id).stage.remembers = some details →
          stage.remembers = some details) ∨
      other = id ∧ stage.remembers = some details) :
    later.Orderly store started where
  distinct := distinct
  whole := by
    obtain ⟨⟨pins, loaded⟩, whole⟩ := orderly.whole
    constructor
    · exact ⟨pins, (load_congr same).trans loaded⟩
    · rw [same]
      exact whole
  single := by
    intro first second
    rw [attempts, stage_update, stage_update]
    split_ifs with firstHere secondHere secondHere <;> intro firstHas secondHas
    · exact firstHere.trans secondHere.symm
    · obtain ⟨contents, has⟩ := Option.ne_none_iff_exists'.mp firstHas
      exact absurd ((ready contents has).1 second secondHere) secondHas
    · obtain ⟨contents, has⟩ := Option.ne_none_iff_exists'.mp secondHas
      exact absurd ((ready contents has).1 first firstHere) firstHas
    · exact orderly.single first second firstHas secondHas
  document := by
    intro other contents
    have agrees (key : String) (details : CertificateDetails) :
        later.Agrees store key details ↔ trust.Agrees store key details := by
      unfold Agrees
      rw [pin_congr same]
    rw [attempts, stage_update, key_update, load_congr same]
    simp only [agrees]
    split_ifs with here
    · rw [here]
      intro has
      exact (ready contents has).2
    · exact orderly.document other contents
  temporary := temporary
  settled := by
    intro other details isOwed
    unfold Settled
    rw [pin_congr same, attempts, stage_update, key_update]
    rcases owed other details isOwed with ⟨wasOwed, still⟩ | ⟨here, remembers⟩
    · rcases orderly.settled other details wasOwed with pinned | remembers
      · exact Or.inl pinned
      · right
        split_ifs with here
        · rw [here] at remembers
          exact still here remembers
        · exact remembers
    · right
      rw [if_pos here]
      exact remembers

theorem Orderly.stay (orderly : trust.Orderly store started) (later : Trust) (id : Nat)
    (stage : VerifyStage) (disk : later.disk = trust.disk)
    (attempts : later.attempts = Function.update trust.attempts id ((trust.attempts id).at stage))
    (ready : trust.Ready store id stage)
    (closed : ∀ details file written left, stage ≠ .writing details file written left)
    (owed : ∀ other details, (other, details) ∈ later.owed → (other, details) ∈ trust.owed ∧
        (other = id → (trust.attempts id).stage.remembers = some details →
          stage.remembers = some details) ∨
      other = id ∧ stage.remembers = some details) :
    later.Orderly store started := by
  apply orderly.move later id stage (disk ▸ orderly.distinct) (by rw [disk]) attempts ready _ owed
  intro other details file written left
  rw [attempts, stage_update, disk]
  split_ifs with here
  · intro isWriting
    exact absurd isWriting (closed details file written left)
  · exact orderly.temporary other details file written left

theorem ready_of_none {id : Nat} {stage : VerifyStage} (none : stage.document = none) :
    trust.Ready store id stage := by
  intro contents has
  rw [none] at has
  cases has

theorem Orderly.fail (orderly : trust.Orderly store started) (id : Nat) (err : ProtocolError)
    (idle : (trust.attempts id).stage.remembers = none) :
    (trust.setStage id (.failed err)).Orderly store started := by
  refine orderly.stay _ id (.failed err) rfl rfl (ready_of_none rfl) ?_ ?_
  · intro details file written left isWriting
    cases isWriting
  · intro other details isOwed
    left
    rw [idle]
    exact ⟨isOwed, fun _ remembers => nomatch remembers⟩

theorem Orderly.giveUp (orderly : trust.Orderly store started) (id : Nat)
    (details : CertificateDetails) (err : String)
    (busy : (trust.attempts id).stage.remembers = some details) :
    (trust.giveUp store id details err).Orderly store started := by
  refine orderly.stay _ id (.failed (store.storeError err)) rfl rfl (ready_of_none rfl) ?_ ?_
  · intro details file written left isWriting
    cases isWriting
  · intro other found isOwed
    obtain ⟨wasOwed, differs⟩ := List.mem_filter.mp isOwed
    left
    constructor
    · exact wasOwed
    · rintro rfl remembers
      cases busy.symm.trans remembers
      exact absurd rfl (of_decide_eq_true differs)

theorem Orderly.handshake (orderly : trust.Orderly store started) (id : Nat) (system : Bool)
    (presented : CertificateDetails) (idle : (trust.attempts id).stage = .handshake) :
    (trust.handshake store id system presented).Orderly store started := by
  have quiet : (trust.attempts id).stage.remembers = none := by rw [idle]; rfl
  -- Nothing is remembered before or after.
  have owed (stage : VerifyStage) (other : Nat) (details : CertificateDetails)
      (isOwed : (other, details) ∈ trust.owed) :
      (other, details) ∈ trust.owed ∧
          (other = id → (trust.attempts id).stage.remembers = some details →
            stage.remembers = some details) ∨
        other = id ∧ stage.remembers = some details := by
    left
    rw [quiet]
    exact ⟨isOwed, fun _ remembers => nomatch remembers⟩
  unfold Trust.handshake
  dsimp only
  split
  · exact orderly.stay _ id .verified rfl rfl (ready_of_none rfl)
      (fun _ _ _ _ isWriting => nomatch isWriting) (owed _)
  · exact orderly.stay _ id (.asking _) rfl rfl (ready_of_none rfl)
      (fun _ _ _ _ isWriting => nomatch isWriting) (owed _)
  · exact orderly.fail id _ quiet
  · exact orderly.fail id _ quiet

theorem Orderly.answer (orderly : trust.Orderly store started) (id : Nat)
    (details : CertificateDetails) (confirmed : Bool)
    (asks : (trust.attempts id).stage = .asking details) :
    (trust.answer id details confirmed).Orderly store started := by
  have quiet : (trust.attempts id).stage.remembers = none := by rw [asks]; rfl
  unfold Trust.answer
  split_ifs
  · refine orderly.stay _ id (.trusting details) rfl rfl (ready_of_none rfl) ?_ ?_
    · intro details file written left isWriting
      cases isWriting
    · intro other found isOwed
      rcases List.mem_cons.mp isOwed with new | old
      · cases new
        exact Or.inr ⟨rfl, rfl⟩
      · left
        rw [quiet]
        exact ⟨old, fun _ remembers => nomatch remembers⟩
  · exact orderly.fail id _ quiet

theorem Orderly.load (orderly : trust.Orderly store started) (id : Nat)
    (details : CertificateDetails) (trusts : (trust.attempts id).stage = .trusting details)
    (admitted : trust.Admits store (.load id)) :
    (trust.load store id details).Orderly store started := by
  obtain ⟨others, agrees⟩ := admitted details trusts
  have busy : (trust.attempts id).stage.remembers = some details := by rw [trusts]; rfl
  obtain ⟨⟨pins, loaded⟩, -⟩ := orderly.whole
  unfold Trust.load
  rw [loaded]
  dsimp only
  split
  · exact orderly.giveUp id details _ busy
  next contents made =>
    refine orderly.stay _ id (.merged details contents) rfl rfl ?_ ?_ ?_
    · intro found has
      cases has
      constructor
      · exact fun other _ => others other
      · exact ⟨details, pins, rfl, loaded, made, agrees⟩
    · intro details file written left isWriting
      cases isWriting
    · intro other found isOwed
      left
      rw [busy]
      exact ⟨isOwed, fun _ remembers => remembers⟩

theorem Orderly.alone (orderly : trust.Orderly store started) {id : Nat} {contents : List Char}
    (has : (trust.attempts id).stage.document = some contents) (other : Nat) (ne : other ≠ id) :
    (trust.attempts other).stage.document = none := by
  by_contra otherHas
  apply ne
  apply orderly.single other id otherHas
  rw [has]
  exact Option.some_ne_none contents

theorem document_of_writing {stage : VerifyStage} {details : CertificateDetails} {file : Nat}
    {written left : List Char} (isWriting : stage = .writing details file written left) :
    stage.document = some (written ++ left) := by
  rw [isWriting]
  rfl

/-- Opening the temporary file or writing to it, by the one attempt that has a document. -/
theorem Orderly.work (orderly : trust.Orderly store started) {id : Nat}
    {details : CertificateDetails} {contents : List Char} {disk : Disk StoreFile Char} {file : Nat}
    {written left : List Char} (has : (trust.attempts id).stage.document = some contents)
    (busy : (trust.attempts id).stage.remembers = some details)
    (distinct : disk.Distinct) (same : disk.read .known = trust.disk.read .known)
    (whole : written ++ left = contents) (named : disk.entries .temporary = some file)
    (reached : disk.files file = written) :
    ((trust.setDisk disk).setStage id (.writing details file written left)).Orderly store
      started := by
  apply orderly.move _ id (.writing details file written left) distinct same rfl
  · intro found isFound
    have isDocument : some (written ++ left) = some found := isFound
    cases isDocument
    constructor
    · exact orderly.alone has
    · rw [whole]
      obtain ⟨found, pins, remembers, rest⟩ := orderly.document id contents has
      cases busy.symm.trans remembers
      exact ⟨details, pins, rfl, rest⟩
  · intro other found file' written' left'
    change (Function.update trust.attempts id ((trust.attempts id).at _) other).stage = _ → _
    rw [stage_update]
    split_ifs with here
    · intro isWriting
      cases isWriting
      exact ⟨named, reached⟩
    · intro isWriting
      have otherHas := document_of_writing isWriting
      rw [orderly.alone has other here] at otherHas
      cases otherHas
  · intro other found isOwed
    left
    rw [busy]
    exact ⟨isOwed, fun _ remembers => remembers⟩

theorem Orderly.create (orderly : trust.Orderly store started) (id : Nat)
    (details : CertificateDetails) (contents : List Char)
    (merged : (trust.attempts id).stage = .merged details contents) :
    (trust.create id details contents).Orderly store started := by
  have has : (trust.attempts id).stage.document = some contents := by rw [merged]; rfl
  have busy : (trust.attempts id).stage.remembers = some details := by rw [merged]; rfl
  apply orderly.work has busy (trust.disk.distinct_create orderly.distinct .temporary)
  · apply trust.disk.read_create_of_ne orderly.distinct
    decide
  · rfl
  · rw [trust.disk.entries_create, Function.update_self]
  · exact trust.disk.files_create .temporary

theorem Orderly.write (orderly : trust.Orderly store started) (id : Nat)
    (details : CertificateDetails) (file : Nat) (written left : List Char) (count : Nat)
    (isWriting : (trust.attempts id).stage = .writing details file written left) :
    (trust.write id details file written left count).Orderly store started := by
  have busy : (trust.attempts id).stage.remembers = some details := by rw [isWriting]; rfl
  obtain ⟨named, reached⟩ := orderly.temporary id details file written left isWriting
  apply orderly.work (document_of_writing isWriting) busy
  · exact orderly.distinct
  · apply trust.disk.read_writeAt_of_other
    intro isKnown
    cases orderly.distinct .known .temporary file isKnown named
  · rw [List.append_assoc, List.take_append_drop]
  · exact named
  · exact trust.disk.files_writeAt_end _ reached _

/-- What a finished `remember` leaves: the pins that the file had, and its own. -/
theorem Orderly.load_rename (orderly : trust.Orderly store started)
    (readsBack : store.toml.ReadsBack) {id : Nat} {details : CertificateDetails} {file : Nat}
    {written : List Char} {disk : Disk StoreFile Char}
    (isWriting : (trust.attempts id).stage = .writing details file written [])
    (renamed : trust.disk.rename .temporary .known = some disk) :
    ∃ pins, store.load trust.disk = .ok pins ∧ trust.Agrees store (trust.attempts id).key details ∧
      store.load disk = .ok (pins.insert (trust.attempts id).key details.pinned) ∧
      store.toml.toText (pins.insert (trust.attempts id).key details.pinned) = .ok written ∧
      disk.read .known = some written := by
  obtain ⟨named, reached⟩ := orderly.temporary id details file written [] isWriting
  obtain ⟨found, pins, remembers, loaded, made, agrees⟩ :=
    orderly.document id _ (document_of_writing isWriting)
  rw [isWriting] at remembers
  cases remembers
  rw [List.append_nil] at made
  have read : disk.read .known = some written := by
    rw [Disk.read_rename renamed]
    unfold Disk.read
    rw [named, Option.map_some, reached]
  refine ⟨pins, loaded, agrees, ?_, made, read⟩
  unfold KnownCertificates.load
  rw [read]
  dsimp only
  rw [readsBack _ _ made]
  rfl

theorem keeps_rename (orderly : trust.Orderly store started) (readsBack : store.toml.ReadsBack)
    {id : Nat} {details : CertificateDetails} {file : Nat} {written : List Char}
    {disk : Disk StoreFile Char}
    (isWriting : (trust.attempts id).stage = .writing details file written [])
    (renamed : trust.disk.rename .temporary .known = some disk) :
    trust.Keeps store ((trust.setDisk disk).setStage id .handshake) := by
  obtain ⟨pins, loaded, agrees, reloaded, -, -⟩ :=
    orderly.load_rename readsBack isWriting renamed
  intro key pinned found
  have foundLater : ((trust.setDisk disk).setStage id .handshake).pin store key =
      (pins.insert (trust.attempts id).key details.pinned).get? key :=
    pin_of_load reloaded key
  rw [foundLater, OrderedMap.get?_insert]
  split_ifs with same
  · rw [same] at found
    exact ⟨details.pinned, rfl, (agrees pinned found).symm⟩
  · exact ⟨pinned, (pin_of_load loaded key).symm.trans found, rfl⟩

theorem Orderly.rename (orderly : trust.Orderly store started)
    (readsBack : store.toml.ReadsBack) (id : Nat) (details : CertificateDetails) (file : Nat)
    (written : List Char)
    (isWriting : (trust.attempts id).stage = .writing details file written []) :
    (trust.rename store id).Orderly store started := by
  obtain ⟨named, -⟩ := orderly.temporary id details file written [] isWriting
  obtain ⟨disk, renamed⟩ := Option.isSome_iff_exists.mp (Disk.rename_isSome .known named)
  obtain ⟨pins, -, -, reloaded, made, read⟩ := orderly.load_rename readsBack isWriting renamed
  have keeps := keeps_rename orderly readsBack isWriting renamed
  have none (other : Nat) :
      (((trust.setDisk disk).setStage id .handshake).attempts other).stage.document = none := by
    change (Function.update trust.attempts id ((trust.attempts id).at .handshake)
      other).stage.document = none
    rw [stage_update]
    split_ifs with here
    · rfl
    · exact orderly.alone (document_of_writing isWriting) other here
  unfold Trust.rename
  rw [renamed]
  constructor
  · exact Disk.distinct_rename orderly.distinct renamed
  · exact ⟨⟨_, reloaded⟩, Or.inr ⟨_, written, made, read⟩⟩
  · intro first second firstHas
    exact absurd (none first) firstHas
  · intro other contents has
    rw [none other] at has
    cases has
  · intro other details' file' written' left' otherWrites
    have has := none other
    rw [document_of_writing otherWrites] at has
    cases has
  · intro other found isOwed
    unfold Settled
    change (∃ pinned, Trust.pin store ((trust.setDisk disk).setStage id .handshake)
        (Function.update trust.attempts id ((trust.attempts id).at .handshake) other).key =
          some pinned ∧ pinned.sha256 = found.fingerprint) ∨
      (Function.update trust.attempts id ((trust.attempts id).at .handshake) other).stage.remembers
        = some found
    rw [key_update, stage_update]
    rcases orderly.settled other found isOwed with ⟨pinned, isPinned, same⟩ | remembers
    · obtain ⟨pinned', isPinned', same'⟩ := keeps _ pinned isPinned
      exact Or.inl ⟨pinned', isPinned', same'.trans same⟩
    · split_ifs with here
      · left
        rw [here, isWriting] at remembers
        cases remembers
        rw [here]
        have isPinned :
            ((trust.setDisk disk).setStage id .handshake).pin store (trust.attempts id).key =
              (pins.insert (trust.attempts id).key details.pinned).get? (trust.attempts id).key :=
          pin_of_load reloaded _
        rw [OrderedMap.get?_insert, if_pos rfl] at isPinned
        exact ⟨details.pinned, isPinned, rfl⟩
      · exact Or.inr remembers

theorem Orderly.next (orderly : trust.Orderly store started) (readsBack : store.toml.ReadsBack)
    (step : TrustStep) (admitted : trust.Admits store step) :
    (trust.next store step).Orderly store started := by
  unfold Trust.next
  cases step with
  | handshake id system presented =>
    dsimp only
    split
    next idle => exact orderly.handshake id system presented idle
    next => exact orderly
  | answer id confirmed =>
    dsimp only
    split
    next details asks => exact orderly.answer id details confirmed asks
    next => exact orderly
  | load id =>
    dsimp only
    split
    next details trusts => exact orderly.load id details trusts admitted
    next => exact orderly
  | create id =>
    dsimp only
    split
    next details contents merged => exact orderly.create id details contents merged
    next => exact orderly
  | write id count =>
    dsimp only
    split
    next details file written left isWriting =>
      exact orderly.write id details file written left count isWriting
    next => exact orderly
  | rename id =>
    dsimp only
    split
    next details file written isWriting =>
      exact orderly.rename readsBack id details file written isWriting
    next => exact orderly
  | refuse id err =>
    dsimp only
    split
    next details stage => exact orderly.giveUp id details err (by rw [stage]; rfl)
    next details contents stage => exact orderly.giveUp id details err (by rw [stage]; rfl)
    next details file written left stage => exact orderly.giveUp id details err (by rw [stage]; rfl)
    next => exact orderly

/-- Only a renaming changes the file. -/
theorem keeps_next (orderly : trust.Orderly store started) (readsBack : store.toml.ReadsBack)
    (step : TrustStep) : trust.Keeps store (trust.next store step) := by
  unfold Trust.next
  cases step with
  | handshake id system presented =>
    dsimp only
    split
    · apply keeps_of_read
      unfold Trust.handshake
      dsimp only
      split <;> rfl
    · exact keeps_of_read rfl
  | answer id confirmed =>
    dsimp only
    split
    · apply keeps_of_read
      unfold Trust.answer
      split_ifs <;> rfl
    · exact keeps_of_read rfl
  | load id =>
    dsimp only
    split
    · apply keeps_of_read
      unfold Trust.load
      split
      · rfl
      · split <;> rfl
    · exact keeps_of_read rfl
  | create id =>
    dsimp only
    split
    · apply keeps_of_read
      apply trust.disk.read_create_of_ne orderly.distinct
      decide
    · exact keeps_of_read rfl
  | write id count =>
    dsimp only
    split
    next details file written left isWriting =>
      apply keeps_of_read
      apply trust.disk.read_writeAt_of_other
      obtain ⟨named, -⟩ := orderly.temporary id details file written left isWriting
      intro isKnown
      cases orderly.distinct .known .temporary file isKnown named
    next => exact keeps_of_read rfl
  | rename id =>
    dsimp only
    split
    next details file written isWriting =>
      unfold Trust.rename
      split
      next => exact keeps_of_read rfl
      next disk renamed => exact keeps_rename orderly readsBack isWriting renamed
    next => exact keeps_of_read rfl
  | refuse id err =>
    dsimp only
    split <;> exact keeps_of_read rfl

theorem Keeps.trans {first second third : Trust} (before : first.Keeps store second)
    (later : second.Keeps store third) : first.Keeps store third := by
  intro key pinned found
  obtain ⟨pinned', found', same⟩ := before key pinned found
  obtain ⟨pinned'', found'', same'⟩ := later key pinned' found'
  exact ⟨pinned'', found'', same'.trans same⟩

theorem Orderly.after (orderly : trust.Orderly store started) (readsBack : store.toml.ReadsBack)
    (steps : List TrustStep) (admitted : trust.Admitted store steps) :
    (trust.after store steps).Orderly store started := by
  induction steps generalizing trust with
  | nil => exact orderly
  | cons step steps ih => exact ih (orderly.next readsBack step admitted.1) admitted.2

theorem keeps_after (orderly : trust.Orderly store started) (readsBack : store.toml.ReadsBack)
    (steps : List TrustStep) (admitted : trust.Admitted store steps) :
    trust.Keeps store (trust.after store steps) := by
  induction steps generalizing trust with
  | nil => exact keeps_of_read rfl
  | cons step steps ih =>
    exact (keeps_next orderly readsBack step).trans
      (ih (orderly.next readsBack step admitted.1) admitted.2)

theorem after_append (trust : Trust) (first second : List TrustStep) :
    trust.after store (first ++ second) = (trust.after store first).after store second := by
  induction first generalizing trust with
  | nil => rfl
  | cons step steps ih => exact ih (trust.next store step)

theorem admitted_append (trust : Trust) (first second : List TrustStep) :
    trust.Admitted store (first ++ second) ↔
      trust.Admitted store first ∧ (trust.after store first).Admitted store second := by
  induction first generalizing trust with
  | nil => simp [Admitted, after]
  | cons step steps ih => simp only [List.cons_append, Admitted, after, ih, and_assoc]

/-- In a run without an overlap every confirmed certificate is pinned or still being written down,
no pin is replaced by a different one, and the file is a whole document all the time. -/
theorem pinned_of_run (readsBack : store.toml.ReadsBack) (fresh : trust.Fresh store)
    (before steps : List TrustStep) (admitted : trust.Admitted store (before ++ steps)) :
    (∀ id details, (id, details) ∈ (trust.after store (before ++ steps)).owed →
      (trust.after store (before ++ steps)).Settled store id details) ∧
    (trust.after store before).Keeps store (trust.after store (before ++ steps)) ∧
    (trust.after store (before ++ steps)).Whole store (trust.disk.read .known) := by
  have orderly := fresh.orderly.after readsBack (before ++ steps) admitted
  obtain ⟨admittedBefore, admittedSteps⟩ := (admitted_append trust before steps).mp admitted
  constructor
  · exact orderly.settled
  · constructor
    · rw [after_append]
      exact keeps_after (fresh.orderly.after readsBack before admittedBefore) readsBack steps
        admittedSteps
    · exact orderly.whole

section Examples

/-- The document of a few pins with plain texts. -/
def plainDocument (entries : List (String × Pinned)) : List Char :=
  "\n".toList.intercalate <| entries.map fun entry =>
    ("[\"" ++ entry.1 ++ "\"]\nsha256 = \"" ++ entry.2.sha256 ++ "\"\nsubject = \"" ++
      entry.2.subject ++ "\"\nexpires = \"" ++ entry.2.expires ++ "\"\n").toList

def nasDetails : CertificateDetails := ⟨"SHA256:n", "CN=nas", "2030-01-01"⟩
def boxDetails : CertificateDetails := ⟨"SHA256:b", "CN=box", "2031-01-01"⟩

/-- The documents that the runs below write. -/
def plainDocuments : List (List (String × Pinned)) :=
  [[], [("nas:21", nasDetails.pinned)], [("nas:21", boxDetails.pinned)],
    [("box:21", boxDetails.pinned)]]

/-- The `toml` crate on these documents. -/
def plainToml : Toml where
  toText pins :=
    if pins.entries ∈ plainDocuments then .ok (plainDocument pins.entries) else .error "other"
  fromText contents :=
    if contents = plainDocument [("nas:21", nasDetails.pinned)] then
      .ok (OrderedMap.empty.insert "nas:21" nasDetails.pinned)
    else if contents = plainDocument [("nas:21", boxDetails.pinned)] then
      .ok (OrderedMap.empty.insert "nas:21" boxDetails.pinned)
    else if contents = plainDocument [("box:21", boxDetails.pinned)] then
      .ok (OrderedMap.empty.insert "box:21" boxDetails.pinned)
    else if contents = [] then .ok OrderedMap.empty
    else .error "TOML parse error"

def plainStore : KnownCertificates := ⟨"known_certificates.toml", plainToml⟩

/-- No file, and attempts to connect to the host that belongs to their number. -/
def newcomers (hosts : Nat → String) : Trust where
  disk := Disk.empty
  attempts id := ⟨hosts id, 21, .handshake⟩
  owed := []

theorem fresh_newcomers (hosts : Nat → String) : (newcomers hosts).Fresh plainStore where
  distinct := by
    intro first second file named
    cases named
  readable := ⟨OrderedMap.empty, rfl⟩
  stages _ := rfl
  owed := rfl

theorem plainToml_readsBack : plainToml.ReadsBack := by
  intro pins contents made
  change (if pins.entries ∈ plainDocuments then Except.ok (plainDocument pins.entries)
    else Except.error "other") = Except.ok contents at made
  split_ifs at made with listed
  cases made
  obtain ⟨entries, sorted⟩ := pins
  have cases : entries = [] ∨ entries = [("nas:21", nasDetails.pinned)] ∨
      entries = [("nas:21", boxDetails.pinned)] ∨ entries = [("box:21", boxDetails.pinned)] := by
    simpa [plainDocuments] using listed
  rcases cases with rfl | rfl | rfl | rfl <;> rfl

/-- Attempt `id` asks about the certificate, and the user confirms. -/
def confirming (id : Nat) (presented : CertificateDetails) : List TrustStep :=
  [.handshake id false presented, .answer id true]

def remembering (id : Nat) : List TrustStep := [.load id, .create id, .write id 100, .rename id]

/-- Reading for an insertion is fine for an attempt that is by itself and asks about a host
without a pin. -/
theorem admits_load {id : Nat} (others : ∀ other, (trust.attempts other).stage.document = none)
    (unpinned : trust.pin store (trust.attempts id).key = none) :
    trust.Admits store (.load id) := by
  intro details _
  constructor
  · exact others
  · intro pinned found
    rw [unpinned] at found
    cases found

theorem pinned_of_run_single :
    ((newcomers fun _ => "nas").after plainStore
      (confirming 0 nasDetails ++ remembering 0)).Settled plainStore 0 nasDetails := by
  have single : ∀ other, (((newcomers fun _ => "nas").after plainStore
      (confirming 0 nasDetails)).attempts other).stage.document = none := by
    intro other
    by_cases zero : other = 0
    · rw [zero]
      decide
    · have untouched (first second : Verification) : Function.update (Function.update
          (newcomers fun _ => "nas").attempts 0 first) 0 second other =
            (newcomers fun _ => "nas").attempts other := by
        rw [Function.update_of_ne zero, Function.update_of_ne zero]
      exact congrArg (fun attempt => attempt.stage.document) (untouched _ _)
  have admitted : (newcomers fun _ => "nas").Admitted plainStore
      (confirming 0 nasDetails ++ remembering 0) := by
    rw [admitted_append]
    constructor
    · exact ⟨trivial, trivial, trivial⟩
    · exact ⟨admits_load single (by decide), trivial, trivial, trivial, trivial⟩
  exact (pinned_of_run plainToml_readsBack (fresh_newcomers _) (confirming 0 nasDetails)
    (remembering 0) admitted).1 0 nasDetails (by decide)

/-- Attempts 0 and 1 connect to different hosts. -/
def nasAndBox (id : Nat) : String := if id = 0 then "nas" else "box"

def afterBoth (hosts : Nat → String) (steps : List TrustStep) : Trust :=
  (newcomers hosts).after plainStore
    (confirming 0 nasDetails ++ confirming 1 boxDetails ++ steps)

/-- Attempt 1 reads before attempt 0 renames. -/
def overtaken : Trust :=
  afterBoth nasAndBox
    [.load 0, .load 1, .create 0, .write 0 100, .rename 0, .create 1, .write 1 100, .rename 1]

/-- Attempt 1 empties the temporary file that attempt 0 renames. -/
def emptied : Trust :=
  afterBoth nasAndBox
    [.load 0, .load 1, .create 0, .write 0 100, .create 1, .write 1 10, .rename 0]

/-- With overlaps a confirmed certificate is lost, a pin is replaced by the certificate of an
answer that came too late, and the file is a piece of a document. -/
theorem pinned_of_run_fails :
    ((0, nasDetails) ∈ overtaken.owed ∧ ¬overtaken.Settled plainStore 0 nasDetails) ∧
    ¬(afterBoth (fun _ => "nas") (remembering 0)).Keeps plainStore
      (afterBoth (fun _ => "nas") (remembering 0 ++ remembering 1)) ∧
    ¬emptied.Whole plainStore none := by
  constructor
  · constructor
    · decide
    · rintro (⟨pinned, found, -⟩ | remembers)
      · have lost : overtaken.pin plainStore (overtaken.attempts 0).key = none := by
          decide +kernel
        rw [lost] at found
        cases found
      · have idle : (overtaken.attempts 0).stage.remembers = none := by decide
        rw [idle] at remembers
        cases remembers
  · constructor
    · intro keeps
      have first : (afterBoth (fun _ => "nas") (remembering 0)).pin plainStore "nas:21" =
          some nasDetails.pinned := by decide +kernel
      have second : (afterBoth (fun _ => "nas") (remembering 0 ++ remembering 1)).pin plainStore
          "nas:21" = some boxDetails.pinned := by decide +kernel
      obtain ⟨pinned, found, same⟩ := keeps "nas:21" _ first
      rw [second] at found
      cases found
      revert same
      decide
    · rintro ⟨⟨pins, loaded⟩, -⟩
      have unread : plainStore.load emptied.disk =
          .error (plainStore.storeError "TOML parse error") := by
        have contents : emptied.disk.read .known = some "[\"box:21\"]".toList := by decide
        unfold KnownCertificates.load
        rw [contents]
        rfl
      rw [unread] at loaded
      cases loaded

end Examples

end Trust

end Porthmos
