import Porthmos.VersionedTable

/-!
# Versions never go back

The table remembers the highest version that was written for a path as long as anybody may
write it.  So the file always holds the contents of the highest version whose write has
succeeded, in whatever order the writes take their steps.
-/

namespace Porthmos

/-! ### Paths -/

theorem tempPath_injective {path other : String} (same : tempPath path = tempPath other) :
    path = other := by
  unfold tempPath at same
  exact String.append_left_inj _ |>.mp same

theorem tempPath_ne (path : String) : tempPath path ≠ path := by
  intro same
  have length := congrArg String.length same
  unfold tempPath at length
  rw [String.length_append] at length
  have suffix : ".tmp".length = 4 := by decide
  omega

/-- Writing the other path touches neither the file at the path nor its temporary file. -/
structure Apart (path other : String) : Prop where
  path_ne : other ≠ path
  temp_ne : other ≠ tempPath path
  ne_temp : tempPath other ≠ path

/-- All calls for the path have versions, and the other calls keep apart from it. -/
def PersistStep.Concerns (path : String) : PersistStep → Prop
  | .issue other _ versioned => other = path ∧ versioned = true ∨ Apart path other
  | .advance _ _ _ => True

namespace WriteStage

/-- The lock of a write that has found its version to be newer. -/
def writing : WriteStage → Option Nat
  | entered lock | opened lock | filled lock | replaced lock => some lock
  | _ => none

/-- The version of a write that has replaced the file is remembered. -/
def settled (stage : WriteStage) : Bool := stage.wrote && stage.writing.isNone

theorem guard_of_writing {stage : WriteStage} {lock : Nat} (writes : stage.writing = some lock) :
    stage.guard = some lock := by
  cases stage <;> cases writes <;> rfl

theorem wrote_cases {stage : WriteStage} (wrote : stage.wrote = true) :
    (∃ lock, stage = .replaced lock) ∨ stage.settled = true := by
  cases stage with
  | replaced lock => exact Or.inl ⟨lock, rfl⟩
  | ended _ outcome | unlocked _ outcome | dropped outcome | releasing outcome _
  | checking outcome _ _ _ | done outcome =>
    right
    cases outcome with
    | written => rfl
    | skipped | failed => cases wrote
  | _ => cases wrote

end WriteStage

namespace Persist

variable {persist after : Persist} {path : String} {initial : Option Bytes} {id : Nat}
  {call : WriteCall}

/-! ### The file -/

/-- The file holds the contents of the highest version that was written, and before the first
write what it held at the start. -/
structure Latest (path : String) (initial : Option Bytes) (persist : Persist) : Prop where
  untouched : (∀ id call, persist.calls.get? id = some call → call.path = path →
    call.stage.wrote = false) → persist.files path = initial
  latest : ∀ id call version, persist.calls.get? id = some call → call.path = path →
    call.stage.wrote = true → call.version = some version →
    (∀ other last later, persist.calls.get? other = some last → last.path = path →
      last.stage.wrote = true → last.version = some later → later ≤ version) →
    persist.files path = some call.contents

/-- The table remembers every version that was written. -/
def Remembers (path : String) (persist : Persist) : Prop :=
  ∀ id call version, persist.calls.get? id = some call → call.path = path →
    call.stage.settled = true → call.version = some version →
    ∃ lock, persist.writeLocks.get? path = some lock ∧ version ≤ (persist.locks lock).applied

/-- What holds of the versions of a path while its calls take their steps. -/
structure Versions (path : String) (initial : Option Bytes) (persist : Persist) : Prop where
  concerns : ∀ id call, persist.calls.get? id = some call →
    (call.path = path ∧ ∃ version, call.version = some version ∧ 0 < version) ∨
      Apart path call.path
  newer : ∀ id call lock version, persist.calls.get? id = some call → call.path = path →
    call.stage.writing = some lock → call.version = some version →
    (persist.locks lock).applied < version
  remembers : Remembers path persist
  temp : ∀ id call lock, persist.calls.get? id = some call → call.path = path →
    call.stage = .filled lock → persist.files (tempPath path) = some call.contents
  latest : Latest path initial persist

theorem Sound.alone (sound : persist.Sound) {other : Nat} {last : WriteCall} {lock held : Nat}
    (found : persist.calls.get? id = some call) (guard : call.stage.guard = some lock)
    (isLast : persist.calls.get? other = some last) (otherGuard : last.stage.guard = some held)
    (samePath : last.path = call.path) : other = id := by
  have known := sound.arcs id call lock found (WriteStage.arc_of_guard guard)
  have otherKnown := sound.arcs other last held isLast (WriteStage.arc_of_guard otherGuard)
  rw [samePath, known] at otherKnown
  cases otherKnown
  have holder := sound.guards id call lock found guard
  rw [sound.guards other last lock isLast otherGuard] at holder
  exact Option.some.inj holder

/-! ### Steps -/

namespace Versions

/-- A call goes on without replacing the file of the path or applying a version to it. -/
theorem keep (versions : Versions path initial persist) (sound : persist.Sound)
    (found : persist.calls.get? id = some call) {stage : WriteStage}
    (calls : after.calls = persist.calls.insert id { call with stage })
    (files : after.files path = persist.files path)
    (temps : ∀ other last lock, other ≠ id → persist.calls.get? other = some last →
      last.path = path → last.stage = .filled lock →
      after.files (tempPath path) = persist.files (tempPath path))
    (kept : ∀ lock, persist.writeLocks.get? path = some lock →
      refs persist.calls lock ≠ 0 ∨ (persist.locks lock).applied ≠ 0 →
      after.writeLocks.get? path = some lock ∧
        (after.locks lock).applied = (persist.locks lock).applied)
    (wrote : call.path = path → stage.wrote = call.stage.wrote)
    (newer : call.path = path → ∀ lock version, stage.writing = some lock →
      call.version = some version → (after.locks lock).applied < version)
    (settled : call.path = path → stage.settled = true → call.stage.settled = true)
    (temp : call.path = path → ∀ lock, stage = .filled lock →
      after.files (tempPath path) = some call.contents) :
    Versions path initial after := by
  have cases {other : Nat} {last : WriteCall} (isLast : after.calls.get? other = some last) :
      (other = id ∧ last = { call with stage }) ∨
        other ≠ id ∧ persist.calls.get? other = some last := by
    rw [calls] at isLast
    exact OrderedMap.get?_insert_cases isLast
  have stays {other : Nat} {last : WriteCall} (isLast : persist.calls.get? other = some last) :
      ∃ next, after.calls.get? other = some next ∧ next.path = last.path ∧
        next.version = last.version ∧ next.contents = last.contents ∧
        (last.path = path → next.stage.wrote = last.stage.wrote) := by
    rw [calls, OrderedMap.get?_insert]
    split_ifs with same
    · subst same
      cases found.symm.trans isLast
      exact ⟨_, rfl, rfl, rfl, rfl, wrote⟩
    · exact ⟨last, isLast, rfl, rfl, rfl, fun _ => rfl⟩
  constructor
  · intro other last isLast
    rcases cases isLast with ⟨_, rfl⟩ | ⟨_, earlier⟩
    · exact versions.concerns id call found
    · exact versions.concerns other last earlier
  · intro other last lock version isLast onPath writes isVersion
    rcases cases isLast with ⟨_, rfl⟩ | ⟨_, earlier⟩
    · exact newer onPath lock version writes isVersion
    · have isArc := WriteStage.arc_of_guard (WriteStage.guard_of_writing writes)
      have known := sound.arcs other last lock earlier isArc
      rw [onPath] at known
      rw [(kept lock known (Or.inl fun none => arc_ne_of_refs none earlier isArc)).2]
      exact versions.newer other last lock version earlier onPath writes isVersion
  · intro other last version isLast onPath isSettled isVersion
    obtain ⟨lock, known, atLeast⟩ :
        ∃ lock, persist.writeLocks.get? path = some lock ∧ version ≤ (persist.locks lock).applied := by
      rcases cases isLast with ⟨_, rfl⟩ | ⟨_, earlier⟩
      · exact versions.remembers id call version found onPath (settled onPath isSettled) isVersion
      · exact versions.remembers other last version earlier onPath isSettled isVersion
    have positive : 0 < version := by
      have concern : (last.path = path ∧ ∃ version, last.version = some version ∧ 0 < version) ∨
          Apart path last.path := by
        rcases cases isLast with ⟨_, rfl⟩ | ⟨_, earlier⟩
        · exact versions.concerns id call found
        · exact versions.concerns other last earlier
      rcases concern with ⟨_, given, isGiven, positive⟩ | apart
      · rw [isVersion] at isGiven
        cases isGiven
        exact positive
      · exact absurd onPath apart.path_ne
    obtain ⟨stillKnown, same⟩ := kept lock known (Or.inr (by omega))
    exact ⟨lock, stillKnown, same ▸ atLeast⟩
  · intro other last lock isLast onPath isFilled
    rcases cases isLast with ⟨_, rfl⟩ | ⟨different, earlier⟩
    · exact temp onPath lock isFilled
    · rw [temps other last lock different earlier onPath isFilled]
      exact versions.temp other last lock earlier onPath isFilled
  · constructor
    · intro none
      rw [files]
      apply versions.latest.untouched
      intro other last isLast onPath
      obtain ⟨next, isNext, samePath, _, _, sameWrote⟩ := stays isLast
      rw [← sameWrote onPath]
      exact none other next isNext (samePath.trans onPath)
    · intro other last version isLast onPath isWritten isVersion highest
      rw [files]
      have older (third : Nat) (given : WriteCall) (later : Nat)
          (isGiven : persist.calls.get? third = some given) (givenPath : given.path = path)
          (givenWritten : given.stage.wrote = true) (isLater : given.version = some later) :
          later ≤ version := by
        obtain ⟨next, isNext, samePath, sameVersion, _, sameWrote⟩ := stays isGiven
        exact highest third next later isNext (samePath.trans givenPath)
          ((sameWrote givenPath).trans givenWritten) (sameVersion.trans isLater)
      rcases cases isLast with ⟨_, rfl⟩ | ⟨_, earlier⟩
      · exact versions.latest.latest id call version found onPath
          ((wrote onPath).symm.trans isWritten) isVersion older
      · exact versions.latest.latest other last version earlier onPath isWritten isVersion older

/-- Every version that was written is older than the one of a write that is about to replace the
file. -/
theorem older (versions : Versions path initial persist) (sound : persist.Sound)
    (found : persist.calls.get? id = some call) (onPath : call.path = path) {lock version : Nat}
    (writes : call.stage.writing = some lock) (isVersion : call.version = some version)
    {other : Nat} {last : WriteCall} {later : Nat} (isLast : persist.calls.get? other = some last)
    (lastPath : last.path = path) (different : other ≠ id) (wrote : last.stage.wrote = true)
    (isLater : last.version = some later) : later < version := by
  have guard := WriteStage.guard_of_writing writes
  rcases WriteStage.wrote_cases wrote with ⟨held, isReplaced⟩ | settled
  · exact absurd (sound.alone found guard isLast (by rw [isReplaced]; rfl)
      (lastPath.trans onPath.symm)) different
  · obtain ⟨remembered, known, atLeast⟩ :=
      versions.remembers other last later isLast lastPath settled isLater
    have isKnown := sound.arcs id call lock found (WriteStage.arc_of_guard guard)
    rw [onPath, known] at isKnown
    cases isKnown
    exact atLeast.trans_lt (versions.newer id call _ version found onPath writes isVersion)

/-- The file is replaced. -/
theorem replace (versions : Versions path initial persist) (sound : persist.Sound)
    (found : persist.calls.get? id = some call) (onPath : call.path = path) {lock : Nat}
    (stage : call.stage = .filled lock) :
    Versions path initial (((persist.setFile call.path (persist.files (tempPath call.path))).setFile
      (tempPath call.path) none).setStage id call (.replaced lock)) := by
  subst onPath
  have writes : call.stage.writing = some lock := by rw [stage]; rfl
  have guard := WriteStage.guard_of_writing writes
  have file : (((persist.setFile call.path (persist.files (tempPath call.path))).setFile
      (tempPath call.path) none).setStage id call (.replaced lock)).files call.path =
        some call.contents := by
    change Function.update (Function.update persist.files call.path _) (tempPath call.path) none
      call.path = _
    rw [Function.update_of_ne (tempPath_ne _).symm, Function.update_self]
    exact versions.temp id call lock found rfl stage
  constructor
  · intro other last isLast
    rcases get?_setStage_cases isLast with ⟨_, rfl⟩ | ⟨_, earlier⟩
    · exact versions.concerns id call found
    · exact versions.concerns other last earlier
  · intro other last held version isLast onPath otherWrites isVersion
    rcases get?_setStage_cases isLast with ⟨_, rfl⟩ | ⟨_, earlier⟩
    · cases otherWrites
      exact versions.newer id call lock version found rfl writes isVersion
    · exact versions.newer other last held version earlier onPath otherWrites isVersion
  · intro other last version isLast onPath isSettled isVersion
    rcases get?_setStage_cases isLast with ⟨_, rfl⟩ | ⟨_, earlier⟩
    · cases isSettled
    · exact versions.remembers other last version earlier onPath isSettled isVersion
  · intro other last held isLast onPath isFilled
    rcases get?_setStage_cases isLast with ⟨_, rfl⟩ | ⟨different, earlier⟩
    · cases isFilled
    · exact absurd (sound.alone found guard earlier (by rw [isFilled]; rfl) onPath) different
  · constructor
    · intro none
      have unwritten := none id _ ((OrderedMap.get?_insert ..).trans (if_pos rfl)) rfl
      cases unwritten
    · intro other last version isLast onPath isWritten isVersion highest
      rcases get?_setStage_cases isLast with ⟨_, rfl⟩ | ⟨different, earlier⟩
      · exact file
      · obtain ⟨_, newest, isNewest, _⟩ | apart := versions.concerns id call found
        · have older := versions.older sound found rfl writes isNewest earlier onPath different
            isWritten isVersion
          have atMost := highest id _ newest ((OrderedMap.get?_insert ..).trans (if_pos rfl)) rfl rfl
            isNewest
          omega
        · exact absurd rfl apart.path_ne

/-- The version is remembered. -/
theorem apply (versions : Versions path initial persist) (sound : persist.Sound)
    (found : persist.calls.get? id = some call) (onPath : call.path = path) {lock : Nat}
    (stage : call.stage = .replaced lock) :
    Versions path initial ((persist.setLock lock { persist.locks lock with
      applied := call.version.getD (persist.locks lock).applied }).setStage id call
        (.ended lock .written)) := by
  subst onPath
  have writes : call.stage.writing = some lock := by rw [stage]; rfl
  have guard := WriteStage.guard_of_writing writes
  have known := sound.arcs id call lock found (WriteStage.arc_of_guard guard)
  obtain ⟨_, version, isVersion, _⟩ | apart := versions.concerns id call found
  · have applied : (Function.update persist.locks lock { persist.locks lock with
        applied := call.version.getD (persist.locks lock).applied } lock).applied = version := by
      rw [Function.update_self, isVersion]
      rfl
    have newest := versions.newer id call lock version found rfl writes isVersion
    constructor
    · intro other last isLast
      rcases get?_setStage_cases isLast with ⟨_, rfl⟩ | ⟨_, earlier⟩
      · exact versions.concerns id call found
      · exact versions.concerns other last earlier
    · intro other last held given isLast onPath otherWrites isGiven
      rcases get?_setStage_cases isLast with ⟨_, rfl⟩ | ⟨different, earlier⟩
      · cases otherWrites
      · exact absurd (sound.alone found guard earlier (WriteStage.guard_of_writing otherWrites)
          onPath) different
    · intro other last given isLast onPath isSettled isGiven
      refine ⟨lock, known, ?_⟩
      change given ≤ (Function.update persist.locks lock _ lock).applied
      rw [applied]
      rcases get?_setStage_cases isLast with ⟨_, rfl⟩ | ⟨_, earlier⟩
      · rw [show call.version = some given from isGiven] at isVersion
        cases isVersion
        exact le_rfl
      · obtain ⟨held, isHeld, atLeast⟩ :=
          versions.remembers other last given earlier onPath isSettled isGiven
        rw [known] at isHeld
        cases isHeld
        exact (atLeast.trans_lt newest).le
    · intro other last held isLast onPath isFilled
      rcases get?_setStage_cases isLast with ⟨_, rfl⟩ | ⟨different, earlier⟩
      · cases isFilled
      · exact absurd (sound.alone found guard earlier (by rw [isFilled]; rfl) onPath) different
    · -- The call had written before the step as well.
      have wrote : call.stage.wrote = true := by rw [stage]; rfl
      constructor
      · intro none
        have unwritten := none id _ ((OrderedMap.get?_insert ..).trans (if_pos rfl)) rfl
        cases unwritten
      · intro other last given isLast onPath isWritten isGiven highest
        have before (third : Nat) (earlierCall : WriteCall) (later : Nat)
            (isThird : persist.calls.get? third = some earlierCall)
            (thirdPath : earlierCall.path = call.path) (thirdWrote : earlierCall.stage.wrote = true)
            (isLater : earlierCall.version = some later) : later ≤ given := by
          by_cases same : third = id
          · subst same
            cases found.symm.trans isThird
            exact highest third _ later ((OrderedMap.get?_insert ..).trans (if_pos rfl)) rfl rfl isLater
          · exact highest third earlierCall later
              ((OrderedMap.get?_insert ..).trans ((if_neg same).trans isThird)) thirdPath thirdWrote
              isLater
        rcases get?_setStage_cases isLast with ⟨_, rfl⟩ | ⟨_, earlier⟩
        · exact versions.latest.latest id call given found rfl wrote isGiven before
        · exact versions.latest.latest other last given earlier onPath isWritten isGiven before
  · exact absurd rfl apart.path_ne

/-- A step of a call that does not touch the locks, the table or the file of the path. -/
theorem keep_files (versions : Versions path initial persist) (sound : persist.Sound)
    (found : persist.calls.get? id = some call) {stage : WriteStage}
    (calls : after.calls = persist.calls.insert id { call with stage })
    (locks : after.locks = persist.locks) (table : after.writeLocks = persist.writeLocks)
    {lock : Nat} (guard : call.stage.guard = some lock)
    (file : call.path ≠ path → after.files path = persist.files path)
    (ownFile : call.path = path → after.files path = persist.files path)
    (others : call.path ≠ path → after.files (tempPath path) = persist.files (tempPath path))
    (wrote : call.path = path → stage.wrote = call.stage.wrote)
    (newer : call.path = path → ∀ held version, stage.writing = some held →
      call.version = some version → (persist.locks held).applied < version)
    (settled : call.path = path → stage.settled = true → call.stage.settled = true)
    (temp : call.path = path → ∀ held, stage = .filled held →
      after.files (tempPath path) = some call.contents) :
    Versions path initial after := by
  apply versions.keep sound found calls
  · by_cases onPath : call.path = path
    · exact ownFile onPath
    · exact file onPath
  · intro other last held different isLast lastPath isFilled
    by_cases onPath : call.path = path
    · exact absurd (sound.alone found guard isLast (by rw [isFilled]; rfl)
        (lastPath.trans onPath.symm)) different
    · exact others onPath
  · exact fun held known _ => ⟨table ▸ known, by rw [locks]⟩
  · exact wrote
  · exact locks ▸ newer
  · exact settled
  · exact temp

theorem keep_versions (versions : Versions path initial persist) (sound : persist.Sound)
    (found : persist.calls.get? id = some call) {stage : WriteStage}
    (calls : after.calls = persist.calls.insert id { call with stage })
    (files : after.files = persist.files)
    (kept : ∀ lock, persist.writeLocks.get? path = some lock →
      refs persist.calls lock ≠ 0 ∨ (persist.locks lock).applied ≠ 0 →
      after.writeLocks.get? path = some lock ∧
        (after.locks lock).applied = (persist.locks lock).applied)
    (wrote : stage.wrote = call.stage.wrote) (newer : stage.writing = none)
    (settled : stage.settled = call.stage.settled) : Versions path initial after := by
  apply versions.keep sound found calls (by rw [files]) (fun _ _ _ _ _ _ _ => by rw [files]) kept
  · exact fun _ => wrote
  · rw [newer]
    exact nofun
  · exact fun _ isSettled => settled ▸ isSettled
  · rintro - lock rfl
    cases newer

theorem setTemp_ne (versions : Versions path initial persist)
    (found : persist.calls.get? id = some call) (contents : Option Bytes) :
    (persist.setFile (tempPath call.path) contents).files path = persist.files path ∧
      (call.path ≠ path → (persist.setFile (tempPath call.path) contents).files (tempPath path) =
        persist.files (tempPath path)) := by
  constructor
  · apply Function.update_of_ne
    rcases versions.concerns id call found with ⟨onPath, _⟩ | apart
    · exact onPath ▸ (tempPath_ne _).symm
    · exact apart.ne_temp.symm
  · intro different
    exact Function.update_of_ne (fun same => different (tempPath_injective same).symm) _ _

theorem acts (versions : Versions path initial persist) (sound : persist.Sound)
    (found : persist.calls.get? id = some call) (acts : Acts persist id call after) :
    Versions path initial after := by
  -- A change of a lock that leaves its version alone.
  have sameApplied {lock : Nat} {state : PathLock} (same : state.applied = (persist.locks lock).applied)
      (held : Nat) (known : persist.writeLocks.get? path = some held)
      (_ : refs persist.calls held ≠ 0 ∨ (persist.locks held).applied ≠ 0) :
      persist.writeLocks.get? path = some held ∧
        ((persist.setLock lock state).locks held).applied = (persist.locks held).applied := by
    refine ⟨known, ?_⟩
    change (Function.update persist.locks lock state held).applied = _
    rw [Function.update_apply]
    split_ifs with isLock
    · rw [same, isLock]
    · rfl
  cases acts with
  | fetches stage free =>
    have fetched := sound.fetched call.path
    have calls : ((persist.writeLockFor call.path).1.setStage id call
        (.fetched (persist.writeLockFor call.path).2)).calls = persist.calls.insert id
          { call with stage := .fetched (persist.writeLockFor call.path).2 } :=
      congrArg (fun calls : OrderedMap Nat WriteCall => calls.insert id { call with
        stage := .fetched (persist.writeLockFor call.path).2 }) fetched.calls
    refine versions.keep_versions sound found calls fetched.files
      (fun held known _ => ⟨fetched.kept path held known, ?_⟩) (by rw [stage]; rfl) rfl
      (by rw [stage]; rfl)
    by_cases isThis : held = (persist.writeLockFor call.path).2
    · rcases fetched.same with ⟨_, _, same⟩ | ⟨_, isNew⟩
      · exact isThis ▸ same
      · have lt := sound.locks_lt path held known
        omega
    · exact congrArg PathLock.applied (fetched.others held isThis)
  | locks stage free =>
    exact versions.keep_versions sound found rfl rfl (sameApplied rfl) (by rw [stage]; rfl) rfl
      (by rw [stage]; rfl)
  | @skips lock stage outcome unwritten =>
    have noWrite : (WriteStage.ended lock outcome).wrote = call.stage.wrote := by
      rw [stage]
      cases outcome with
      | written => exact absurd rfl unwritten
      | skipped | failed => rfl
    refine versions.keep_versions sound found rfl rfl (fun held known _ => ⟨known, rfl⟩) noWrite rfl ?_
    unfold WriteStage.settled
    rw [noWrite, stage]
    rfl
  | @enters lock stage newer =>
    refine versions.keep_files sound found rfl rfl rfl
      (show call.stage.guard = some lock by rw [stage]; rfl)
      (fun _ => rfl) (fun _ => rfl) (fun _ => rfl) (fun _ => by rw [stage]; rfl) ?_
      (fun _ isSettled => by cases isSettled) nofun
    rintro - held version ⟨⟩ isVersion
    exact newer version isVersion
  | @opens lock stage =>
    obtain ⟨file, temp⟩ := versions.setTemp_ne found (some [])
    refine versions.keep_files sound found rfl rfl rfl
      (show call.stage.guard = some lock by rw [stage]; rfl)
      (fun _ => file) (fun _ => file) temp (fun _ => by rw [stage]; rfl) ?_
      (fun _ isSettled => by cases isSettled) nofun
    rintro onPath held version ⟨⟩ isVersion
    exact versions.newer id call lock version found onPath (by rw [stage]; rfl) isVersion
  | @fills lock stage =>
    obtain ⟨file, temp⟩ := versions.setTemp_ne found (some call.contents)
    refine versions.keep_files sound found rfl rfl rfl
      (show call.stage.guard = some lock by rw [stage]; rfl)
      (fun _ => file) (fun _ => file) temp (fun _ => by rw [stage]; rfl) ?_
      (fun _ isSettled => by cases isSettled) ?_
    · rintro onPath held version ⟨⟩ isVersion
      exact versions.newer id call lock version found onPath (by rw [stage]; rfl) isVersion
    · rintro rfl held -
      exact Function.update_self ..
  | @replaces lock stage =>
    by_cases onPath : call.path = path
    · exact versions.replace sound found onPath stage
    · obtain ⟨file, temp⟩ := versions.setTemp_ne found none
      have apart : Apart path call.path := by
        rcases versions.concerns id call found with ⟨same, _⟩ | apart
        · exact absurd same onPath
        · exact apart
      refine versions.keep_files sound found rfl rfl rfl
        (show call.stage.guard = some lock by rw [stage]; rfl)
        (fun _ => ?_) (fun same => absurd same onPath) (fun _ => ?_)
        (fun same => absurd same onPath) (fun same => absurd same onPath)
        (fun same => absurd same onPath) fun same => absurd same onPath
      · change Function.update (Function.update persist.files call.path _) (tempPath call.path) none
          path = _
        rw [Function.update_of_ne apart.ne_temp.symm, Function.update_of_ne apart.path_ne.symm]
      · change Function.update (Function.update persist.files call.path _) (tempPath call.path) none
          (tempPath path) = _
        rw [Function.update_of_ne fun same => onPath (tempPath_injective same).symm,
          Function.update_of_ne apart.temp_ne.symm]
  | @fails lock stage =>
    obtain ⟨file, temp⟩ := versions.setTemp_ne found none
    have before : call.stage.guard = some lock ∧ call.stage.wrote = false ∧
        call.stage.settled = false := by
      rcases stage with stage | stage | stage <;> rw [stage] <;> exact ⟨rfl, rfl, rfl⟩
    exact versions.keep_files sound found rfl rfl rfl before.1 (fun _ => file) (fun _ => file) temp
      (fun _ => before.2.1.symm) nofun nofun nofun
  | @applies lock stage =>
    by_cases onPath : call.path = path
    · exact versions.apply sound found onPath stage
    · have isArc := sound.arcs id call lock found (by rw [stage]; rfl)
      refine versions.keep sound found rfl rfl (fun _ _ _ _ _ _ _ => rfl)
        (fun held known _ => ⟨known, ?_⟩) (fun same => absurd same onPath)
        (fun same => absurd same onPath) (fun same => absurd same onPath)
        fun same => absurd same onPath
      refine congrArg PathLock.applied (Function.update_of_ne ?_ _ _)
      rintro rfl
      exact onPath (sound.injective _ _ _ isArc known)
  | @unlocks lock outcome stage =>
    refine versions.keep_versions sound found rfl rfl (sameApplied rfl) ?_ rfl ?_ <;> rw [stage] <;>
      cases outcome <;> rfl
  | @drops lock outcome stage =>
    refine versions.keep_versions sound found rfl rfl (sameApplied rfl) ?_ rfl ?_ <;> rw [stage] <;>
      cases outcome <;> rfl
  | @begins outcome stage free =>
    refine versions.keep_versions sound found rfl rfl (fun held known _ => ⟨known, rfl⟩) ?_ rfl ?_ <;>
      rw [stage] <;> cases outcome <;> rfl
  | @passes outcome left stage =>
    refine versions.keep_versions sound found rfl rfl (fun held known _ => ⟨known, rfl⟩) ?_ rfl ?_ <;>
      rcases stage with ⟨earlier, stage⟩ | ⟨tried, lock, stage⟩ <;> rw [stage] <;> cases outcome <;> rfl
  | @checks outcome earlier left tried lock stage isLock unused =>
    refine versions.keep_versions sound found rfl rfl (fun held known _ => ⟨known, rfl⟩) ?_ rfl ?_ <;>
      rw [stage] <;> cases outcome <;> rfl
  | @forgets outcome left tried lock stage unapplied =>
    obtain ⟨inTable, none⟩ := sound.checks id call tried lock found (by rw [stage]; rfl)
    refine versions.keep_versions sound found rfl rfl (fun held known depends => ?_) ?_ rfl ?_
    · have different : held ≠ lock := by
        rintro rfl
        rcases depends with referred | applied
        · exact referred none
        · exact applied unapplied
      refine ⟨?_, congrArg PathLock.applied (Function.update_of_ne different _ _)⟩
      change (persist.writeLocks.erase tried).get? path = some held
      rw [OrderedMap.get?_erase, if_neg, known]
      rintro rfl
      rw [inTable] at known
      exact different (Option.some.inj known).symm
    · rw [stage]
      cases outcome <;> rfl
    · rw [stage]
      cases outcome <;> rfl
  | @finishes outcome left stage =>
    refine versions.keep_versions sound found rfl rfl (fun held known _ => ⟨known, rfl⟩) ?_ rfl ?_ <;>
      rw [stage] <;> cases outcome <;> rfl

theorem issue (versions : Versions path initial persist) (sound : persist.Sound)
    (positive : 0 < persist.nextVersion) {other : String} (contents : Bytes) (versioned : Bool)
    (concerns : other = path ∧ versioned = true ∨ Apart path other) :
    Versions path initial (persist.issue other contents versioned) := by
  have fresh (call : WriteCall) : persist.calls.get? persist.nextCall ≠ some call :=
    fun found => lt_irrefl _ (sound.calls_lt _ call found)
  have cases {id : Nat} {last : WriteCall}
      (found : (persist.issue other contents versioned).calls.get? id = some last) :
      last = ⟨other, contents, if versioned then some persist.nextVersion else none, .ready⟩ ∨
        persist.calls.get? id = some last := by
    rcases OrderedMap.get?_insert_cases found with ⟨_, rfl⟩ | ⟨_, earlier⟩
    · exact Or.inl rfl
    · exact Or.inr earlier
  have stays {id : Nat} {last : WriteCall} (found : persist.calls.get? id = some last) :
      (persist.issue other contents versioned).calls.get? id = some last := by
    refine (OrderedMap.get?_insert ..).trans ?_
    rw [if_neg, found]
    rintro rfl
    exact fresh last found
  constructor
  · intro id last isLast
    rcases cases isLast with rfl | earlier
    · rcases concerns with ⟨rfl, rfl⟩ | apart
      · exact Or.inl ⟨rfl, _, rfl, positive⟩
      · exact Or.inr apart
    · exact versions.concerns id last earlier
  · intro id last lock version isLast onPath writes isVersion
    rcases cases isLast with rfl | earlier
    · cases writes
    · exact versions.newer id last lock version earlier onPath writes isVersion
  · intro id last version isLast onPath settled isVersion
    rcases cases isLast with rfl | earlier
    · cases settled
    · exact versions.remembers id last version earlier onPath settled isVersion
  · intro id last lock isLast onPath isFilled
    rcases cases isLast with rfl | earlier
    · cases isFilled
    · exact versions.temp id last lock earlier onPath isFilled
  · constructor
    · exact fun none => versions.latest.untouched fun id last isLast => none id last (stays isLast)
    · intro id last version isLast onPath wrote isVersion highest
      rcases cases isLast with rfl | earlier
      · cases wrote
      · exact versions.latest.latest id last version earlier onPath wrote isVersion
          fun third given later isGiven => highest third given later (stays isGiven)

end Versions

/-! ### Runs -/

theorem nextVersion_pos_next (positive : 0 < persist.nextVersion) (step : PersistStep) :
    0 < (persist.next step).nextVersion := by
  cases step with
  | issue other contents versioned =>
    change 0 < if versioned then persist.nextVersion + 1 else persist.nextVersion
    split_ifs
    · exact Nat.succ_pos _
    · exact positive
  | advance id ok tried =>
    change 0 < (persist.advance id ok tried).nextVersion
    rcases advance_cases persist id ok tried with same | ⟨call, found, acts⟩
    · rw [same]
      exact positive
    · generalize persist.advance id ok tried = after at acts
      cases acts with
      | fetches =>
        unfold writeLockFor
        cases persist.writeLocks.get? call.path <;> exact positive
      | _ => exact positive

theorem Versions.next (versions : Versions path initial persist) (sound : persist.Sound)
    (positive : 0 < persist.nextVersion) {step : PersistStep} (concerns : step.Concerns path) :
    Versions path initial (persist.next step) := by
  cases step with
  | issue other contents versioned => exact versions.issue sound positive contents versioned concerns
  | advance id ok tried =>
    change Versions path initial (persist.advance id ok tried)
    rcases advance_cases persist id ok tried with same | ⟨call, found, acts⟩
    · rw [same]
      exact versions
    · exact versions.acts sound found acts

theorem Versions.run (versions : Versions path initial persist) (sound : persist.Sound)
    (positive : 0 < persist.nextVersion) {steps : List PersistStep}
    (concerns : ∀ step ∈ steps, step.Concerns path) :
    Versions path initial (persist.after steps) ∧ (persist.after steps).Sound := by
  induction steps generalizing persist with
  | nil => exact ⟨versions, sound⟩
  | cons step rest ih =>
    exact ih (versions.next sound positive (concerns step List.mem_cons_self)) (sound.next step)
      (nextVersion_pos_next positive step)
      fun other member => concerns other (List.mem_cons_of_mem _ member)

theorem versions_start (files : String → Option Bytes) (path : String) :
    Versions path (files path) (start files) where
  concerns := by intro id call found; cases found
  newer := by intro id call lock version found; cases found
  remembers := by intro id call version found; cases found
  temp := by intro id call lock found; cases found
  latest := ⟨fun _ => rfl, by intro id call version found; cases found⟩

/-- A write whose version is older than one that was written changes nothing. -/
theorem Versions.advance_file (versions : Versions path initial persist) (sound : persist.Sound)
    (found : persist.calls.get? id = some call) (onPath : call.path = path) {version : Nat}
    (isVersion : call.version = some version)
    (outdated : ∃ other last later, persist.calls.get? other = some last ∧ last.path = path ∧
      last.stage.wrote = true ∧ last.version = some later ∧ version < later) (ok : Bool)
    (tried : String) : (persist.advance id ok tried).files path = persist.files path := by
  have setTemp (contents : Option Bytes) := (versions.setTemp_ne found contents).1
  rcases advance_cases persist id ok tried with same | ⟨again, isAgain, acts⟩
  · rw [same]
  · cases found.symm.trans isAgain
    generalize persist.advance id ok tried = after at acts
    cases acts with
    | fetches => exact congrFun (sound.fetched call.path).files path
    | opens => exact setTemp _
    | fills => exact setTemp _
    | fails => exact setTemp _
    | @replaces lock stage =>
      obtain ⟨other, last, later, isLast, lastPath, wrote, isLater, newer⟩ := outdated
      have writes : call.stage.writing = some lock := by rw [stage]; rfl
      have different : other ≠ id := by
        rintro rfl
        cases found.symm.trans isLast
        rw [stage] at wrote
        cases wrote
      have older := versions.older sound found onPath writes isVersion isLast lastPath different wrote
        isLater
      omega
    | _ => rfl

/-- Whatever the calls of `write_versioned` for a path, and of any writes elsewhere, and in whatever
order they take their steps, the file always holds the contents of the highest version that
was written, a call with an older version changes nothing, and the lock table remembers every
version that was written. -/
theorem latest_of_run (files : String → Option Bytes) (path : String) (steps : List PersistStep)
    (concerns : ∀ step ∈ steps, step.Concerns path) :
    Latest path (files path) ((start files).after steps) ∧
      Remembers path ((start files).after steps) ∧
      ∀ id call version, ((start files).after steps).calls.get? id = some call → call.path = path →
        call.version = some version →
        (∃ other last later, ((start files).after steps).calls.get? other = some last ∧
          last.path = path ∧ last.stage.wrote = true ∧ last.version = some later ∧
          version < later) →
        ∀ ok tried, (((start files).after steps).advance id ok tried).files path =
          ((start files).after steps).files path := by
  obtain ⟨versions, sound⟩ := (versions_start files path).run (sound_start files) Nat.one_pos concerns
  refine ⟨versions.latest, versions.remembers, ?_⟩
  intro id call version found onPath isVersion outdated ok tried
  exact versions.advance_file sound found onPath isVersion outdated ok tried

/-- Two calls for one path; the older one only gets the lock after the newer one has written. -/
def latestFirst : List PersistStep :=
  [.issue "s" [1] true, .issue "s" [2] true] ++ List.replicate 8 (.advance 1 true "") ++
    List.replicate 3 (.advance 0 true "")

theorem latest_of_run_two : ((start fun _ => none).after latestFirst).files "s" = some [2] := by
  have concerns (step : PersistStep) (member : step ∈ latestFirst) : step.Concerns "s" := by
    simp only [latestFirst, List.mem_append, List.mem_cons, List.not_mem_nil, or_false,
      List.mem_replicate] at member
    rcases member with ((rfl | rfl) | ⟨-, rfl⟩) | ⟨-, rfl⟩
    · exact Or.inl ⟨rfl, rfl⟩
    · exact Or.inl ⟨rfl, rfl⟩
    · trivial
    · trivial
  obtain ⟨⟨_, latest⟩, _⟩ := latest_of_run (fun _ => none) "s" latestFirst concerns
  apply latest 1 ⟨"s", [2], some 2, .unlocked 0 .written⟩ 2 (by decide) rfl rfl rfl
  intro other last later isLast _ _ isLater
  have isCall : (other, last) ∈ ((start fun _ => none).after latestFirst).calls.entries :=
    OrderedMap.mem_entries_iff.mpr isLast
  rw [show ((start fun _ => none).after latestFirst).calls.entries =
    [(0, ⟨"s", [1], some 1, .ended 0 .skipped⟩), (1, ⟨"s", [2], some 2, .unlocked 0 .written⟩)]
    from rfl] at isCall
  rcases List.mem_cons.mp isCall with first | isCall
  · cases first
    cases isLater
    exact Nat.le_succ 1
  · cases List.mem_singleton.mp isCall
    cases isLater
    exact Nat.le_refl 2

/-- Whatever is written, and whenever unused locks are forgotten, one call at most has the guard for
a path, and the table has the lock of everyone who refers to one, with the right count. -/
theorem guarded_of_run (files : String → Option Bytes) (steps : List PersistStep) :
    let persist := (start files).after steps
    (∀ first second call other held lock, persist.calls.get? first = some call →
      persist.calls.get? second = some other → call.stage.guard = some held →
      other.stage.guard = some lock → call.path = other.path → first = second) ∧
    (∀ id call lock, persist.calls.get? id = some call → call.stage.arc = some lock →
      persist.writeLocks.get? call.path = some lock) ∧
    ∀ path lock, persist.writeLocks.get? path = some lock →
      (persist.locks lock).strong = 1 + refs persist.calls lock := by
  have sound : ((start files).after steps).Sound := by
    have start := sound_start files
    unfold after
    generalize Persist.start files = persist at start ⊢
    induction steps generalizing persist with
    | nil => exact start
    | cons step rest ih => exact ih _ (start.next step)
  exact ⟨fun first second call other held lock found isOther guard otherGuard samePath =>
    sound.alone isOther otherGuard found guard samePath, sound.arcs, sound.strong⟩

end Persist

end Porthmos
