import Porthmos.Execute

/-!
# Resumed transfers

A part file may be resumed when what is left of it after the backoff is good.
Good is any property of contents that every prefix inherits and that writing on
from the source keeps: to be a prefix of the source, or to hold no byte from
elsewhere.  A call of `execute_preserving` that starts from good bytes leaves a
part file that may be resumed, or a destination that is good.
-/

namespace Porthmos

variable {byte : Type*}

/-- More fuel than bytes left changes nothing: the copy loop ends by itself. -/
theorem copyLoop_fuel (rounds : Nat → Round) (flush : Bool) (start : Nat) {fuel more round : Nat}
    {left written : List byte} {since : Nat} (enough : left.length < fuel) (atLeast : fuel ≤ more) :
    copyLoop rounds flush start more round left written since =
      copyLoop rounds flush start fuel round left written since := by
  induction fuel generalizing more round left written since with
  | zero => omega
  | succ fuel ih =>
    obtain ⟨more, rfl⟩ : ∃ less, more = less + 1 := ⟨more - 1, by omega⟩
    unfold copyLoop
    cases rounds round with
    | cancel => rfl
    | readError => rfl
    | writeError read stored => cases left <;> rfl
    | copy read =>
      cases left with
      | nil => rfl
      | cons first rest =>
        have shorter : ((first :: rest).drop (chunkLength read (first :: rest))).length < fuel := by
          have positive : 1 ≤ chunkLength read (first :: rest) := Nat.le_max_left _ _
          rw [List.length_drop]
          rw [List.length_cons] at enough ⊢
          omega
        have fewer : fuel ≤ more := by omega
        dsimp only
        rw [ih shorter fewer, ih shorter fewer]

/-- A property of contents that prefixes inherit and that writing on from the
source keeps. -/
structure KeptByWriting (source : List byte) (good : List byte → Prop) : Prop where
  nil : good []
  of_prefix : ∀ shorter longer, shorter <+: longer → good longer → good shorter
  append : ∀ kept, good kept → ∀ count, good (kept ++ (source.drop kept.length).take count)

/-- A part file whose content before the backoff is good. -/
def Resumable (good : List byte → Prop) (backoff : Nat) (side : Side byte) : Prop :=
  ∀ part, side.part = some part → good (part.take (part.length - backoff))

/-- What every call of `execute_preserving` does that starts from good bytes. -/
structure CallSpec (good : List byte → Prop) (backoff : Nat) (source : List byte)
    (before : Side byte) (opensPart : Bool) (call : Call byte) : Prop where
  untouched : opensPart = false → call.side = before
  resumable : opensPart = true → Resumable good backoff call.side
  completed : ∀ timesKept, call.result = .completed timesKept → call.side.part = none ∧
    ∃ kept, good kept ∧ call.side.destination = some (kept ++ source.drop kept.length)
  unchanged : (call.result = .cancelled ∨ ∃ stage, stage ≠ .rename ∧ call.result = .failed stage) →
    call.side.destination = before.destination

theorem CallSpec.of_stopped {good : List byte → Prop} {backoff : Nat} {source : List byte}
    {before : Side byte} {call : Call byte} (resumable : Resumable good backoff call.side)
    (notCompleted : ∀ timesKept, call.result ≠ .completed timesKept)
    (same : call.side.destination = before.destination) :
    CallSpec good backoff source before true call where
  untouched := nofun
  resumable _ := resumable
  completed timesKept done := absurd done (notCompleted timesKept)
  unchanged _ := same

theorem CallSpec.of_untouched {good : List byte → Prop} {backoff : Nat} {source : List byte}
    {before : Side byte} {stage : Stage} {reports : List Nat} :
    CallSpec good backoff source before false ⟨.failed stage, before, reports⟩ where
  untouched _ := rfl
  resumable := nofun
  completed := nofun
  unchanged _ := rfl

section Call

variable {backoff : Nat} (conditions : Conditions byte backoff) {source : List byte}
  {good : List byte → Prop} {side : Side byte}

theorem requestedOffset_le (sourceBackoff : Nat) (source : List byte) (side : Side byte)
    (sourceModified : Option Nat) (resume : Bool) :
    requestedOffset conditions sourceBackoff source side sourceModified resume ≤
      (side.part.getD []).length - backoff := by
  unfold requestedOffset statPart
  cases resume with
  | false => simp
  | true =>
    cases side.part with
    | none => simp
    | some part =>
      cases conditions.partStat with
      | none => simp
      | some modified =>
        have bound := resumeOffset_le part.length source.length modified sourceModified
          (max sourceBackoff backoff)
        simp only [if_true, Option.getD_some]
        omega

theorem setLen_eq_take (zero : byte) {length : Nat} {bytes : List byte}
    (within : length ≤ bytes.length) : setLen zero length bytes = bytes.take length := by
  rw [setLen, Nat.sub_eq_zero_of_le within, List.replicate_zero, List.append_nil]

theorem localOpenWrite_eq (zero : byte) {offset : Nat}
    (within : offset ≤ (side.part.getD []).length) :
    localOpenWrite zero side.part offset = (openedPart side offset, offset) := by
  rw [localOpenWrite, setLen_eq_take zero within, openedPart]

theorem fakeOpenWrite_eq (zero : byte) {offset : Nat}
    (within : offset ≤ (side.part.getD []).length) :
    fakeOpenWrite zero side.part offset = (openedPart side offset, offset) ∨
      fakeOpenWrite zero side.part offset = (openedPart side 0, 0) := by
  unfold fakeOpenWrite openedPart
  cases isPart : side.part with
  | none => exact Or.inr rfl
  | some bytes =>
    rw [isPart, Option.getD_some] at within
    dsimp only
    split_ifs
    · exact Or.inl (by rw [setLen_eq_take zero within, Option.getD_some])
    · exact Or.inr (by rw [List.take_zero])

theorem resumable_stop (kept : KeptByWriting source good) {written : List byte}
    (isGood : good written) (destination : Option (List byte)) :
    Resumable good backoff ⟨destination, some (conditions.stop written)⟩ := by
  intro part isPart
  cases isPart
  exact kept.of_prefix _ _ (conditions.stop_keeps written) isGood

theorem executeOpened_spec (kept : KeptByWriting source good) {offset : Nat}
    (within : offset ≤ (side.part.getD []).length) (start : good (openedPart side offset))
    (keepModified : Option Nat) :
    CallSpec good backoff source side true
      (executeOpened conditions source side keepModified offset) := by
  have length : (openedPart side offset).length = offset := by
    rw [openedPart, List.length_take]
    omega
  obtain ⟨count, written, complete⟩ := copyLoop_written conditions.rounds conditions.flush offset
    ((source.drop offset).length + 1) 0 (source.drop offset) [] 0
  have copied : (copyWithProgress conditions.rounds conditions.flush offset
      (source.drop offset)).written = (source.drop offset).take count := by
    rw [copyWithProgress, written, List.nil_append]
  have goodWritten : good (openedPart side offset ++ (source.drop offset).take count) := by
    have appended := kept.append _ start count
    rwa [length] at appended
  unfold executeOpened
  simp only [copied]
  cases conditions.openRead with
  | false => exact .of_stopped (resumable_stop conditions kept start _) nofun rfl
  | true =>
    cases result : (copyWithProgress conditions.rounds conditions.flush offset
      (source.drop offset)).result with
    | failed => exact .of_stopped (resumable_stop conditions kept goodWritten _) nofun rfl
    | cancelled => exact .of_stopped (resumable_stop conditions kept goodWritten _) nofun rfl
    | completed =>
      cases conditions.shutdown with
      | false => exact .of_stopped (resumable_stop conditions kept goodWritten _) nofun rfl
      | true =>
        cases conditions.rename with
        | fails destination partKept =>
          refine ⟨nofun, fun _ => ?_, nofun, ?_⟩
          · intro part isPart
            cases partKept with
            | false => cases isPart
            | true =>
              cases isPart
              exact kept.of_prefix _ _ (List.take_prefix _ _) goodWritten
          · rintro (done | ⟨stage, notRename, failed⟩)
            · cases done
            · cases failed
              exact absurd rfl notRename
        | succeeds =>
          refine ⟨nofun, fun _ => nofun, fun _ _ => ⟨rfl, openedPart side offset, start, ?_⟩, ?_⟩
          · rw [length]
            exact congrArg (fun rest => some (openedPart side offset ++ rest)) (complete result)
          · rintro (done | ⟨stage, _, failed⟩)
            · cases done
            · cases failed

/-- A call that completes has joined the part file up to the offset and the rest of
the source. -/
theorem executeOpened_completed {keepModified : Option Nat} {offset : Nat} {timesKept : Bool}
    (completed : (executeOpened conditions source side keepModified offset).result =
      .completed timesKept) :
    (executeOpened conditions source side keepModified offset).side =
      ⟨some (openedPart side offset ++ source.drop offset), none⟩ := by
  obtain ⟨count, written, complete⟩ := copyLoop_written conditions.rounds conditions.flush offset
    ((source.drop offset).length + 1) 0 (source.drop offset) [] 0
  unfold executeOpened at completed ⊢
  cases opened : conditions.openRead with
  | false =>
    rw [opened] at completed
    cases completed
  | true =>
    rw [opened] at completed
    cases result : (copyWithProgress conditions.rounds conditions.flush offset
      (source.drop offset)).result with
    | failed =>
      simp only [result] at completed
      cases completed
    | cancelled =>
      simp only [result] at completed
      cases completed
    | completed =>
      have all : (copyWithProgress conditions.rounds conditions.flush offset
          (source.drop offset)).written = source.drop offset := by
        rw [copyWithProgress, written, List.nil_append]
        exact complete result
      simp only [result] at completed
      cases shutdown : conditions.shutdown with
      | false =>
        rw [shutdown] at completed
        cases completed
      | true =>
        cases renamed : conditions.rename with
        | fails destination partKept =>
          rw [shutdown, renamed] at completed
          cases completed
        | succeeds => simp [all, result]

/-- The specification of `execute_preserving`: it starts from good bytes if the
part file is good up to the offset at which it is opened. -/
theorem executePreserving_spec (kept : KeptByWriting source good) (sourceBackoff : Nat)
    (resume : Bool) (keepModified : Option Nat)
    (start : ∀ sourceModified, conditions.sourceStat = some sourceModified →
      conditions.opening.keepsPart → good (openedPart side
        (requestedOffset conditions sourceBackoff source side sourceModified resume))) :
    CallSpec good backoff source side conditions.opensPart
      (executePreserving conditions sourceBackoff source side resume keepModified) := by
  unfold executePreserving Conditions.opensPart
  cases statted : conditions.sourceStat with
  | none => exact .of_untouched
  | some sourceModified =>
    have good := start sourceModified statted
    dsimp only
    cases opening : conditions.opening with
    | failsUntouched => exact .of_untouched
    | failsTouched =>
      rw [opening] at good
      exact .of_stopped (resumable_stop conditions kept (good rfl) _) nofun rfl
    | opens granted =>
      rw [opening] at good
      cases granted with
      | true =>
        have within := requestedOffset_le conditions sourceBackoff source side sourceModified resume
        exact executeOpened_spec conditions kept (Nat.le_trans within (Nat.sub_le _ _))
          (good rfl) keepModified
      | false => exact executeOpened_spec conditions kept (Nat.zero_le _) kept.nil keepModified

theorem executePreserving_completed {sourceBackoff : Nat} {resume : Bool}
    {keepModified : Option Nat} {timesKept : Bool}
    (completed : (executePreserving conditions sourceBackoff source side resume
      keepModified).result = .completed timesKept) :
    ∃ sourceModified granted, conditions.sourceStat = some sourceModified ∧
      conditions.opening = .opens granted ∧
      let offset := if granted then
        requestedOffset conditions sourceBackoff source side sourceModified resume else 0
      (executePreserving conditions sourceBackoff source side resume keepModified).side =
        ⟨some (openedPart side offset ++ source.drop offset), none⟩ := by
  unfold executePreserving at completed ⊢
  cases statted : conditions.sourceStat with
  | none =>
    rw [statted] at completed
    cases completed
  | some sourceModified =>
    rw [statted] at completed
    cases opening : conditions.opening with
    | failsUntouched =>
      simp only [opening] at completed
      cases completed
    | failsTouched =>
      simp only [opening] at completed
      cases completed
    | opens granted =>
      simp only [opening] at completed
      exact ⟨sourceModified, granted, rfl, rfl, executeOpened_completed conditions completed⟩

end Call

/-! ### Any number of attempts -/

/-- One call of `execute_preserving` and the answers it gets. -/
structure Attempt (byte : Type*) (backoff : Nat) where
  conditions : Conditions byte backoff
  sourceBackoff : Nat
  resume : Bool
  keepModified : Option Nat

def Attempt.call {backoff : Nat} (attempt : Attempt byte backoff) (source : List byte)
    (side : Side byte) : Call byte :=
  executePreserving attempt.conditions attempt.sourceBackoff source side attempt.resume
    attempt.keepModified

/-- The paths after a sequence of attempts. -/
def runAttempts {backoff : Nat} (source : List byte) (side : Side byte)
    (attempts : List (Attempt byte backoff)) : Side byte :=
  attempts.foldl (fun side attempt => (attempt.call source side).side) side

section Attempts

variable {backoff : Nat} {source : List byte} {side : Side byte}

theorem keptByWriting_source (source : List byte) : KeptByWriting source (· <+: source) where
  nil := List.nil_prefix
  of_prefix _ _ shorter longer := List.IsPrefix.trans shorter longer
  append kept isPrefix count := by
    obtain ⟨rest, rfl⟩ := isPrefix
    rw [List.drop_left, List.prefix_append_right_inj]
    exact List.take_prefix _ _

theorem Resumable.openedPart {good : List byte → Prop} (resumable : Resumable good backoff side)
    (kept : KeptByWriting source good) {offset : Nat}
    (within : offset ≤ (side.part.getD []).length - backoff) : good (openedPart side offset) := by
  unfold Porthmos.openedPart
  cases isPart : side.part with
  | none =>
    rw [Option.getD_none, List.take_nil]
    exact kept.nil
  | some part =>
    rw [isPart, Option.getD_some] at within
    refine kept.of_prefix _ _ ?_ (resumable part isPart)
    exact List.take_prefix_take_left within

/-- An attempt that starts from a part file that may be resumed meets the
specification. -/
theorem Attempt.call_spec {good : List byte → Prop} (kept : KeptByWriting source good)
    (resumable : Resumable good backoff side) (attempt : Attempt byte backoff) :
    CallSpec good backoff source side attempt.conditions.opensPart (attempt.call source side) :=
  executePreserving_spec attempt.conditions kept attempt.sourceBackoff attempt.resume
    attempt.keepModified fun sourceModified _ _ => resumable.openedPart kept
      (requestedOffset_le attempt.conditions attempt.sourceBackoff source side sourceModified
        attempt.resume)

theorem CallSpec.resumable_side {good : List byte → Prop} {opensPart : Bool} {call : Call byte}
    (spec : CallSpec good backoff source side opensPart call)
    (resumable : Resumable good backoff side) : Resumable good backoff call.side := by
  cases opensPart with
  | false => rwa [spec.untouched rfl]
  | true => exact spec.resumable rfl

theorem runAttempts_resumable {good : List byte → Prop} (kept : KeptByWriting source good)
    (resumable : Resumable good backoff side) (attempts : List (Attempt byte backoff)) :
    Resumable good backoff (runAttempts source side attempts) := by
  induction attempts generalizing side with
  | nil => exact resumable
  | cons attempt rest ih => exact ih ((attempt.call_spec kept resumable).resumable_side resumable)

/-- Resumed transfers are exact: whatever attempts came before, an attempt that
completes leaves the source at the destination and no part file, and one that is
cancelled or fails before the rename leaves the destination as it was. -/
theorem resumed_exact (source : List byte) (destination : Option (List byte))
    (earlier : List (Attempt byte backoff)) (attempt : Attempt byte backoff) :
    let before := runAttempts source ⟨destination, none⟩ earlier
    let call := attempt.call source before
    (∀ timesKept, call.result = .completed timesKept → call.side = ⟨some source, none⟩) ∧
      ((call.result = .cancelled ∨ ∃ stage, stage ≠ .rename ∧ call.result = .failed stage) →
        call.side.destination = before.destination) := by
  intro before call
  have noPart : Resumable (· <+: source) backoff ⟨destination, none⟩ := fun _ isPart => by
    cases isPart
  have resumable : Resumable (· <+: source) backoff before :=
    runAttempts_resumable (keptByWriting_source source) noPart earlier
  have spec := attempt.call_spec (keptByWriting_source source) resumable
  refine ⟨fun timesKept completed => ?_, spec.unchanged⟩
  obtain ⟨noPart, kept, ⟨rest, isSource⟩, written⟩ := spec.completed timesKept completed
  have exact : kept ++ source.drop kept.length = source := by
    rw [← isSource, List.drop_left]
  rw [exact] at written
  calc call.side = ⟨call.side.destination, call.side.part⟩ := rfl
    _ = ⟨some source, none⟩ := by rw [written, noPart]

end Attempts

end Porthmos
