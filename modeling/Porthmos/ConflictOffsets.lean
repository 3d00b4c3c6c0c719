import Porthmos.EngineTransfers
import Porthmos.Execute
import Porthmos.ResolvedFiles

/-!
# Where a copy starts to read after an automatic answer

A policy that answers a conflict also decides whether the part file is resumed.  A part file that
already has the size of the source leaves nothing to read, so that it would become the destination
as it is.
-/

namespace Porthmos

/-! ### The offset of a call -/

section Offset

variable {byte : Type*} {backoff : Nat}

/-- The offset at which a call starts to read, if it gets that far. -/
def readOffset (conditions : Conditions byte backoff) (sourceBackoff : Nat) (source : List byte)
    (side : Side byte) (resume : Bool) : Option Nat :=
  match conditions.sourceStat, conditions.opening with
  | some sourceModified, .opens granted =>
    some (if granted then
      requestedOffset conditions sourceBackoff source side sourceModified resume else 0)
  | _, _ => none

end Offset

/-- A part file that is all there and not older than the source. -/
def WholePart (partLen sourceLen : Nat) (partModified sourceModified : Option Nat)
    (backoff : Nat) : Prop :=
  partLen = sourceLen ∧ backoff = 0 ∧ ∃ part source, partModified = some part ∧
    sourceModified = some source ∧ source ≤ (part + clockSkewToleranceSecs) % 2 ^ 64

theorem resumeOffset_lt_iff {sourceLen : Nat} (notEmpty : 0 < sourceLen) (partLen : Nat)
    (partModified sourceModified : Option Nat) (backoff : Nat) :
    resumeOffset partLen sourceLen partModified sourceModified backoff < sourceLen ↔
      ¬WholePart partLen sourceLen partModified sourceModified backoff := by
  unfold resumeOffset WholePart
  cases partModified with
  | none => simp [notEmpty]
  | some part =>
    cases sourceModified with
    | none => simp [notEmpty]
    | some source =>
      have times : (∃ first second, some part = some first ∧ some source = some second ∧
          second ≤ (first + clockSkewToleranceSecs) % 2 ^ 64) ↔
          source ≤ (part + clockSkewToleranceSecs) % 2 ^ 64 := by
        constructor
        · rintro ⟨_, _, ⟨⟩, ⟨⟩, notOlder⟩
          exact notOlder
        · exact fun notOlder => ⟨_, _, rfl, rfl, notOlder⟩
      rw [times]
      dsimp only
      split_ifs with anew
      · omega
      · omega

/-! ### What resolving keeps -/

/-- A kept file tells of its conflict what the planned one did. -/
structure KeptFrom (file : PlannedFile) (answer : Option Resolution) (kept : PlannedFile) :
    Prop where
  size : kept.size = file.size
  partialFile : kept.partialFile = file.partialFile
  sourceModified : kept.sourceModified = file.sourceModified
  resume : kept.resume = true → answer = none ∨
    (answer = some .resume ∧ file.existing.any ExistingFile.isDir = false) ∨
    (answer = some .rename ∧ file.existing = none)

theorem Keeps.keptFrom {taken : TakenNames} {file kept : PlannedFile} {answer : Option Resolution}
    (keeps : Keeps taken file answer kept) : KeptFrom file answer kept := by
  cases keeps with
  | unasked => exact ⟨rfl, rfl, rfl, fun _ => Or.inl rfl⟩
  | resumed noFolder => exact ⟨rfl, rfl, rfl, fun _ => Or.inr (Or.inl ⟨rfl, noFolder⟩)⟩
  | overwritten => exact ⟨rfl, rfl, rfl, by simp⟩
  | unneeded isNew => exact ⟨rfl, rfl, rfl, fun _ => Or.inr (Or.inr ⟨rfl, isNew⟩)⟩
  | renamed => exact ⟨rfl, rfl, rfl, by simp⟩

theorem keptFrom_renameDestination (file : PlannedFile) (answer : Option Resolution)
    (taken : TakenNames) :
    KeptFrom file answer { (renameDestination file taken).1 with resume := false } := by
  unfold renameDestination
  split
  · exact ⟨rfl, rfl, rfl, by simp⟩
  · exact ⟨rfl, rfl, rfl, by simp⟩

/-- A file adds itself to the files that are kept, if anything. -/
theorem files_treat (taken : TakenNames) (resolved : ResolvedPlan) (file : PlannedFile)
    (answer : Option Resolution) :
    ∃ more, (treat (taken, resolved) file answer).2.files = resolved.files ++ more ∧
      (∀ kept ∈ more, KeptFrom file answer kept) ∧
      (answer = some .resume → file.existing.any ExistingFile.isDir = false →
        { file with resume := true } ∈ more) := by
  by_cases resumes : answer = some .resume ∧ file.existing.any ExistingFile.isDir = false
  · obtain ⟨rfl, noFolder⟩ := resumes
    refine ⟨[{ file with resume := true }], by simp [treat, noFolder, ResolvedPlan.copying], ?_,
      fun _ _ => List.mem_singleton_self _⟩
    intro kept member
    rw [List.mem_singleton.mp member]
    exact (Keeps.resumed noFolder : Keeps taken file _ _).keptFrom
  · have notResumed : answer = some .resume → file.existing.any ExistingFile.isDir = false → False :=
      fun isResume noFolder => resumes ⟨isResume, noFolder⟩
    rcases treat_cases taken resolved file answer with
      ⟨after, isAfter, sameFiles, _⟩ | ⟨flag, isAfter, keeps⟩ | ⟨_, _, isAfter⟩
    · exact ⟨[], by simp [isAfter, sameFiles], by simp, fun first second =>
        (notResumed first second).elim⟩
    · refine ⟨[{ file with resume := flag }], by simp [isAfter, ResolvedPlan.copying], ?_,
        fun first second => (notResumed first second).elim⟩
      intro kept member
      rw [List.mem_singleton.mp member]
      exact (keeps taken).keptFrom
    · refine ⟨_, by rw [isAfter]; rfl, ?_, fun first second => (notResumed first second).elim⟩
      intro kept member
      rw [List.mem_singleton.mp member]
      exact keptFrom_renameDestination file answer taken

theorem files_foldl_treat (answered : List (PlannedFile × Option Resolution)) (taken : TakenNames) :
    let files := (answered.foldl (fun treated file => treat treated file.1 file.2)
      (taken, ⟨[], 0, 0, 0⟩)).2.files
    (∀ kept ∈ files, ∃ origin ∈ answered, KeptFrom origin.1 origin.2 kept) ∧
      ∀ file, (file, some .resume) ∈ answered → file.existing.any ExistingFile.isDir = false →
        { file with resume := true } ∈ files := by
  induction answered using List.reverseRecOn with
  | nil => simp
  | append_singleton answered origin ih =>
    obtain ⟨earlier, resumed⟩ := ih
    rw [List.foldl_append]
    obtain ⟨more, isMore, keptFrom, isResumed⟩ := files_treat
      (answered.foldl (fun treated file => treat treated file.1 file.2) (taken, ⟨[], 0, 0, 0⟩)).1
      (answered.foldl (fun treated file => treat treated file.1 file.2) (taken, ⟨[], 0, 0, 0⟩)).2
      origin.1 origin.2
    dsimp only [List.foldl_cons, List.foldl_nil]
    rw [isMore]
    constructor
    · intro kept member
      rcases List.mem_append.mp member with before | isNew
      · obtain ⟨found, isFound, from_⟩ := earlier kept before
        exact ⟨found, List.mem_append_left _ isFound, from_⟩
      · exact ⟨origin, List.mem_append_right _ (List.mem_singleton_self _), keptFrom kept isNew⟩
    · intro file member noFolder
      rcases List.mem_append.mp member with before | isLast
      · exact List.mem_append_left _ (resumed file before noFolder)
      · obtain rfl := List.mem_singleton.mp isLast
        exact List.mem_append_right _ (isResumed rfl noFolder)

/-! ### The answers of a policy -/

theorem getElem?_of_mapM {α β : Type*} {convert : α → Option β} {values : List α}
    {results : List β} (mapped : values.mapM convert = some results) (position : Nat) :
    values[position]?.map convert = results[position]?.map some := by
  induction values generalizing results position with
  | nil =>
    obtain rfl : results = [] := by simpa using mapped.symm
    rfl
  | cons value values ih =>
    cases first : convert value with
    | none => simp [List.mapM_cons, first] at mapped
    | some result =>
      cases others : values.mapM convert with
      | none => simp [List.mapM_cons, first, others] at mapped
      | some rest =>
        obtain rfl : results = result :: rest := by
          simpa [List.mapM_cons, first, others] using mapped.symm
        cases position with
        | zero => simp [first]
        | succ position => simpa using ih others position

variable {policy : ConflictPolicy} {plan : DirectoryPlan} {answers : List Resolution}
  {file : PlannedFile} {answer : Option Resolution}

theorem answer_of_automatic (automatic : Engine.automaticAnswers policy plan = some answers)
    (member : (file, answer) ∈ plan.answered answers) :
    file ∈ plan.files ∧ if file.isConflict then answer.isSome ∧ answer = policy.resolutionFor file
      else answer = none := by
  obtain ⟨index, inRange, isPair⟩ := List.mem_mapIdx.mp member
  obtain ⟨rfl, rfl⟩ := Prod.mk.inj isPair
  have found : plan.files[index]? = some plan.files[index] := List.getElem?_eq_getElem inRange
  have sameConflict : plan.conflictAt index = plan.files[index].isConflict := by
    rw [DirectoryPlan.conflictAt, found, Option.any_some]
  refine ⟨List.getElem_mem inRange, ?_⟩
  cases isConflict : plan.files[index].isConflict with
  | false => simp [DirectoryPlan.answerOf, sameConflict, isConflict]
  | true =>
    have isIndex : index ∈ conflictIndices plan :=
      List.mem_filter.mpr ⟨List.mem_range.mpr inRange, by rw [found, Option.any_some, isConflict]⟩
    have position := getElem?_of_mapM automatic ((conflictIndices plan).idxOf index)
    rw [List.getElem?_idxOf isIndex, Option.map_some, found, Option.bind_some] at position
    obtain ⟨result, isResult, same⟩ := Option.map_eq_some_iff.mp position.symm
    simp [DirectoryPlan.answerOf, sameConflict, isConflict, List.getD, isResult, ← same]

theorem exists_answer (answers : List Resolution) (member : file ∈ plan.files) :
    ∃ answer, (file, answer) ∈ plan.answered answers := by
  obtain ⟨index, inRange, rfl⟩ := List.getElem_of_mem member
  exact ⟨_, List.mem_mapIdx.mpr ⟨index, inRange, rfl⟩⟩

/-! ### The offset after an automatic answer -/

/-- The source is as it was planned, and the part file is as it was listed. -/
structure AsListed (file : PlannedFile) {backoff : Nat} (conditions : Conditions UInt8 backoff)
    (source : List UInt8) (side : Side UInt8) : Prop where
  source : source.length = file.size
  sourceModified : ∀ modified, conditions.sourceStat = some modified →
    modified = file.sourceModified
  part : side.part.map List.length = file.partialFile.map ExistingFile.size
  partModified : ∀ modified part, conditions.partStat = some modified →
    file.partialFile = some part → modified = part.modified

/-- A copy of the file leaves something to read. -/
def ReadsBelow (sourceBackoff backoff : Nat) (file : PlannedFile) : Prop :=
  ∀ (conditions : Conditions UInt8 backoff) source side, AsListed file conditions source side →
    ∀ offset, readOffset conditions sourceBackoff source side file.resume = some offset →
      offset < file.size

/-- The policy resumes a part file that is all there. -/
def ConflictPolicy.ResumesWhole (policy : ConflictPolicy) (backoff : Nat) (file : PlannedFile) :
    Prop :=
  policy = .overwrite ∧ file.existing.isSome = true ∧
    file.existing.any ExistingFile.isDir = false ∧
    ∃ part, file.partialFile = some part ∧
      WholePart part.size file.size part.modified file.sourceModified backoff

theorem statPart_of_listed {backoff : Nat} {conditions : Conditions UInt8 backoff}
    {source : List UInt8} {side : Side UInt8} (listed : AsListed file conditions source side) :
    statPart conditions side = none ∨ ∃ part, file.partialFile = some part ∧
        statPart conditions side = some (part.size, part.modified) := by
  unfold statPart
  cases isPart : side.part with
  | none => simp
  | some bytes =>
    cases isStat : conditions.partStat with
    | none => simp
    | some modified =>
      right
      have sizes := listed.part
      rw [isPart, Option.map_some] at sizes
      obtain ⟨part, found, sameSize⟩ := Option.map_eq_some_iff.mp sizes.symm
      exact ⟨part, found, by rw [sameSize, listed.partModified modified part isStat found]⟩

/-- A file leaves something to read unless it resumes a part file that is all there. -/
theorem readsBelow_of_not_whole {sourceBackoff backoff : Nat} (notEmpty : 0 < file.size)
    (notWhole : file.resume = true → ∀ part, file.partialFile = some part →
      ¬WholePart part.size file.size part.modified file.sourceModified
        (max sourceBackoff backoff)) :
    ReadsBelow sourceBackoff backoff file := by
  intro conditions source side listed offset starts
  unfold readOffset at starts
  split at starts
  · rename_i sourceModified granted isModified opens
    obtain rfl := listed.sourceModified _ isModified
    obtain rfl := Option.some.inj starts
    unfold requestedOffset
    split_ifs with keeps resumes
    · rcases statPart_of_listed listed with missing | ⟨part, found, isStat⟩
      · rw [missing]
        exact notEmpty
      · rw [isStat, listed.source]
        exact (resumeOffset_lt_iff notEmpty _ _ _ _).mpr (notWhole resumes part found)
    · exact notEmpty
    · exact notEmpty
  · cases starts

/-- Calls that all succeed. -/
def smoothly (backoff : Nat) (sourceModified partModified : Option Nat) :
    Conditions UInt8 backoff where
  sourceStat := some sourceModified
  partStat := some partModified
  opening := .opens true
  openRead := true
  rounds := fun _ => .copy chunkSize
  flush := true
  shutdown := true
  rename := .succeeds
  setModified := true
  stop := id
  stop_keeps := fun _ => List.take_prefix _ _

theorem not_readsBelow_of_whole {sourceBackoff backoff : Nat} {part : ExistingFile}
    (found : file.partialFile = some part) (whole : WholePart part.size file.size part.modified
      file.sourceModified (max sourceBackoff backoff)) (resumes : file.resume = true)
    (notEmpty : 0 < file.size) : ¬ReadsBelow sourceBackoff backoff file := by
  intro reads
  have listed : AsListed file (smoothly backoff file.sourceModified part.modified)
      (List.replicate file.size 0) ⟨none, some (List.replicate part.size 0)⟩ := by
    constructor
    · exact List.length_replicate
    · exact fun modified same => (Option.some.inj same).symm
    · rw [found, Option.map_some, Option.map_some, List.length_replicate]
    · intro modified other same isOther
      rw [found] at isOther
      exact Option.some.inj isOther ▸ (Option.some.inj same).symm
  have below := reads _ _ _ listed _ rfl
  rw [if_pos rfl, requestedOffset, resumes, if_pos rfl] at below
  dsimp only [statPart, smoothly] at below
  rw [List.length_replicate, List.length_replicate] at below
  exact (resumeOffset_lt_iff notEmpty _ _ _ _).mp below whole

/-- What a policy resumes: a part file beside an existing file, whatever its size, and else one that
is shorter than the source. -/
theorem resolutionFor_resume (resumes : policy.resolutionFor file = some .resume) :
    (file.existing = none ∧ ∀ part, file.partialFile = some part → part.size < file.size) ∨
      (policy = .overwrite ∧ file.existing.isSome = true ∧ file.partialFile.isSome = true) := by
  unfold ConflictPolicy.resolutionFor at resumes
  split at resumes
  · cases resumes
  · rename_i isNew
    split_ifs at resumes with whole
    · cases resumes
    · refine Or.inl ⟨isNew, fun part found => ?_⟩
      rw [found, Option.any_some, decide_eq_true_eq] at whole
      omega
  · rename_i isThere
    split_ifs at resumes with hasPart
    · exact Or.inr ⟨rfl, by rw [isThere]; rfl, hasPart⟩
    · cases resumes
  · cases resumes
  · cases resumes

theorem resolutionFor_ne_rename (isNew : file.existing = none) :
    policy.resolutionFor file ≠ some .rename := by
  unfold ConflictPolicy.resolutionFor
  rw [isNew]
  cases policy with
  | ask => simp
  | overwrite | skip | rename =>
    dsimp only
    split_ifs <;> simp

theorem resolutionFor_of_resumesWhole {backoff : Nat} (whole : policy.ResumesWhole backoff file) :
    policy.resolutionFor file = some .resume := by
  obtain ⟨rfl, isThere, _, part, found, _⟩ := whole
  obtain ⟨existing, isExisting⟩ := Option.isSome_iff_exists.mp isThere
  simp [ConflictPolicy.resolutionFor, isExisting, found]

/-- After the answers of a policy every copy leaves something to read, unless the policy overwrites
a file beside a part file that is all there. -/
theorem readsBelow_iff (automatic : Engine.automaticAnswers policy plan = some answers)
    (sourceBackoff backoff : Nat) :
    (∀ kept ∈ (resolve plan answers).files, 0 < kept.size →
      ReadsBelow sourceBackoff backoff kept) ↔
      ∀ file ∈ plan.files, 0 < file.size →
        ¬policy.ResumesWhole (max sourceBackoff backoff) file := by
  obtain ⟨origins, resumed⟩ := files_foldl_treat (plan.answered answers) plan.takenNames
  rw [resolve_eq_treatAll]
  constructor
  · intro reads file member notEmpty whole
    have resumes := resolutionFor_of_resumesWhole whole
    obtain ⟨rfl, isThere, noFolder, part, found, isWhole⟩ := whole
    obtain ⟨answer, isAnswer⟩ := exists_answer answers member
    have isConflict : file.isConflict = true := by simp [PlannedFile.isConflict, isThere]
    have known := (answer_of_automatic automatic isAnswer).2
    rw [if_pos isConflict, resumes] at known
    have kept := resumed file (known.2 ▸ isAnswer) noFolder
    have stuck : ¬ReadsBelow sourceBackoff backoff { file with resume := true } :=
      not_readsBelow_of_whole found isWhole rfl notEmpty
    exact stuck (reads _ kept notEmpty)
  · intro notWhole kept member notEmpty
    obtain ⟨⟨file, answer⟩, isAnswer, same⟩ := origins kept member
    have keptFrom : KeptFrom file answer kept := same
    have sameSize : kept.size = file.size := keptFrom.size
    obtain ⟨isPlanned, known⟩ := answer_of_automatic automatic isAnswer
    apply readsBelow_of_not_whole notEmpty
    intro resumes part found
    rw [keptFrom.partialFile] at found
    rw [sameSize, keptFrom.sourceModified]
    have isConflict : file.isConflict = true := by simp [PlannedFile.isConflict, found]
    rw [if_pos isConflict] at known
    rcases keptFrom.resume resumes with isNone | ⟨isResume, noFolder⟩ | ⟨isRename, isNew⟩
    · simp [isNone] at known
    · have answered : policy.resolutionFor file = some .resume := known.2 ▸ isResume
      rcases resolutionFor_resume answered with ⟨_, shorter⟩ | ⟨isOverwrite, isThere, _⟩
      · intro whole
        have sizes := shorter part found
        have same := whole.1
        omega
      · intro whole
        exact notWhole file isPlanned (sameSize ▸ notEmpty)
          ⟨isOverwrite, isThere, noFolder, part, found, whole⟩
    · exact absurd (known.2 ▸ isRename) (resolutionFor_ne_rename isNew)

/-- A new version of a file, beside a part file of some size. -/
def besidePart (size : Nat) : DirectoryPlan where
  files := [⟨⟨"/s/a"⟩, ⟨"/d/a"⟩, "a", 3, some ⟨1, some 5, false⟩, some 10, some ⟨size, some 10, false⟩,
    false⟩]
  skippedSymlinks := 0
  takenNames := fun _ => ["a", "a.part"]

theorem readsBelow_shorter :
    conflictIndices (besidePart 2) = [0] ∧
      ∀ kept ∈ (resolve (besidePart 2) [.resume]).files, 0 < kept.size → ReadsBelow 0 0 kept := by
  refine ⟨by decide, ?_⟩
  apply (readsBelow_iff (by decide : Engine.automaticAnswers .overwrite (besidePart 2) =
    some [.resume]) 0 0).mpr
  intro file member _ whole
  obtain rfl := List.mem_singleton.mp member
  obtain ⟨_, _, _, part, found, sameSize, _⟩ := whole
  cases found
  exact absurd sameSize (by decide)

/-- The part file has the size of the source: nothing is copied, and it becomes the destination. -/
theorem readsBelow_fails :
    Engine.automaticAnswers .overwrite (besidePart 3) = some [.resume] ∧
      ∃ kept ∈ (resolve (besidePart 3) [.resume]).files,
        AsListed kept (smoothly 0 (some 10) (some 10)) [1, 2, 3] ⟨some [0], some [7, 7, 7]⟩ ∧
        readOffset (smoothly 0 (some 10) (some 10)) 0 [1, 2, 3] ⟨some [0], some [7, 7, 7]⟩
          kept.resume = some 3 ∧
        let call := executePreserving (smoothly 0 (some 10) (some 10)) 0 [1, 2, 3]
          ⟨some [0], some [7, 7, 7]⟩ kept.resume none
        call.result = .completed true ∧ call.side = ⟨some [7, 7, 7], none⟩ := by
  refine ⟨by decide, _, List.mem_singleton_self _, ?_, by decide, by decide, by decide⟩
  constructor
  · decide
  · exact fun _ same => (Option.some.inj same).symm
  · decide
  · rintro _ _ ⟨⟩ ⟨⟩
    rfl

end Porthmos
