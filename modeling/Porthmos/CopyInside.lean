import Porthmos.Discovery
import Porthmos.PathInside

/-!
# Copies and the chosen folder

The destinations of a copy are joined from the names in the listings of the
source, and the planner does not check them.  A copy stays inside the chosen
folder exactly when every name it uses keeps to it.
-/

namespace Porthmos

variable {error state : Type*}

/-- An entry is a file, or a directory that can be listed to its end. -/
def EntryListed (source : SourceFs error) (entry : Entry) : Prop :=
  entry.isDir = true → Listable source entry.path ⟨""⟩

/-- The directories that the copy of an entry consists of. -/
def CopiesDirectory (source : SourceFs error) (destDir : Path) (entry : Entry) (path : Path) : Prop :=
  entry.isDir = true ∧ (path = destDir.join ⟨entry.name⟩ ∨
    ∃ folder item, Found source entry.path ⟨""⟩ folder item ∧ item.metadata.kind = .dir ∧
      path = (destDir.join ⟨entry.name⟩).join (folder.join ⟨item.name⟩))

/-- The files that the copy of an entry consists of. -/
def CopiesFile (source : SourceFs error) (destDir : Path) (entry : Entry) (path : Path) : Prop :=
  (entry.isDir = false ∧ path = destDir.join ⟨entry.name⟩) ∨
    (entry.isDir = true ∧ ∃ folder item, Found source entry.path ⟨""⟩ folder item ∧
      item.metadata.kind = .file ∧
      path = (destDir.join ⟨entry.name⟩).join (folder.join ⟨item.name⟩))

/-- Every name that a copy uses keeps to the chosen folder.  Names of directories
are used once the listings up to their entry have succeeded, names of files once
all have. -/
structure NamesKept (source : SourceFs error) (entries : List Entry) (destDir : Path) : Prop where
  directories : ∀ before entry after, entries = before ++ entry :: after →
    (∀ other ∈ before ++ [entry], EntryListed source other) → entry.isDir = true →
    destDir.NamesEntry ⟨entry.name⟩ ∧ ∀ folder item, Found source entry.path ⟨""⟩ folder item →
      item.metadata.kind = .dir → destDir.KeepsTo ⟨item.name⟩
  files : (∀ entry ∈ entries, EntryListed source entry) → ∀ entry ∈ entries,
    (entry.isDir = false → destDir.NamesEntry ⟨entry.name⟩) ∧
      (entry.isDir = true → ∀ folder item, Found source entry.path ⟨""⟩ folder item →
        item.metadata.kind = .file → destDir.KeepsTo ⟨item.name⟩)

/-- Everything that a call of `plan_copy` created and planned lies inside the
chosen folder. -/
structure StaysInside (destDir : Path) (planned : Planned error state) : Prop where
  created : ∀ directory ∈ planned.created, destDir.Inside directory
  files : ∀ plan, planned.outcome = .ready plan → ∀ file ∈ plan.files,
    destDir.Inside file.destination ∧ destDir.Inside (partPath file.destination)

section

variable {source : SourceFs error} {fs : DestinationFs error state} {cancel : Nat → Bool}
  {fuel : Nat} {destDir : Path}

/-! ### What is created and planned -/

/-- The directories and files of a tree are those of the entry it was discovered
for. -/
theorem discoverTree_spec (destDir : Path) {entry : Entry} {checks : Nat} {walked : Walked}
    (isDir : entry.isDir = true)
    (discovered : discoverTree source entry.path cancel fuel checks = .ok walked) :
    EntryListed source entry ∧
      (∀ path, path ∈ directoriesOf (destDir.join ⟨entry.name⟩) walked.tree ↔
        CopiesDirectory source destDir entry path) ∧
      (∀ path, (∃ file ∈ plannedFilesForTree entry (destDir.join ⟨entry.name⟩) walked.tree,
        file.destination = path) ↔ CopiesFile source destDir entry path) := by
  obtain ⟨listable, adds⟩ := discoverTreeInto_spec cancel fuel _ _ _ discovered
  refine ⟨fun _ => listable, fun path => ?_, fun path => ?_⟩
  · rw [directoriesOf, List.mem_cons, List.mem_map, CopiesDirectory]
    simp only [adds.directories, DiscoveredTree.empty, List.not_mem_nil, false_or, isDir, true_and]
    refine or_congr_right ?_
    constructor
    · rintro ⟨_, ⟨folder, item, found, kind, rfl⟩, rfl⟩
      exact ⟨folder, item, found, kind, rfl⟩
    · rintro ⟨folder, item, found, kind, rfl⟩
      exact ⟨_, ⟨folder, item, found, kind, rfl⟩, rfl⟩
  · rw [plannedFilesForTree, CopiesFile]
    simp only [List.mem_map, adds.files, DiscoveredTree.empty, List.not_mem_nil, false_or, isDir,
      true_and, Bool.true_eq_false, false_and]
    constructor
    · rintro ⟨_, ⟨_, ⟨folder, item, found, kind, rfl⟩, rfl⟩, rfl⟩
      exact ⟨folder, item, found, kind, rfl⟩
    · rintro ⟨folder, item, found, kind, rfl⟩
      exact ⟨_, ⟨_, ⟨folder, item, found, kind, rfl⟩, rfl⟩, rfl⟩

theorem ensureDirectories_spec (fs : DestinationFs error state) (cancel : Nat → Bool)
    (directories : List Path) (planning : Planning state) :
    (ensureDirectories fs cancel directories planning).1.files = planning.files ∧
      (∀ path ∈ planning.created,
        path ∈ (ensureDirectories fs cancel directories planning).1.created) ∧
      ∀ path ∈ (ensureDirectories fs cancel directories planning).1.created,
        path ∈ planning.created ∨ path ∈ directories := by
  induction directories generalizing planning with
  | nil => exact ⟨rfl, fun _ known => known, fun _ known => Or.inl known⟩
  | cons directory directories ih =>
    unfold ensureDirectories
    split_ifs with cancelled
    · exact ⟨rfl, fun _ known => known, fun _ known => Or.inl known⟩
    · dsimp only
      cases ensured : ensureDirectory fs planning.destination directory with
      | error reason => exact ⟨rfl, fun _ known => known, fun _ known => Or.inl known⟩
      | ok result =>
        obtain ⟨destination, isNew⟩ := result
        obtain ⟨files, kept, created⟩ := ih { planning with
          checks := planning.checks + 1
          destination := destination
          created := if isNew then planning.created ++ [directory] else planning.created }
        refine ⟨files, fun path known => kept path ?_, fun path member => ?_⟩
        · dsimp only
          split_ifs
          · exact List.mem_append_left _ known
          · exact known
        · rcases created path member with known | later
          · dsimp only at known
            split_ifs at known
            · rcases List.mem_append.mp known with known | isFirst
              · exact Or.inl known
              · rw [List.mem_singleton.mp isFirst]
                exact Or.inr List.mem_cons_self
            · exact Or.inl known
          · exact Or.inr (List.mem_cons_of_mem _ later)

/-- What `plan_copy` does at one entry. -/
structure EntrySpec (source : SourceFs error) (destDir : Path) (entry : Entry)
    (before after : Planning state) (stop : Option (Stop error)) : Prop where
  kept : ∀ path ∈ before.created, path ∈ after.created
  created : ∀ path ∈ after.created, path ∈ before.created ∨
    EntryListed source entry ∧ CopiesDirectory source destDir entry path
  listed : stop = none → EntryListed source entry
  files : stop = none → ∀ path, (∃ file ∈ after.files, file.destination = path) ↔
    (∃ file ∈ before.files, file.destination = path) ∨ CopiesFile source destDir entry path

theorem planEntry_spec (entry : Entry) (planning : Planning state) :
    EntrySpec source destDir entry planning
      (planEntry source fs cancel fuel destDir entry planning).1
      (planEntry source fs cancel fuel destDir entry planning).2 := by
  have unchanged {after : Planning state} (created : after.created = planning.created)
      (stop : Stop error) : EntrySpec source destDir entry planning after (some stop) :=
    ⟨fun path known => created ▸ known, fun path known => Or.inl (created ▸ known), nofun, nofun⟩
  unfold planEntry
  by_cases cancelled : cancel planning.checks = true
  · rw [if_pos cancelled]
    exact unchanged rfl _
  rw [if_neg cancelled]
  dsimp only
  cases isDir : entry.isDir with
  | true =>
    rw [if_pos rfl]
    cases discovered : discoverTree source entry.path cancel fuel (planning.checks + 1) with
    | error stop =>
      refine unchanged ?_ _
      rfl
    | ok walked =>
      obtain ⟨tree, checks⟩ := walked
      obtain ⟨listed, directories, files⟩ := discoverTree_spec destDir isDir discovered
      have isNew {path : Path} (member : path ∈ directoriesOf (destDir.join ⟨entry.name⟩) tree) :
          EntryListed source entry ∧ CopiesDirectory source destDir entry path :=
        ⟨listed, (directories path).mp member⟩
      obtain ⟨sameFiles, kept, created⟩ := ensureDirectories_spec fs cancel
        (directoriesOf (destDir.join ⟨entry.name⟩) tree)
        ⟨planning.destination, planning.created, planning.files,
          planning.skippedSymlinks + tree.skippedSymlinks, checks⟩
      dsimp only
      cases ensured : ensureDirectories fs cancel (directoriesOf (destDir.join ⟨entry.name⟩) tree)
        ⟨planning.destination, planning.created, planning.files,
          planning.skippedSymlinks + tree.skippedSymlinks, checks⟩ with
      | mk made stop =>
        rw [ensured] at kept created sameFiles
        cases stop with
        | some stop =>
          exact ⟨kept, fun path member => (created path member).imp id isNew, nofun, nofun⟩
        | none =>
          refine ⟨kept, fun path member => (created path member).imp id isNew,
            fun _ => listed, fun _ path => ?_⟩
          dsimp only at sameFiles ⊢
          rw [← files path, sameFiles]
          simp only [List.mem_append, or_and_right, exists_or]
  | false =>
    rw [if_neg Bool.false_ne_true]
    refine ⟨fun _ known => known, fun _ known => Or.inl known, fun _ => fun isDir' => ?_, ?_⟩
    · rw [isDir] at isDir'
      cases isDir'
    · intro _ path
      simp only [List.mem_append, List.mem_singleton, or_and_right, exists_or, exists_eq_left,
        CopiesFile, isDir, plannedFileForLooseEntry, true_and, Bool.false_eq_true, false_and,
        or_false]
      exact or_congr_right eq_comm

/-- What `plan_copy` does with a list of entries. -/
structure EntriesSpec (source : SourceFs error) (destDir : Path) (entries : List Entry)
    (before after : Planning state) (stop : Option (Stop error)) : Prop where
  kept : ∀ path ∈ before.created, path ∈ after.created
  created : ∀ path ∈ after.created, path ∈ before.created ∨
    ∃ earlier entry later, entries = earlier ++ entry :: later ∧
      (∀ other ∈ earlier ++ [entry], EntryListed source other) ∧
      CopiesDirectory source destDir entry path
  listed : stop = none → ∀ entry ∈ entries, EntryListed source entry
  files : stop = none → ∀ path, (∃ file ∈ after.files, file.destination = path) ↔
    (∃ file ∈ before.files, file.destination = path) ∨
      ∃ entry ∈ entries, CopiesFile source destDir entry path

theorem planEntries_spec (entries : List Entry) (planning : Planning state) :
    EntriesSpec source destDir entries planning
      (planEntries source fs cancel fuel destDir entries planning).1
      (planEntries source fs cancel fuel destDir entries planning).2 := by
  induction entries generalizing planning with
  | nil => exact ⟨fun _ known => known, fun _ known => Or.inl known, by simp, by simp [planEntries]⟩
  | cons entry entries ih =>
    have spec : EntrySpec source destDir entry planning
      (planEntry source fs cancel fuel destDir entry planning).1 _ := planEntry_spec entry planning
    unfold planEntries
    cases planned : planEntry source fs cancel fuel destDir entry planning with
    | mk middle stop =>
      rw [planned] at spec
      have first {path : Path} (member : path ∈ middle.created) :
          path ∈ planning.created ∨ ∃ earlier other later,
            entry :: entries = earlier ++ other :: later ∧
              (∀ another ∈ earlier ++ [other], EntryListed source another) ∧
              CopiesDirectory source destDir other path :=
        (spec.created path member).imp id fun ⟨listed, copies⟩ =>
          ⟨[], entry, entries, rfl, by simpa using listed, copies⟩
      cases stop with
      | some stop => exact ⟨spec.kept, fun path => first, nofun, nofun⟩
      | none =>
        have rest := ih middle
        have listed := spec.listed rfl
        constructor
        case kept => exact fun path known => rest.kept path (spec.kept path known)
        case created =>
          intro path member
          rcases rest.created path member with known | ⟨earlier, other, later, rfl, all, copies⟩
          · exact first known
          · refine Or.inr ⟨entry :: earlier, other, later, rfl, ?_, copies⟩
            exact List.forall_mem_cons.mpr ⟨listed, all⟩
        case listed =>
          exact fun completed => List.forall_mem_cons.mpr ⟨listed, rest.listed completed⟩
        case files =>
          intro completed path
          rw [rest.files completed path, spec.files rfl path, or_assoc]
          simp only [List.mem_cons, exists_eq_or_imp]

/-! ### A destination that makes every directory -/

/-- A destination without directories that makes every directory it is asked for. -/
def madeEverywhere (error : Type*) : DestinationFs error Unit where
  readDir _ _ := .ok []
  stat _ _ := .ok ⟨0, none, .file⟩
  createDir _ _ := .ok ()

theorem ensureDirectories_madeEverywhere (error : Type*) (directories : List Path)
    (planning : Planning Unit) :
    (ensureDirectories (madeEverywhere error) (fun _ => false) directories planning).2 = none ∧
      ∀ path ∈ directories, path ∈ (ensureDirectories (madeEverywhere error) (fun _ => false)
        directories planning).1.created := by
  induction directories generalizing planning with
  | nil => exact ⟨rfl, by simp⟩
  | cons directory directories ih =>
    let made : Planning Unit := { planning with
      checks := planning.checks + 1
      destination := ()
      created := planning.created ++ [directory] }
    have step : ensureDirectories (madeEverywhere error) (fun _ => false) (directory :: directories)
        planning = ensureDirectories (madeEverywhere error) (fun _ => false) directories made := rfl
    rw [step]
    obtain ⟨completes, creates⟩ := ih made
    refine ⟨completes, List.forall_mem_cons.mpr ⟨?_, creates⟩⟩
    exact (ensureDirectories_spec _ _ directories made).2.1 directory (by simp [made])

theorem planEntry_completes (destDir : Path) {entry : Entry} (listed : EntryListed source entry) :
    ∃ fuel, ∀ more, fuel ≤ more → ∀ planning : Planning Unit,
      (planEntry source (madeEverywhere error) (fun _ => false) more destDir entry planning).2 =
          none ∧
        ∀ path, CopiesDirectory source destDir entry path →
          path ∈ (planEntry source (madeEverywhere error) (fun _ => false) more destDir entry
            planning).1.created := by
  cases isDir : entry.isDir with
  | false =>
    refine ⟨0, fun more _ planning => ⟨?_, fun path copies => ?_⟩⟩
    · simp [planEntry, isDir]
    · have notLoose := copies.1
      rw [isDir] at notLoose
      cases notLoose
  | true =>
    obtain ⟨fuel, completes⟩ := (listed isDir).completes
    refine ⟨fuel, fun more atLeast planning => ?_⟩
    obtain ⟨walked, discovered⟩ := completes more atLeast ⟨.empty, planning.checks + 1⟩
    change discoverTree source entry.path (fun _ => false) more (planning.checks + 1) =
      .ok walked at discovered
    obtain ⟨_, directories, _⟩ := discoverTree_spec destDir isDir discovered
    obtain ⟨ensured, creates⟩ := ensureDirectories_madeEverywhere error
      (directoriesOf (destDir.join ⟨entry.name⟩) walked.tree)
      ⟨planning.destination, planning.created, planning.files,
        planning.skippedSymlinks + walked.tree.skippedSymlinks, walked.checks⟩
    unfold planEntry
    simp only [isDir, discovered, Bool.false_eq_true, if_false, if_true]
    cases result : ensureDirectories (madeEverywhere error) (fun _ => false)
      (directoriesOf (destDir.join ⟨entry.name⟩) walked.tree)
      ⟨planning.destination, planning.created, planning.files,
        planning.skippedSymlinks + walked.tree.skippedSymlinks, walked.checks⟩ with
    | mk made stop =>
      rw [result] at ensured creates
      subst ensured
      exact ⟨rfl, fun path copies => creates path ((directories path).mpr copies)⟩

theorem planEntries_completes (destDir : Path) {entries : List Entry}
    (listed : ∀ entry ∈ entries, EntryListed source entry) :
    ∃ fuel, ∀ more, fuel ≤ more → ∀ planning : Planning Unit,
      (planEntries source (madeEverywhere error) (fun _ => false) more destDir entries
          planning).2 = none ∧
        ∀ entry ∈ entries, ∀ path, CopiesDirectory source destDir entry path →
          path ∈ (planEntries source (madeEverywhere error) (fun _ => false) more destDir entries
            planning).1.created := by
  induction entries with
  | nil => exact ⟨0, fun _ _ _ => ⟨rfl, by simp⟩⟩
  | cons entry entries ih =>
    obtain ⟨own, ownEnough⟩ := planEntry_completes destDir (listed entry List.mem_cons_self)
    obtain ⟨fuel, enough⟩ := ih fun other member => listed other (List.mem_cons_of_mem _ member)
    refine ⟨max own fuel, fun more atLeast planning => ?_⟩
    obtain ⟨completes, creates⟩ := ownEnough more (by omega) planning
    unfold planEntries
    cases planned : planEntry source (madeEverywhere error) (fun _ => false) more destDir entry
      planning with
    | mk middle stop =>
      rw [planned] at completes creates
      subst completes
      obtain ⟨restCompletes, restCreates⟩ := enough more (by omega) middle
      refine ⟨restCompletes, List.forall_mem_cons.mpr ⟨fun path copies => ?_, restCreates⟩⟩
      exact (planEntries_spec entries middle).kept path (creates path copies)

theorem planEntries_append_created {first second : List Entry} {planning : Planning state}
    (completes : (planEntries source fs cancel fuel destDir first planning).2 = none) :
    ∀ path ∈ (planEntries source fs cancel fuel destDir first planning).1.created,
      path ∈ (planEntries source fs cancel fuel destDir (first ++ second) planning).1.created := by
  induction first generalizing planning with
  | nil => exact (planEntries_spec second planning).kept
  | cons entry first ih =>
    rw [List.cons_append]
    unfold planEntries at completes ⊢
    cases planned : planEntry source fs cancel fuel destDir entry planning with
    | mk middle stop =>
      rw [planned] at completes
      cases stop with
      | some stop => cases completes
      | none => exact ih completes

/-! ### Names and places -/

theorem Found.folder_inside {root destRoot relative folder : Path} {item : DirItem}
    (found : Found source root relative folder item) (rootInside : destDir.Inside destRoot)
    (inside : destDir.Inside (destRoot.join relative))
    (keeps : ∀ folder item, Found source root relative folder item → item.metadata.kind = .dir →
      destDir.KeepsTo ⟨item.name⟩) :
    destDir.Inside (destRoot.join folder) := by
  induction found with
  | here listed member => exact inside
  | deeper listed member isDir found ih =>
    refine ih ?_ fun folder item below => keeps folder item (.deeper listed member isDir below)
    exact (rootInside.join_join_iff inside).mpr (keeps _ _ (.here listed member) isDir)

theorem keepsTo_empty (destDir : Path) : destDir.KeepsTo ⟨""⟩ := by
  unfold Path.KeepsTo
  rw [if_neg (by decide)]
  decide

/-- The directories of an entry lie inside the folder exactly if its name is that of
an entry and the directory names below keep to the folder. -/
theorem copiesDirectory_inside_iff {entry : Entry} (isDir : entry.isDir = true) :
    (∀ path, CopiesDirectory source destDir entry path → destDir.Inside path) ↔
      destDir.NamesEntry ⟨entry.name⟩ ∧ ∀ folder item, Found source entry.path ⟨""⟩ folder item →
        item.metadata.kind = .dir → destDir.KeepsTo ⟨item.name⟩ := by
  constructor
  · intro allInside
    have rootInside := allInside _ ⟨isDir, Or.inl rfl⟩
    refine ⟨Path.inside_join_iff.mp rootInside, fun folder item found kind => ?_⟩
    have folderInside : destDir.Inside ((destDir.join ⟨entry.name⟩).join folder) := by
      rcases found.folder with rfl | ⟨above, parent, foundParent, parentIsDir, rfl⟩
      · exact rootInside.join_iff.mpr (keepsTo_empty destDir)
      · exact allInside _ ⟨isDir, Or.inr ⟨above, parent, foundParent, parentIsDir, rfl⟩⟩
    exact (rootInside.join_join_iff folderInside).mp
      (allInside _ ⟨isDir, Or.inr ⟨folder, item, found, kind, rfl⟩⟩)
  · rintro ⟨namesEntry, keeps⟩ path ⟨_, rfl | ⟨folder, item, found, kind, rfl⟩⟩
    · exact Path.inside_join_iff.mpr namesEntry
    · have rootInside := Path.inside_join_iff.mpr namesEntry
      have folderInside := found.folder_inside rootInside
        (rootInside.join_iff.mpr (keepsTo_empty destDir)) keeps
      exact (rootInside.join_join_iff folderInside).mpr (keeps folder item found kind)

/-- Once its directories lie inside the folder, the files of an entry do exactly if
their names keep to it. -/
theorem copiesFile_inside_iff {entry : Entry}
    (directories : ∀ path, CopiesDirectory source destDir entry path → destDir.Inside path) :
    (∀ path, CopiesFile source destDir entry path → destDir.Inside path) ↔
      (entry.isDir = false → destDir.NamesEntry ⟨entry.name⟩) ∧
        (entry.isDir = true → ∀ folder item, Found source entry.path ⟨""⟩ folder item →
          item.metadata.kind = .file → destDir.KeepsTo ⟨item.name⟩) := by
  cases isDir : entry.isDir with
  | false =>
    simp only [CopiesFile, isDir, true_and, Bool.false_eq_true, false_and, or_false, forall_eq,
      Path.inside_join_iff, forall_const, false_implies, and_true]
  | true =>
    obtain ⟨namesEntry, keeps⟩ := (copiesDirectory_inside_iff isDir).mp directories
    have rootInside := Path.inside_join_iff.mpr namesEntry
    have fileInside {folder : Path} {item : DirItem}
        (found : Found source entry.path ⟨""⟩ folder item) :
        destDir.Inside ((destDir.join ⟨entry.name⟩).join (folder.join ⟨item.name⟩)) ↔
          destDir.KeepsTo ⟨item.name⟩ :=
      rootInside.join_join_iff (found.folder_inside rootInside
        (rootInside.join_iff.mpr (keepsTo_empty destDir)) keeps)
    simp only [CopiesFile, isDir, true_and, Bool.true_eq_false, false_and, false_or,
      false_implies, forall_const]
    constructor
    · exact fun allInside folder item found kind =>
        (fileInside found).mp (allInside _ ⟨folder, item, found, kind, rfl⟩)
    · rintro keepsFiles path ⟨folder, item, found, kind, rfl⟩
      exact (fileInside found).mpr (keepsFiles folder item found kind)

/-! ### The exact condition -/

theorem markConflict_destination (listings : Listings) (file : PlannedFile) :
    (markConflict listings file).destination = file.destination := by
  unfold markConflict
  split <;> rfl

theorem withSourceModified_destination (source : SourceFs error) (file : PlannedFile) :
    (withSourceModified source file).destination = file.destination := by
  unfold withSourceModified
  split_ifs
  · split <;> rfl
  · rfl

theorem planFrom_destinations (source : SourceFs error) (files : List PlannedFile)
    (skippedSymlinks : Nat) (listings : Listings) :
    (planFrom source files skippedSymlinks listings).files.map PlannedFile.destination =
      files.map PlannedFile.destination := by
  rw [planFrom, markConflicts, List.map_map, List.map_map]
  refine List.map_congr_left fun file _ => ?_
  rw [Function.comp_apply, Function.comp_apply, withSourceModified_destination,
    markConflict_destination]

/-- The files of a plan are those of all the entries. -/
theorem planCopy_ready {entries : List Entry} {start : state} {plan : DirectoryPlan}
    (ready : (planCopy source fs start entries destDir cancel fuel).outcome = .ready plan) :
    (∀ entry ∈ entries, EntryListed source entry) ∧
      ∀ path, (∃ file ∈ plan.files, file.destination = path) ↔
        ∃ entry ∈ entries, CopiesFile source destDir entry path := by
  have spec : EntriesSpec source destDir entries ⟨start, [], [], 0, 0⟩
    (planEntries source fs cancel fuel destDir entries ⟨start, [], [], 0, 0⟩).1 _ :=
    planEntries_spec entries _
  unfold planCopy at ready
  cases planned : planEntries source fs cancel fuel destDir entries ⟨start, [], [], 0, 0⟩ with
  | mk planning stop =>
    rw [planned] at ready spec
    cases stop with
    | some stop => cases ready
    | none =>
      dsimp only at ready
      split at ready
      · cases ready
      · cases ready
        refine ⟨spec.listed rfl, fun path => ?_⟩
        rw [← List.mem_map, planFrom_destinations, List.mem_map, spec.files rfl path]
        simp

theorem listDestinations_completes (fs : DestinationFs error state) (start : state)
    (files : List PlannedFile) (parents : List Path) (checks : Nat) :
    (listDestinations fs start files (fun _ => false) parents checks).isSome = true := by
  induction parents generalizing checks with
  | nil => rfl
  | cons parent parents ih => simp [listDestinations, ih]

theorem planCopy_completes (destDir : Path) {entries : List Entry}
    (listed : ∀ entry ∈ entries, EntryListed source entry) :
    ∃ fuel plan, (planCopy source (madeEverywhere error) () entries destDir (fun _ => false)
      fuel).outcome = .ready plan := by
  obtain ⟨fuel, enough⟩ := planEntries_completes destDir listed
  obtain ⟨completes, _⟩ := enough fuel le_rfl ⟨(), [], [], 0, 0⟩
  refine ⟨fuel, ?_⟩
  unfold planCopy
  cases planned : planEntries source (madeEverywhere error) (fun _ => false) fuel destDir entries
    ⟨(), [], [], 0, 0⟩ with
  | mk planning stop =>
    rw [planned] at completes
    subst completes
    obtain ⟨listings, isListed⟩ := Option.isSome_iff_exists.mp
      (listDestinations_completes (madeEverywhere error) planning.destination planning.files
        (parentsNeedingListing planning.files planning.created) planning.checks)
    simp only [isListed]
    exact ⟨_, rfl⟩

theorem exists_split {entries : List Entry} {entry : Entry} (member : entry ∈ entries)
    (listed : ∀ entry ∈ entries, EntryListed source entry) :
    ∃ earlier later, entries = earlier ++ entry :: later ∧
      ∀ other ∈ earlier ++ [entry], EntryListed source other := by
  obtain ⟨earlier, later, rfl⟩ := List.append_of_mem member
  refine ⟨earlier, later, rfl, fun other otherMember => listed other ?_⟩
  rcases List.mem_append.mp otherMember with inEarlier | isEntry
  · exact List.mem_append_left _ inEarlier
  · rw [List.mem_singleton.mp isEntry]
    simp

theorem NamesKept.staysInside {entries : List Entry} (kept : NamesKept source entries destDir)
    (start : state) :
    StaysInside destDir (planCopy source fs start entries destDir cancel fuel) := by
  have spec : EntriesSpec source destDir entries ⟨start, [], [], 0, 0⟩
    (planEntries source fs cancel fuel destDir entries ⟨start, [], [], 0, 0⟩).1 _ :=
    planEntries_spec entries _
  have directories {earlier later : List Entry} {entry : Entry}
      (split : entries = earlier ++ entry :: later)
      (listed : ∀ other ∈ earlier ++ [entry], EntryListed source other) (path : Path)
      (copies : CopiesDirectory source destDir entry path) : destDir.Inside path :=
    (copiesDirectory_inside_iff copies.1).mpr
      (kept.directories earlier entry later split listed copies.1) path copies
  constructor
  · intro directory member
    rcases spec.created directory member with known | ⟨earlier, entry, later, split, listed, copies⟩
    · simp at known
    · exact directories split listed directory copies
  · intro plan ready file member
    obtain ⟨listed, files⟩ := planCopy_ready ready
    obtain ⟨entry, entryMember, copies⟩ := (files file.destination).mp ⟨file, member, rfl⟩
    obtain ⟨earlier, later, split, listedBefore⟩ := exists_split entryMember listed
    have inside := (copiesFile_inside_iff (directories split listedBefore)).mpr
      (kept.files listed entry entryMember) _ copies
    exact ⟨inside, inside.partPath⟩

/-- A copy stays inside the chosen folder, whatever the destination holds and
whenever it is cancelled, exactly if every name it uses keeps to the folder. -/
theorem planCopy_staysInside_iff (source : SourceFs error) (entries : List Entry)
    (destDir : Path) :
    (∀ (state : Type) (fs : DestinationFs error state) (start : state) (cancel : Nat → Bool)
      (fuel : Nat), StaysInside destDir (planCopy source fs start entries destDir cancel fuel)) ↔
      NamesKept source entries destDir := by
  refine ⟨fun stays => ?_, fun kept state fs start cancel fuel => kept.staysInside start⟩
  -- A destination that makes every directory shows every place the copy would use.
  have directories {earlier later : List Entry} {entry : Entry}
      (split : entries = earlier ++ entry :: later)
      (listed : ∀ other ∈ earlier ++ [entry], EntryListed source other) (path : Path)
      (copies : CopiesDirectory source destDir entry path) : destDir.Inside path := by
    obtain ⟨fuel, enough⟩ := planEntries_completes destDir listed
    obtain ⟨completes, creates⟩ := enough fuel le_rfl ⟨(), [], [], 0, 0⟩
    refine (stays Unit (madeEverywhere error) () (fun _ => false) fuel).created path ?_
    have whole : entries = (earlier ++ [entry]) ++ later := by simp [split]
    change path ∈ (planEntries source (madeEverywhere error) (fun _ => false) fuel destDir entries
      ⟨(), [], [], 0, 0⟩).1.created
    rw [whole]
    exact planEntries_append_created completes path (creates entry (by simp) path copies)
  constructor
  · intro earlier entry later split listed isDir
    exact (copiesDirectory_inside_iff isDir).mp (directories split listed)
  · intro listed entry member
    obtain ⟨earlier, later, split, listedBefore⟩ := exists_split member listed
    refine (copiesFile_inside_iff (directories split listedBefore)).mp fun path copies => ?_
    obtain ⟨fuel, plan, ready⟩ := planCopy_completes destDir listed
    obtain ⟨file, fileMember, rfl⟩ := ((planCopy_ready ready).2 path).mpr ⟨entry, member, copies⟩
    exact ((stays Unit (madeEverywhere error) () (fun _ => false) fuel).files plan ready file
      fileMember).1

end

/-- A server that lists a file under a name that leads out of the directory. -/
def leadingOut : SourceFs String where
  readDir path := .ok [⟨"../../x", path.join ⟨"../../x"⟩, ⟨3, none, .file⟩⟩]
  stat _ := .error "No such file"

/-- The copy of one directory from that server plans a file outside the folder. -/
theorem staysInside_fails : ¬ ∀ (source : SourceFs String) (entries : List Entry) (destDir : Path)
    (state : Type) (fs : DestinationFs String state) (start : state) (cancel : Nat → Bool)
    (fuel : Nat), StaysInside destDir (planCopy source fs start entries destDir cancel fuel) := by
  intro claimed
  have stays := claimed leadingOut [⟨"photos", ⟨"/srv/photos"⟩, true, 0⟩] ⟨"/dl"⟩ Unit
    (madeEverywhere String) () (fun _ => false) 1
  obtain ⟨names, _, outside⟩ := (stays.files _ rfl _ List.mem_cons_self).1
  have leadsUp : Component.parentDir ∈ (Path.mk "/dl/photos/../../x").components := by decide
  change (Path.mk "/dl/photos/../../x").components = _ at outside
  rw [outside] at leadsUp
  rcases List.mem_append.mp leadsUp with inFolder | inNames
  · exact absurd inFolder (by decide)
  · exact Path.parentDir_not_mem_map names inNames

end Porthmos
