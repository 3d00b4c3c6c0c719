import Mathlib.Data.List.Induction
import Mathlib.Data.List.Perm.Subperm
import Porthmos.ConflictAnswers
import Porthmos.CopyInside
import Porthmos.PathNames

/-!
# What becomes of the planned files

Every planned file is copied, skipped or blocked.  A file that is copied keeps its destination or
gets a name of its own in the same directory, so no two copies have one destination.
-/

namespace Porthmos

/-! ### The search for a name -/

theorem numberedName_injective (name : String) : Function.Injective (numberedName name) := by
  intro first second same
  simp only [numberedName, String.append_left_inj, String.append_right_inj] at same
  exact repr_inj same

/-- The search for a free name ends: it finds the first number that is free. -/
theorem uniqueName_spec (name : String) (taken : List String) :
    ∃ counter, 0 < counter ∧ uniqueName name taken = numberedName name counter ∧
      numberedName name counter ∉ taken ∧
      ∀ earlier, 0 < earlier → earlier < counter → numberedName name earlier ∈ taken := by
  simp only [uniqueName]
  generalize isTried : (List.range (taken.length + 1)).map
    (fun round => numberedName name (round + 1)) = candidates
  cases found : candidates.find? fun candidate => decide (candidate ∉ taken) with
  | none =>
    have allTaken : candidates ⊆ taken := by
      intro candidate member
      simpa using List.find?_eq_none.mp found candidate member
    have distinct : candidates.Nodup := by
      rw [← isTried]
      apply List.nodup_range.map
      intro first second same
      exact Nat.succ_injective (numberedName_injective name same)
    have short := (distinct.subperm allTaken).length_le
    rw [← isTried, List.length_map, List.length_range] at short
    omega
  | some candidate =>
    obtain ⟨isFree, round, inRange, isRound, before⟩ := List.find?_eq_some_iff_getElem.mp found
    subst isTried
    simp only [List.getElem_map, List.getElem_range] at isRound before
    refine ⟨round + 1, by omega, isRound.symm, ?_, ?_⟩
    · rw [isRound]
      simpa using isFree
    · intro earlier positive isEarlier
      have tried := before (earlier - 1) (by omega)
      rw [Nat.sub_add_cancel positive] at tried
      simpa using tried

theorem mem_splitExtension {name : String} {char : Char}
    (member : char ∈ (splitExtension name).1.toList ∨ char ∈ (splitExtension name).2.toList) :
    char ∈ name.toList := by
  unfold splitExtension at member
  dsimp only at member
  split_ifs at member
  · simpa using member
  · rw [String.toList_ofList, String.toList_ofList] at member
    exact member.elim List.mem_of_mem_take List.mem_of_mem_drop

theorem plain_numberedName {name : String} (noSeparator : '/' ∉ name.toList) (counter : Nat) :
    PlainName (numberedName name counter) := by
  have hasBlank : ' ' ∈ (numberedName name counter).toList := by
    simp [numberedName, String.toList_append]
  have differs (other : String) (noBlank : ' ' ∉ other.toList) :
      numberedName name counter ≠ other := by
    intro same
    exact noBlank (same ▸ hasBlank)
  refine ⟨differs "" (by decide), ?_, differs "." (by decide), differs ".." (by decide)⟩
  intro separator
  simp only [numberedName, String.toList_append, List.mem_append] at separator
  rcases separator with (((inStem | inOpening) | inNumber) | inClosing) | inExtension
  · exact noSeparator (mem_splitExtension (Or.inl inStem))
  · exact absurd inOpening (by decide)
  · exact absurd (isDigit_of_mem_repr inNumber) (by decide)
  · exact absurd inClosing (by decide)
  · exact noSeparator (mem_splitExtension (Or.inr inExtension))

/-! ### Destinations -/

variable {file : PlannedFile}

theorem components_of_place {parent : Path} {name : String}
    (place : destinationParentAndName file = some (parent, name)) :
    file.destination.components = parent.components ++ [.normal name] := by
  unfold destinationParentAndName at place
  split at place
  · rename_i isParent isName
    obtain ⟨rfl, rfl⟩ := Prod.mk.inj (Option.some.inj place)
    obtain ⟨notEmpty, parentComponents⟩ := Path.components_parent isParent
    have isLast := fileName_eq_some_iff.mp isName
    rw [parentComponents]
    exact (List.dropLast_append_getLast? _ isLast).symm
  · cases place

theorem place_of_components {directory : List Component} {name : String}
    (isDestination : file.destination.components = directory ++ [.normal name]) :
    ∃ parent, destinationParentAndName file = some (parent, name) ∧
      parent.components = directory := by
  have isName : file.destination.fileName = some name :=
    fileName_eq_some_iff.mpr (by simp [isDestination])
  cases isParent : file.destination.parent with
  | none =>
    rcases Path.components_of_parent_eq_none isParent with empty | root
    · simp [isDestination] at empty
    · rw [isDestination] at root
      simp [List.append_eq_singleton_iff] at root
  | some parent =>
    refine ⟨parent, by simp [destinationParentAndName, isParent, isName], ?_⟩
    rw [(Path.components_parent isParent).2, isDestination, List.dropLast_concat]

theorem noSeparator_of_place {parent : Path} {name : String}
    (place : destinationParentAndName file = some (parent, name)) : '/' ∉ name.toList := by
  have isLast : .normal name ∈ file.destination.components := by
    rw [components_of_place place]
    exact List.mem_append_right _ (List.mem_singleton_self _)
  exact (plain_of_mem_components isLast).2.1

theorem renameDestination_of_place (taken : TakenNames) {parent : Path} {name : String}
    (place : destinationParentAndName file = some (parent, name)) :
    renameDestination file taken = ({ file with
          destination := parent.join ⟨uniqueName name (taken parent.components)⟩
          displayName := ((Path.mk file.displayName).withFileName
            (uniqueName name (taken parent.components))).text },
        Function.update taken parent.components
          (uniqueName name (taken parent.components) :: taken parent.components)) := by
  unfold destinationParentAndName at place
  unfold renameDestination
  split at place
  · obtain ⟨rfl, rfl⟩ := Prod.mk.inj (Option.some.inj place)
    simp [*]
  · cases place

/-! ### One file -/

/-- The planned files with their answers. -/
def DirectoryPlan.answered (plan : DirectoryPlan) (answers : List Resolution) :
    List (PlannedFile × Option Resolution) :=
  plan.files.mapIdx fun index file => (file, plan.answerOf answers index)

def ResolvedPlan.dropped (resolved : ResolvedPlan) : Nat :=
  resolved.skipped + resolved.skippedPartials + resolved.blockedByFolder

/-- How a file is kept with its answer.  A renamed file goes under a new name into the same
directory. -/
inductive Keeps (taken : TakenNames) (file : PlannedFile) : Option Resolution → PlannedFile → Prop
  | unasked : Keeps taken file none file
  | resumed (noFolder : file.existing.any ExistingFile.isDir = false) :
      Keeps taken file (some .resume) { file with resume := true }
  | overwritten (noFolder : file.existing.any ExistingFile.isDir = false) :
      Keeps taken file (some .overwrite) { file with resume := false }
  | unneeded (isNew : file.existing = none) :
      Keeps taken file (some .rename) { file with resume := true }
  | renamed {parent : Path} {name newName : String} (isThere : file.existing.isSome)
      (place : destinationParentAndName file = some (parent, name))
      (sameFolder : (parent.join ⟨newName⟩).components = parent.components ++ [.normal newName])
      (fresh : newName ∉ taken parent.components) :
      Keeps taken file (some .rename)
        { file with
          destination := parent.join ⟨newName⟩
          displayName := ((Path.mk file.displayName).withFileName newName).text
          resume := false }

/-- A file is dropped, kept in its place, or renamed. -/
theorem treat_cases (taken : TakenNames) (resolved : ResolvedPlan) (file : PlannedFile)
    (answer : Option Resolution) :
    (∃ after, treat (taken, resolved) file answer = (taken, after) ∧ after.files = resolved.files ∧
      after.dropped = resolved.dropped + 1) ∨
    (∃ flag, treat (taken, resolved) file answer =
        (taken, resolved.copying { file with resume := flag }) ∧
      ∀ names, Keeps names file answer { file with resume := flag }) ∨
    (answer = some .rename ∧ file.existing.isSome = true ∧
      treat (taken, resolved) file answer = ((renameDestination file taken).2,
        resolved.copying { (renameDestination file taken).1 with resume := false })) := by
  cases answer with
  | none => exact Or.inr (Or.inl ⟨file.resume, rfl, fun _ => .unasked⟩)
  | some answer =>
    cases answer with
    | overwrite =>
      cases blocked : file.existing.any ExistingFile.isDir with
      | true =>
        exact Or.inl ⟨{ resolved with blockedByFolder := resolved.blockedByFolder + 1 },
          by simp [treat, blocked], rfl, rfl⟩
      | false =>
        exact Or.inr (Or.inl ⟨false, by simp [treat, blocked], fun _ => .overwritten blocked⟩)
    | resume =>
      cases blocked : file.existing.any ExistingFile.isDir with
      | true =>
        exact Or.inl ⟨{ resolved with blockedByFolder := resolved.blockedByFolder + 1 },
          by simp [treat, blocked], rfl, rfl⟩
      | false => exact Or.inr (Or.inl ⟨true, by simp [treat, blocked], fun _ => .resumed blocked⟩)
    | skip =>
      left
      cases isThere : file.existing.isSome with
      | true =>
        refine ⟨{ resolved with skipped := resolved.skipped + 1 }, by simp [treat, isThere],
          rfl, ?_⟩
        simp only [ResolvedPlan.dropped]
        omega
      | false =>
        refine ⟨{ resolved with skippedPartials := resolved.skippedPartials + 1 },
          by simp [treat, isThere], rfl, ?_⟩
        simp only [ResolvedPlan.dropped]
        omega
    | rename =>
      cases isThere : file.existing.isSome with
      | false =>
        have isNew : file.existing = none := by simpa using isThere
        exact Or.inr (Or.inl ⟨true, by simp [treat, isNew], fun _ => .unneeded isNew⟩)
      | true =>
        have notNew : file.existing ≠ none := by simpa [Option.isSome_iff_ne_none] using isThere
        exact Or.inr (Or.inr ⟨rfl, rfl, by simp [treat, notNew]⟩)

/-! ### All files -/

/-- Files as `plan_copy` plans them: they have destinations of their own, their names are taken, and
what exists was found under the name of a directory. -/
structure WellPlanned (taken : TakenNames) (files : List PlannedFile) : Prop where
  distinct : (files.map fun file => file.destination.components).Nodup
  taken : ∀ file ∈ files, ∀ parent name,
    destinationParentAndName file = some (parent, name) → name ∈ taken parent.components
  named : ∀ file ∈ files, file.existing.isSome = true →
    ∃ parent name, destinationParentAndName file = some (parent, name)

/-- What holds of the files that are treated so far.  The names taken at first only get more, and
each new one was free. -/
structure Treated (taken : TakenNames) (answered : List (PlannedFile × Option Resolution))
    (treated : TakenNames × ResolvedPlan) : Prop where
  counts : treated.2.files.length + treated.2.dropped = answered.length
  kept : ∃ origins, origins.Sublist answered ∧
    List.Forall₂ (fun origin kept => Keeps taken origin.1 origin.2 kept) origins treated.2.files
  grows : ∀ directory, taken directory ⊆ treated.1 directory
  noted : ∀ kept ∈ treated.2.files,
    (∃ origin ∈ answered, origin.1.destination = kept.destination) ∨
      ∃ directory name, kept.destination.components = directory ++ [.normal name] ∧
        name ∉ taken directory ∧ name ∈ treated.1 directory
  distinct : (treated.2.files.map fun file => file.destination.components).Nodup

variable {taken : TakenNames} {answered : List (PlannedFile × Option Resolution)}
  {treated : TakenNames × ResolvedPlan}

theorem Treated.drop (before : Treated taken answered treated) {after : ResolvedPlan}
    (origin : PlannedFile × Option Resolution) (sameFiles : after.files = treated.2.files)
    (counted : after.dropped = treated.2.dropped + 1) :
    Treated taken (answered ++ [origin]) (treated.1, after) where
  counts := by
    have counts := before.counts
    rw [List.length_append, List.length_singleton, sameFiles, counted]
    omega
  kept := by
    obtain ⟨origins, isSublist, keeps⟩ := before.kept
    exact ⟨origins, isSublist.trans (List.sublist_append_left _ _), sameFiles ▸ keeps⟩
  grows := before.grows
  noted kept member := by
    rcases before.noted kept (sameFiles ▸ member) with ⟨planned, isPlanned, same⟩ | isNew
    · exact Or.inl ⟨planned, List.mem_append_left _ isPlanned, same⟩
    · exact Or.inr isNew
  distinct := sameFiles ▸ before.distinct

/-- A file that is kept goes where no file went before. -/
theorem Treated.keep (before : Treated taken answered treated) {names : TakenNames}
    {origin : PlannedFile × Option Resolution} {kept : PlannedFile}
    (keeps : Keeps taken origin.1 origin.2 kept)
    (more : ∀ directory, treated.1 directory ⊆ names directory)
    (noted : origin.1.destination = kept.destination ∨
      ∃ directory name, kept.destination.components = directory ++ [.normal name] ∧
        name ∉ taken directory ∧ name ∈ names directory)
    (apart : ∀ other ∈ treated.2.files,
      other.destination.components ≠ kept.destination.components) :
    Treated taken (answered ++ [origin]) (names, treated.2.copying kept) where
  counts := by
    have counts := before.counts
    simp only [ResolvedPlan.copying, ResolvedPlan.dropped, List.length_append,
      List.length_singleton] at counts ⊢
    omega
  kept := by
    obtain ⟨origins, isSublist, all⟩ := before.kept
    exact ⟨origins ++ [origin], isSublist.append (List.Sublist.refl _),
      List.rel_append all (.cons keeps .nil)⟩
  grows directory := List.Subset.trans (before.grows directory) (more directory)
  noted other member := by
    rcases List.mem_append.mp member with earlier | isLast
    · rcases before.noted other earlier with ⟨planned, isPlanned, same⟩ | isNew
      · exact Or.inl ⟨planned, List.mem_append_left _ isPlanned, same⟩
      · obtain ⟨directory, name, isDestination, fresh, isTaken⟩ := isNew
        exact Or.inr ⟨directory, name, isDestination, fresh, more directory isTaken⟩
    · obtain rfl := List.mem_singleton.mp isLast
      rcases noted with same | isNew
      · exact Or.inl ⟨origin, List.mem_append_right _ (List.mem_singleton_self _), same⟩
      · exact Or.inr isNew
  distinct := by
    rw [ResolvedPlan.copying, List.map_append, List.nodup_append]
    refine ⟨before.distinct, by simp, ?_⟩
    intro first isFirst second isSecond
    obtain ⟨other, member, rfl⟩ := List.mem_map.mp isFirst
    obtain rfl : second = kept.destination.components := by simpa using isSecond
    exact apart other member

theorem WellPlanned.apart {files : List PlannedFile} (planned : WellPlanned taken files)
    (member : file ∈ files) {directory : List Component} {name : String}
    (fresh : name ∉ taken directory) :
    file.destination.components ≠ directory ++ [.normal name] := by
  intro same
  obtain ⟨parent, place, rfl⟩ := place_of_components same
  exact fresh (planned.taken file member parent name place)

theorem WellPlanned.of_append {first second : List PlannedFile}
    (planned : WellPlanned taken (first ++ second)) : WellPlanned taken first where
  distinct := by
    have distinct := planned.distinct
    rw [List.map_append] at distinct
    exact (List.nodup_append.mp distinct).1
  taken file member := planned.taken file (List.mem_append_left _ member)
  named file member := planned.named file (List.mem_append_left _ member)

theorem Treated.apart_of_planned {origin : PlannedFile × Option Resolution}
    (planned : WellPlanned taken ((answered ++ [origin]).map Prod.fst))
    (before : Treated taken answered treated) :
    ∀ other ∈ treated.2.files, other.destination.components ≠ origin.1.destination.components := by
  have inPlan : origin.1 ∈ (answered ++ [origin]).map Prod.fst := by simp
  intro other member same
  rcases before.noted other member with ⟨earlier, isEarlier, isOther⟩ | isNew
  · have distinct := planned.distinct
    rw [List.map_map, List.map_append, List.nodup_append] at distinct
    have differs := distinct.2.2 _ (List.mem_map_of_mem isEarlier) _
      (List.mem_map_of_mem (List.mem_singleton_self origin))
    exact differs (by rw [Function.comp_apply, Function.comp_apply, isOther, same])
  · obtain ⟨directory, name, isDestination, fresh, _⟩ := isNew
    exact planned.apart inPlan fresh (same ▸ isDestination)

theorem Treated.next {origin : PlannedFile × Option Resolution}
    (planned : WellPlanned taken ((answered ++ [origin]).map Prod.fst))
    (before : Treated taken answered treated) :
    Treated taken (answered ++ [origin]) (treat treated origin.1 origin.2) := by
  have inPlan : origin.1 ∈ (answered ++ [origin]).map Prod.fst := by simp
  rcases treat_cases treated.1 treated.2 origin.1 origin.2 with
    ⟨after, isAfter, sameFiles, counted⟩ | ⟨flag, isAfter, keeps⟩ | ⟨isRename, isThere, isAfter⟩
  · rw [isAfter]
    exact before.drop origin sameFiles counted
  · rw [isAfter]
    exact before.keep (keeps taken) (fun _ => List.Subset.refl _) (Or.inl rfl)
      (before.apart_of_planned planned)
  · obtain ⟨parent, name, place⟩ := planned.named origin.1 inPlan isThere
    obtain ⟨counter, _, isName, free, _⟩ := uniqueName_spec name (treated.1 parent.components)
    have sameFolder : (parent.join ⟨uniqueName name (treated.1 parent.components)⟩).components =
          parent.components ++ [.normal (uniqueName name (treated.1 parent.components))] := by
      rw [isName]
      exact components_join_plain (plain_numberedName (noSeparator_of_place place) counter)
    rw [← isName] at free
    have fresh := fun isTaken => free (before.grows parent.components isTaken)
    rw [isAfter, renameDestination_of_place treated.1 place]
    apply before.keep
    · rw [isRename]
      exact .renamed isThere place sameFolder fresh
    · intro directory known member
      by_cases same : directory = parent.components
      · simp [same ▸ member, same]
      · simpa [Function.update_of_ne same] using member
    · exact Or.inr ⟨parent.components, _, sameFolder, fresh, by simp⟩
    · intro other member same
      rw [sameFolder] at same
      rcases before.noted other member with ⟨earlier, isEarlier, isOther⟩ | isNew
      · have planned := planned.apart (List.mem_map_of_mem (List.mem_append_left _ isEarlier)) fresh
        exact planned (isOther ▸ same)
      · -- The new name of the other file is taken by now.
        obtain ⟨directory, otherName, isDestination, _, isTaken⟩ := isNew
        rw [isDestination] at same
        obtain ⟨rfl, sameName⟩ := List.append_inj' same rfl
        obtain rfl : otherName = _ := by simpa using sameName
        exact free isTaken

theorem treated_foldl (planned : WellPlanned taken (answered.map Prod.fst)) : Treated taken answered
      (answered.foldl (fun treated file => treat treated file.1 file.2) (taken, ⟨[], 0, 0, 0⟩)) := by
  induction answered using List.reverseRecOn with
  | nil =>
    exact ⟨rfl, ⟨[], List.Sublist.refl _, .nil⟩, fun _ => List.Subset.refl _, by simp, by simp⟩
  | append_singleton answered origin ih =>
    have before := ih (by rw [List.map_append] at planned; exact planned.of_append)
    rw [List.foldl_append]
    exact before.next planned

/-! ### A whole plan -/

/-- What `resolve` accounts for. -/
structure AccountsFor (plan : DirectoryPlan) (answers : List Resolution) (resolved : ResolvedPlan) :
    Prop where
  counts : resolved.files.length + resolved.skipped + resolved.skippedPartials +
    resolved.blockedByFolder = plan.files.length
  kept : ∃ origins, origins.Sublist (plan.answered answers) ∧
    List.Forall₂ (fun origin kept => Keeps plan.takenNames origin.1 origin.2 kept) origins
      resolved.files
  distinct : (resolved.files.map fun file => file.destination.components).Nodup

/-- Every planned file is accounted for, and no two that are kept go to one place.  The search for a
new name ends at the first number that is free. -/
theorem resolve_accounts (plan : DirectoryPlan) (planned : WellPlanned plan.takenNames plan.files)
    (answers : List Resolution) :
    AccountsFor plan answers (resolve plan answers) ∧
      ∀ name taken, ∃ counter, 0 < counter ∧ uniqueName name taken = numberedName name counter ∧
        numberedName name counter ∉ taken ∧
        ∀ earlier, 0 < earlier → earlier < counter → numberedName name earlier ∈ taken := by
  have sameFiles : (plan.answered answers).map Prod.fst = plan.files := by
    apply List.ext_getElem
    · simp [DirectoryPlan.answered]
    · intro index _ _
      simp [DirectoryPlan.answered]
  have treated := treated_foldl (sameFiles.symm ▸ planned)
  have counts : (treatAll plan (plan.answerOf answers)).files.length +
      (treatAll plan (plan.answerOf answers)).dropped = (plan.answered answers).length :=
    treated.counts
  rw [← List.length_map Prod.fst, sameFiles] at counts
  rw [resolve_eq_treatAll]
  constructor
  · constructor
    · rw [← counts, ResolvedPlan.dropped]
      omega
    · exact treated.kept
    · exact treated.distinct
  · exact uniqueName_spec

def twoRenames : DirectoryPlan where
  files := [⟨⟨"/s/a.txt"⟩, ⟨"/d/a.txt"⟩, "a.txt", 3, some ⟨1, none, false⟩, none, none, false⟩,
    ⟨⟨"/s/a (1).txt"⟩, ⟨"/d/a (1).txt"⟩, "a (1).txt", 3, some ⟨1, none, true⟩, none, none, false⟩]
  skippedSymlinks := 0
  takenNames := fun _ => ["a.txt", "a (1).txt"]

theorem resolve_accounts_twoRenames :
    AccountsFor twoRenames [.rename, .rename, .skip] (resolve twoRenames [.rename, .rename, .skip]) ∧
      (resolve twoRenames [.rename, .rename, .skip]).files.map PlannedFile.destination =
        [⟨"/d/a (2).txt"⟩, ⟨"/d/a (1) (1).txt"⟩] := by
  have places : twoRenames.files.map destinationParentAndName =
      [some (⟨"/d"⟩, "a.txt"), some (⟨"/d"⟩, "a (1).txt")] := by decide
  have found (file : PlannedFile) (member : file ∈ twoRenames.files) :
      destinationParentAndName file ∈ [some (Path.mk "/d", "a.txt"), some (⟨"/d"⟩, "a (1).txt")] :=
    places ▸ List.mem_map_of_mem member
  have planned : WellPlanned twoRenames.takenNames twoRenames.files := by
    constructor
    · decide
    · intro file member parent name place
      have isPlace := found file member
      rw [place] at isPlace
      simp only [List.mem_cons, Option.some.injEq, Prod.mk.injEq, List.not_mem_nil, or_false]
        at isPlace
      rcases isPlace with ⟨_, rfl⟩ | ⟨_, rfl⟩ <;> simp [twoRenames]
    · intro file member _
      rcases List.mem_pair.mp (found file member) with place | place
      · exact ⟨_, _, place⟩
      · exact ⟨_, _, place⟩
  exact ⟨(resolve_accounts twoRenames planned _).1, by decide⟩

/-! ### Plans of a copy -/

section Copy

variable {error state : Type*} (source : SourceFs error) (fs : DestinationFs error state)
  (cancel : Nat → Bool) (fuel : Nat) (destDir : Path)

/-- Nothing is known of what exists before the destinations are listed. -/
def Unmarked (files : List PlannedFile) : Prop := ∀ file ∈ files, file.existing = none

theorem files_ensureDirectories (directories : List Path) (planning : Planning state) :
    (ensureDirectories fs cancel directories planning).1.files = planning.files := by
  induction directories generalizing planning with
  | nil => rfl
  | cons directory directories ih =>
    unfold ensureDirectories
    split_ifs
    · rfl
    · dsimp only
      split
      · rfl
      · exact ih _

theorem Unmarked.append {first second : List PlannedFile} (unmarked : Unmarked first)
    (more : Unmarked second) : Unmarked (first ++ second) := fun file member =>
  (List.mem_append.mp member).elim (unmarked file) (more file)

theorem unmarked_planEntry {planning : Planning state} (unmarked : Unmarked planning.files)
    (entry : Entry) :
    Unmarked (planEntry source fs cancel fuel destDir entry planning).1.files := by
  have unmarkedTree (destRoot : Path) (tree : DiscoveredTree) :
      Unmarked (plannedFilesForTree entry destRoot tree) := by
    intro file member
    obtain ⟨_, _, rfl⟩ := List.mem_map.mp member
    rfl
  unfold planEntry
  split_ifs
  · exact unmarked
  · dsimp only
    split
    · exact unmarked
    · split
      · rename_i ended
        have sameFiles := congrArg (fun result => result.1.files) ended
        rw [files_ensureDirectories] at sameFiles
        exact sameFiles ▸ unmarked
      · rename_i ended
        have sameFiles := congrArg (fun result => result.1.files) ended
        rw [files_ensureDirectories] at sameFiles
        exact (sameFiles ▸ unmarked).append (unmarkedTree _ _)
  · apply unmarked.append
    intro file member
    rw [List.mem_singleton.mp member]
    rfl

theorem unmarked_planEntries {planning : Planning state} (unmarked : Unmarked planning.files)
    (entries : List Entry) :
    Unmarked (planEntries source fs cancel fuel destDir entries planning).1.files := by
  induction entries generalizing planning with
  | nil => exact unmarked
  | cons entry entries ih =>
    have after := unmarked_planEntry source fs cancel fuel destDir unmarked entry
    unfold planEntries
    split
    · rename_i ended
      exact ended ▸ after
    · rename_i ended
      rw [ended] at after
      exact ih after

variable {source fs cancel fuel destDir}

theorem wellPlanned_planFrom {files : List PlannedFile} (unmarked : Unmarked files)
    (skippedSymlinks : Nat) (listings : Listings)
    (distinct : ((planFrom source files skippedSymlinks listings).files.map fun file =>
      file.destination.components).Nodup) :
    WellPlanned (planFrom source files skippedSymlinks listings).takenNames
      (planFrom source files skippedSymlinks listings).files := by
  have planned (marked : PlannedFile)
      (member : marked ∈ (planFrom source files skippedSymlinks listings).files) :
      ∃ file ∈ files, withSourceModified source (markConflict listings file) = marked := by
    obtain ⟨_, inner, rfl⟩ := List.mem_map.mp member
    obtain ⟨file, isPlanned, rfl⟩ := List.mem_map.mp inner
    exact ⟨file, isPlanned, rfl⟩
  have samePlace (file : PlannedFile) :
      destinationParentAndName (withSourceModified source (markConflict listings file)) =
        destinationParentAndName file := by
    unfold destinationParentAndName
    rw [withSourceModified_destination, markConflict_destination]
  constructor
  · exact distinct
  · intro marked member parent name place
    have isPlace : (parent, name) ∈
        (planFrom source files skippedSymlinks listings).files.filterMap destinationParentAndName :=
      List.mem_filterMap.mpr ⟨marked, member, place⟩
    apply List.mem_append_right
    apply List.mem_map_of_mem (a := (parent, name))
    rw [List.mem_filter]
    exact ⟨isPlace, by simp⟩
  · intro marked member isThere
    obtain ⟨file, isPlanned, rfl⟩ := planned marked member
    rw [samePlace]
    cases place : destinationParentAndName file with
    | some found => exact ⟨found.1, found.2, rfl⟩
    | none =>
      have sameFile : markConflict listings file = file := by
        unfold markConflict
        rw [place]
      have existing : (withSourceModified source file).existing = file.existing := by
        unfold withSourceModified
        split_ifs
        · split <;> rfl
        · rfl
      rw [sameFile, existing, unmarked file isPlanned] at isThere
      cases isThere

end Copy

end Porthmos
