import Porthmos.Plan

/-!
# What a walk discovers

A walk through a directory of the source succeeds, given fuel, exactly when every
directory below can be listed.  It finds exactly the items of those listings.
-/

namespace Porthmos

variable {error : Type*}

/-- Below the directory `relative` of the tree at `root` the listing of `folder` has
the item. -/
inductive Found (source : SourceFs error) (root : Path) : Path → Path → DirItem → Prop
  | here {relative : Path} {items : List DirItem} {item : DirItem}
      (listed : source.readDir (root.join relative) = .ok items) (member : item ∈ items) :
      Found source root relative relative item
  | deeper {relative folder : Path} {items : List DirItem} {item other : DirItem}
      (listed : source.readDir (root.join relative) = .ok items) (member : item ∈ items)
      (isDir : item.metadata.kind = .dir)
      (found : Found source root (relative.join ⟨item.name⟩) folder other) :
      Found source root relative folder other

/-- Every directory at and below `relative` can be listed, and they come to an end. -/
inductive Listable (source : SourceFs error) (root : Path) : Path → Prop
  | intro {relative : Path} {items : List DirItem}
      (listed : source.readDir (root.join relative) = .ok items)
      (below : ∀ item ∈ items, item.metadata.kind = .dir →
        Listable source root (relative.join ⟨item.name⟩)) :
      Listable source root relative

section

variable {source : SourceFs error} {root : Path}

theorem Found.folder {relative folder : Path} {item : DirItem}
    (found : Found source root relative folder item) :
    folder = relative ∨ ∃ above parent, Found source root relative above parent ∧
      parent.metadata.kind = .dir ∧ folder = above.join ⟨parent.name⟩ := by
  induction found with
  | here listed member => exact Or.inl rfl
  | @deeper relative folder items item other listed member isDir found ih =>
    right
    rcases ih with rfl | ⟨above, parent, foundParent, parentIsDir, isFolder⟩
    · exact ⟨relative, item, .here listed member, isDir, rfl⟩
    · exact ⟨above, parent, .deeper listed member isDir foundParent, parentIsDir, isFolder⟩

/-- The directories and files that a walk adds to a tree. -/
structure Adds (foundHere : Path → DirItem → Prop) (before after : DiscoveredTree) : Prop where
  directories : ∀ path, path ∈ after.directories ↔ path ∈ before.directories ∨
    ∃ folder item, foundHere folder item ∧ item.metadata.kind = .dir ∧
      path = folder.join ⟨item.name⟩
  files : ∀ file, file ∈ after.files ↔ file ∈ before.files ∨
    ∃ folder item, foundHere folder item ∧ item.metadata.kind = .file ∧
      file = (folder.join ⟨item.name⟩, item.metadata.size, item.metadata.modified)

/-- The items found through a part of a listing. -/
def FoundThrough (source : SourceFs error) (root relative : Path) (items : List DirItem)
    (folder : Path) (item : DirItem) : Prop :=
  (folder = relative ∧ item ∈ items) ∨ ∃ parent ∈ items, parent.metadata.kind = .dir ∧
    Found source root (relative.join ⟨parent.name⟩) folder item

theorem found_iff_foundThrough {relative folder : Path} {items : List DirItem} {item : DirItem}
    (listed : source.readDir (root.join relative) = .ok items) :
    Found source root relative folder item ↔
      FoundThrough source root relative items folder item := by
  constructor
  · intro found
    cases found with
    | here again member =>
      rw [listed, Except.ok.injEq] at again
      exact Or.inl ⟨rfl, again ▸ member⟩
    | deeper again member isDir found =>
      rw [listed, Except.ok.injEq] at again
      exact Or.inr ⟨_, again ▸ member, isDir, found⟩
  · rintro (⟨rfl, member⟩ | ⟨parent, member, isDir, found⟩)
    · exact .here listed member
    · exact .deeper listed member isDir found

theorem foundThrough_cons {relative folder : Path} {first other : DirItem} {items : List DirItem} :
    FoundThrough source root relative (first :: items) folder other ↔
      ((folder = relative ∧ other = first) ∨ (first.metadata.kind = .dir ∧
        Found source root (relative.join ⟨first.name⟩) folder other)) ∨
      FoundThrough source root relative items folder other := by
  unfold FoundThrough
  simp only [List.mem_cons, exists_eq_or_imp]
  tauto

theorem Adds.refl {foundHere : Path → DirItem → Prop} (none : ∀ folder item, ¬ foundHere folder item)
    (tree : DiscoveredTree) : Adds foundHere tree tree :=
  ⟨by simp [none], by simp [none]⟩

theorem Adds.trans {first second both : Path → DirItem → Prop} {start middle last : DiscoveredTree}
    (adds : Adds first start middle) (addsMore : Adds second middle last)
    (split : ∀ folder item, both folder item ↔ first folder item ∨ second folder item) :
    Adds both start last := by
  constructor
  · intro path
    rw [addsMore.directories, adds.directories]
    simp only [split, or_and_right, exists_or]
    exact or_assoc
  · intro file
    rw [addsMore.files, adds.files]
    simp only [split, or_and_right, exists_or]
    exact or_assoc

/-- Adding a directory to the tree, and then what the walk into it adds. -/
theorem Adds.directory {foundHere : Path → DirItem → Prop} {relative : Path} {item : DirItem}
    {start last : DiscoveredTree} (isDir : item.metadata.kind = .dir)
    (adds : Adds foundHere
      { start with directories := start.directories ++ [relative.join ⟨item.name⟩] } last) :
    Adds (fun folder other => (folder = relative ∧ other = item) ∨ foundHere folder other)
      start last := by
  constructor
  · intro path
    rw [adds.directories, List.mem_append, List.mem_singleton]
    constructor
    · rintro ((known | isNew) | ⟨folder, other, found, rest⟩)
      · exact Or.inl known
      · exact Or.inr ⟨relative, item, Or.inl ⟨rfl, rfl⟩, isDir, isNew⟩
      · exact Or.inr ⟨folder, other, Or.inr found, rest⟩
    · rintro (known | ⟨folder, other, ⟨rfl, rfl⟩ | found, rest⟩)
      · exact Or.inl (Or.inl known)
      · exact Or.inl (Or.inr rest.2)
      · exact Or.inr ⟨folder, other, found, rest⟩
  · intro file
    rw [adds.files]
    constructor
    · rintro (known | ⟨folder, other, found, rest⟩)
      · exact Or.inl known
      · exact Or.inr ⟨folder, other, Or.inr found, rest⟩
    · rintro (known | ⟨folder, other, ⟨rfl, rfl⟩ | found, isFile, _⟩)
      · exact Or.inl known
      · rw [isDir] at isFile
        cases isFile
      · exact Or.inr ⟨folder, other, found, isFile, ‹_›⟩

theorem Adds.file {relative : Path} {item : DirItem} (isFile : item.metadata.kind = .file)
    (start : DiscoveredTree) :
    Adds (fun folder other => folder = relative ∧ other = item) start { start with
        files := start.files ++
          [(relative.join ⟨item.name⟩, item.metadata.size, item.metadata.modified)] } := by
  constructor
  · intro path
    simp [isFile]
  · intro file
    simp [isFile]

theorem Adds.symlink {relative : Path} {item : DirItem} (isLink : item.metadata.kind = .symlink)
    (start : DiscoveredTree) :
    Adds (fun folder other => folder = relative ∧ other = item) start { start with
        skippedSymlinks := start.skippedSymlinks + 1
        symlinks := start.symlinks ++ [relative.join ⟨item.name⟩] } := by
  constructor
  · intro path
    simp [isLink]
  · intro file
    simp [isLink]

/-- What a walk into a directory does that comes to its end. -/
def WalkSpec (source : SourceFs error) (root : Path)
    (walkInto : Path → Walked → Except (Stop error) Walked) : Prop :=
  ∀ relative before after, walkInto relative before = .ok after →
    Listable source root relative ∧ Adds (Found source root relative) before.tree after.tree

/-- The loop over a listing walks into all of its directories. -/
theorem discoverItems_spec {cancel : Nat → Bool}
    {walkInto : Path → Walked → Except (Stop error) Walked} (walks : WalkSpec source root walkInto)
    {relative : Path} {items : List DirItem} {start last : Walked}
    (completed : discoverItems true cancel walkInto relative items start = .ok last) :
    (∀ item ∈ items, item.metadata.kind = .dir → Listable source root (relative.join ⟨item.name⟩)) ∧
      Adds (FoundThrough source root relative items) start.tree last.tree := by
  induction items generalizing start with
  | nil =>
    rw [discoverItems, Except.ok.injEq] at completed
    subst completed
    exact ⟨by simp, .refl (by simp [FoundThrough]) _⟩
  | cons item items ih =>
    obtain ⟨tree, checks⟩ := start
    unfold discoverItems at completed
    by_cases cancelled : cancel checks = true
    · rw [if_pos cancelled] at completed
      cases completed
    rw [if_neg cancelled] at completed
    -- What the item adds, and the loop over the rest.
    have finish {added : Path → DirItem → Prop} {middle : Walked}
        (adds : Adds added tree middle.tree)
        (below : item.metadata.kind = .dir → Listable source root (relative.join ⟨item.name⟩))
        (isAdded : ∀ folder other, added folder other ↔ (folder = relative ∧ other = item) ∨
          (item.metadata.kind = .dir ∧ Found source root (relative.join ⟨item.name⟩) folder other))
        (rest : discoverItems true cancel walkInto relative items middle = .ok last) :
        (∀ other ∈ item :: items, other.metadata.kind = .dir →
            Listable source root (relative.join ⟨other.name⟩)) ∧
          Adds (FoundThrough source root relative (item :: items)) tree last.tree := by
      obtain ⟨listable, addsRest⟩ := ih rest
      refine ⟨List.forall_mem_cons.mpr ⟨below, listable⟩, adds.trans addsRest ?_⟩
      intro folder other
      rw [foundThrough_cons, isAdded]
    cases kind : item.metadata.kind with
    | symlink =>
      simp only [kind] at completed
      exact finish (.symlink kind tree) (by simp [kind]) (by simp [kind]) completed
    | file =>
      simp only [kind] at completed
      exact finish (.file kind tree) (by simp [kind]) (by simp [kind]) completed
    | dir =>
      simp only [kind, if_true] at completed
      split at completed
      · cases completed
      · rename_i middle walked
        obtain ⟨listable, adds⟩ := walks _ _ _ walked
        exact finish (.directory kind adds) (fun _ => listable) (by simp [kind]) completed

theorem discoverTreeInto_spec (cancel : Nat → Bool) (fuel : Nat) :
    WalkSpec source root (discoverTreeInto source root true cancel fuel) := by
  induction fuel with
  | zero => exact fun relative before after completed => by cases completed
  | succ fuel ih =>
    intro relative before after completed
    unfold discoverTreeInto at completed
    split at completed
    · cases completed
    · rename_i items listed
      obtain ⟨listable, adds⟩ := discoverItems_spec ih completed
      refine ⟨.intro listed listable, ?_⟩
      have sameItems : Found source root relative = FoundThrough source root relative items := by
        funext folder item
        exact propext (found_iff_foundThrough listed)
      rw [sameItems]
      exact adds

theorem discoverItems_completes {walkInto : Path → Walked → Except (Stop error) Walked}
    {relative : Path} {items : List DirItem}
    (completes : ∀ item ∈ items, item.metadata.kind = .dir → ∀ start,
      ∃ last, walkInto (relative.join ⟨item.name⟩) start = .ok last) (start : Walked) :
    ∃ last, discoverItems true (fun _ => false) walkInto relative items start = .ok last := by
  induction items generalizing start with
  | nil => exact ⟨start, rfl⟩
  | cons item items ih =>
    obtain ⟨tree, checks⟩ := start
    have rest := ih fun other member => completes other (List.mem_cons_of_mem _ member)
    unfold discoverItems
    rw [if_neg Bool.false_ne_true]
    cases kind : item.metadata.kind with
    | symlink => exact rest _
    | file => exact rest _
    | dir =>
      obtain ⟨middle, walked⟩ := completes item List.mem_cons_self kind
        ⟨{ tree with directories := tree.directories ++ [relative.join ⟨item.name⟩] }, checks + 1⟩
      simp only [if_true, walked]
      exact rest middle

/-- A directory that can be listed to its end is walked through, given fuel. -/
theorem Listable.completes {relative : Path} (listable : Listable source root relative) :
    ∃ fuel, ∀ more, fuel ≤ more → ∀ start, ∃ last,
      discoverTreeInto source root true (fun _ => false) more relative start = .ok last := by
  induction listable with
  | @intro relative items listed below ih =>
    obtain ⟨fuel, enough⟩ : ∃ fuel, ∀ item ∈ items, item.metadata.kind = .dir → ∀ more,
        fuel ≤ more → ∀ start, ∃ last, discoverTreeInto source root true (fun _ => false) more
          (relative.join ⟨item.name⟩) start = .ok last := by
      clear listed below
      induction items with
      | nil => exact ⟨0, by simp⟩
      | cons item items ihItems =>
        obtain ⟨fuel, enough⟩ :=
          ihItems fun other member => ih other (List.mem_cons_of_mem _ member)
        by_cases isDir : item.metadata.kind = .dir
        · obtain ⟨own, ownEnough⟩ := ih item List.mem_cons_self isDir
          refine ⟨max own fuel, List.forall_mem_cons.mpr ⟨?_, ?_⟩⟩
          · exact fun _ more atLeast => ownEnough more (by omega)
          · exact fun other member kind more atLeast => enough other member kind more (by omega)
        · exact ⟨fuel, List.forall_mem_cons.mpr ⟨fun kind => absurd kind isDir, enough⟩⟩
    refine ⟨fuel + 1, fun more atLeast start => ?_⟩
    obtain ⟨more, rfl⟩ : ∃ less, more = less + 1 := ⟨more - 1, by omega⟩
    unfold discoverTreeInto
    simp only [listed]
    exact discoverItems_completes (fun item member kind =>
      enough item member kind more (by omega)) start

end

end Porthmos
