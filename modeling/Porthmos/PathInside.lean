import Porthmos.FileSystem
import Porthmos.PathAncestors

/-!
# Paths inside a folder

A path lies inside a folder if it is the folder joined with ordinary names.  An
absolute name replaces the folder it is joined to and `..` leads out of it; any
other name keeps to the folder.
-/

namespace Porthmos

namespace Path

/-- `path` is `base` joined with ordinary names, at least one. -/
def Inside (base path : Path) : Prop :=
  ∃ names : List String, names ≠ [] ∧ path.components = base.components ++ names.map .normal

/-- A listed name that leads to no place outside `base`. -/
def KeepsTo (base name : Path) : Prop :=
  if name.isAbsolute then base.Inside name else Component.parentDir ∉ name.bodyComponents

/-- The name of an entry that stands for a place of its own inside `base`. -/
def NamesEntry (base name : Path) : Prop :=
  if name.isAbsolute then base.Inside name
  else .parentDir ∉ name.bodyComponents ∧ name.bodyComponents ≠ [] ∧
    (base.text = "" → .curDir ∉ name.components)

variable {base path name : Path}

theorem exists_names (noParent : .parentDir ∉ path.bodyComponents) :
    ∃ names : List String, path.bodyComponents = names.map .normal := by
  have named (components : List Component)
      (all : ∀ component ∈ components, ∃ name, component = .normal name) :
      ∃ names : List String, components = names.map .normal := by
    induction components with
    | nil => exact ⟨[], rfl⟩
    | cons component rest ih =>
      obtain ⟨name, rfl⟩ := all component List.mem_cons_self
      obtain ⟨names, rfl⟩ := ih fun other member => all other (List.mem_cons_of_mem _ member)
      exact ⟨name :: names, rfl⟩
  refine named _ fun component member => ?_
  exact (mem_bodyComponents member).resolve_left fun isParent => noParent (isParent ▸ member)

theorem parentDir_not_mem_map (names : List String) :
    Component.parentDir ∉ names.map Component.normal := by
  simp

/-- The first segment of a relative path is a component of its own only if it is
the current directory. -/
theorem components_of_relative (relative : path.isAbsolute = false) :
    path.components = path.bodyComponents ∨ path.components = .curDir :: path.bodyComponents := by
  rw [components, bodyComponents]
  cases split : path.segments with
  | nil => exact Or.inl rfl
  | cons first rest =>
    have joined : ['/'].intercalate path.segments = path.text.toList :=
      List.intercalate_splitOn '/'
    rw [split] at joined
    unfold segmentComponents
    rw [List.filterMap_cons]
    by_cases isEmpty : first = []
    · -- An empty first segment of a relative path is the only one.
      cases rest with
      | nil => simp [isEmpty, leadingComponent, bodyComponent]
      | cons second rest =>
        rw [isEmpty] at joined
        rw [isAbsolute, ← joined] at relative
        simp [List.intercalate] at relative
    · by_cases isCurrent : first = ['.']
      · exact Or.inr (by simp [isCurrent, leadingComponent, bodyComponent])
      · left
        simp only [leadingComponent, if_neg isEmpty, if_neg isCurrent]
        cases bodyComponent first <;> rfl

theorem components_of_empty (empty : path.text = "") : path.components = [] := by
  rw [components, segments, empty]
  decide

theorem Inside.text_ne_empty (inside : base.Inside path) : path.text ≠ "" := by
  obtain ⟨names, notEmpty, isPath⟩ := inside
  intro empty
  rw [components_of_empty empty] at isPath
  have noNames := (List.append_eq_nil_iff.mp isPath.symm).2
  exact notEmpty (List.map_eq_nil_iff.mp noNames)

/-- From a place inside the folder a name leads to another one exactly if it keeps
to the folder. -/
theorem Inside.join_iff (inside : base.Inside path) :
    base.Inside (path.join name) ↔ base.KeepsTo name := by
  unfold KeepsTo
  cases absolute : name.isAbsolute with
  | true => rw [join_of_isAbsolute absolute, if_pos rfl]
  | false =>
    rw [if_neg Bool.false_ne_true]
    have joined := components_join inside.text_ne_empty absolute
    obtain ⟨names, notEmpty, isPath⟩ := inside
    rw [isPath, List.append_assoc] at joined
    constructor
    · rintro ⟨all, _, isJoined⟩
      rw [joined, List.append_cancel_left_eq] at isJoined
      intro member
      have inAll : Component.parentDir ∈ all.map Component.normal := by
        rw [← isJoined]
        exact List.mem_append_right _ member
      exact parentDir_not_mem_map all inAll
    · intro noParent
      obtain ⟨more, isMore⟩ := exists_names noParent
      refine ⟨names ++ more, by simp [notEmpty], ?_⟩
      rw [joined, isMore, List.map_append]

theorem exists_names_iff : (∃ names : List String, names ≠ [] ∧
    path.bodyComponents = names.map .normal) ↔
      .parentDir ∉ path.bodyComponents ∧ path.bodyComponents ≠ [] := by
  constructor
  · rintro ⟨names, notEmpty, isBody⟩
    rw [isBody]
    exact ⟨parentDir_not_mem_map names, by simpa using notEmpty⟩
  · rintro ⟨noParent, notEmpty⟩
    obtain ⟨names, isBody⟩ := exists_names noParent
    refine ⟨names, ?_, isBody⟩
    rintro rfl
    exact notEmpty isBody

/-- The join of the folder itself with a name lies inside it exactly if the name is
that of an entry. -/
theorem inside_join_iff : base.Inside (base.join name) ↔ base.NamesEntry name := by
  unfold NamesEntry
  cases absolute : name.isAbsolute with
  | true => rw [join_of_isAbsolute absolute, if_pos rfl]
  | false =>
    rw [if_neg Bool.false_ne_true]
    by_cases empty : base.text = ""
    · rw [join_of_empty empty, Inside, components_of_empty empty]
      simp only [List.nil_append, empty, forall_const]
      have noCurrent : Component.curDir ∉ name.bodyComponents := fun member => by
        rcases mem_bodyComponents member with isParent | ⟨_, isNormal⟩
        · cases isParent
        · cases isNormal
      rcases components_of_relative absolute with same | current
      · rw [same, exists_names_iff]
        simp [noCurrent]
      · rw [current]
        refine iff_of_false ?_ fun ⟨_, _, noCurrent⟩ => noCurrent List.mem_cons_self
        rintro ⟨names, _, isName⟩
        have member : Component.curDir ∈ names.map Component.normal := by
          rw [← isName]
          exact List.mem_cons_self
        simp at member
    · rw [Inside, components_join empty absolute]
      simp only [List.append_cancel_left_eq, exists_names_iff, empty, false_implies, and_true]

/-- The part file of a place inside the folder lies inside it as well. -/
theorem Inside.partPath (inside : base.Inside path) : base.Inside (partPath path) := by
  obtain ⟨names, notEmpty, isPath⟩ := inside
  obtain ⟨initial, last, split, pushed⟩ := components_pushText path
  have isPart := pushed partSuffix (by decide) (by decide)
  rw [components, split, segmentComponents_append_singleton] at isPath
  obtain ⟨before, name, rfl⟩ : ∃ before name, names = before ++ [name] :=
    ⟨names.dropLast, names.getLast notEmpty, (List.dropLast_append_getLast notEmpty).symm⟩
  -- The last segment is the last name, or it is blank and the suffix names a new one.
  obtain ⟨more, isBefore⟩ : ∃ more : List String,
      leadingComponents initial = base.components ++ more.map .normal := by
    rw [List.map_append, List.map_singleton, ← List.append_assoc] at isPath
    split_ifs at isPath with isNil
    · refine ⟨before, ?_⟩
      rw [isNil, leadingComponents]
      cases found : leadingComponent last false with
      | none => simp [found] at isPath
      | some component =>
        rw [found, Option.toList_some, ← List.nil_append [component]] at isPath
        exact (List.append_inj' isPath rfl).1
    · cases found : bodyComponent last with
      | none =>
        rw [found, Option.toList_none, List.append_nil] at isPath
        exact ⟨before ++ [name], by simp [isPath]⟩
      | some component =>
        rw [found, Option.toList_some] at isPath
        exact ⟨before, (List.append_inj' isPath rfl).1⟩
  refine ⟨more ++ [String.ofList (last ++ partSuffix.toList)], by simp, ?_⟩
  rw [Porthmos.partPath, isPart, isBefore, List.append_assoc, List.map_append, List.map_singleton]

theorem components_join_join {base middle last : Path} (notEmpty : base.text ≠ "") :
    (base.join (middle.join last)).components = ((base.join middle).join last).components := by
  cases lastAbsolute : last.isAbsolute with
  | true => rw [join_of_isAbsolute lastAbsolute, join_of_isAbsolute lastAbsolute,
      join_of_isAbsolute lastAbsolute]
  | false =>
    cases middleAbsolute : middle.isAbsolute with
    | true =>
      have joined : (middle.join last).isAbsolute = true := by
        rw [isAbsolute_join, middleAbsolute, Bool.or_true]
      rw [join_of_isAbsolute joined, join_of_isAbsolute middleAbsolute]
    | false =>
      have joined : (middle.join last).isAbsolute = false := by
        rw [isAbsolute_join, middleAbsolute, lastAbsolute, Bool.or_false]
      rw [components_join notEmpty joined, components_join (text_join_ne_empty notEmpty)
        lastAbsolute, components_join notEmpty middleAbsolute, bodyComponents_join lastAbsolute,
        List.append_assoc]

/-- Joining a root with names appends them to its components. -/
theorem components_join_names {root path : Path} {names : List String}
    (isPath : path.components = names.map .normal) :
    (root.join path).components = root.components ++ names.map .normal := by
  have relative : path.isAbsolute = false := by
    cases absolute : path.isAbsolute with
    | false => rfl
    | true =>
      have notEmpty := text_ne_empty_of_isAbsolute absolute
      have segments := rootSegments_append_bodySegments path
      rw [absolute] at segments
      have isRoot : Component.rootDir ∈ path.components := by
        rw [components_eq_leadingComponents notEmpty, ← segments]
        exact List.mem_cons_self
      simp [isPath] at isRoot
  by_cases empty : root.text = ""
  · rw [join_of_empty empty, components_of_empty empty, List.nil_append, isPath]
  · rw [components_join empty relative]
    rcases components_of_relative relative with same | current
    · rw [← same, isPath]
    · have isCurrent : Component.curDir ∈ path.components := current ▸ List.mem_cons_self
      simp [isPath] at isCurrent

theorem inside_congr {first second : Path} (same : first.components = second.components) :
    base.Inside first ↔ base.Inside second := by
  rw [Inside, Inside, same]

/-- From a folder joined to a place inside, a name leads to another place inside
exactly if it keeps to the folder. -/
theorem Inside.join_join_iff {folder : Path} (inside : base.Inside path)
    (folderInside : base.Inside (path.join folder)) :
    base.Inside (path.join (folder.join name)) ↔ base.KeepsTo name :=
  (inside_congr (components_join_join inside.text_ne_empty)).trans folderInside.join_iff

end Path

end Porthmos
