import Mathlib.Data.Prod.Lex
import Mathlib.Data.String.Basic
import Porthmos.Path

/-!
# Ancestors of a path

The ancestors of a path are found by asking for the parent again and again.  In
terms of components they are its prefixes, and the order of paths, which goes by
components, puts every ancestor before the path.
-/

namespace Porthmos

/-- The order of components is that of their kinds, then that of their names. -/
def Component.rank : Component → Nat ×ₗ String
  | .rootDir => toLex (0, "")
  | .curDir => toLex (1, "")
  | .parentDir => toLex (2, "")
  | .normal name => toLex (3, name)

theorem Component.rank_injective : Function.Injective Component.rank := by
  intro first second same
  cases first <;> cases second <;> simp_all [rank]

instance : LinearOrder Component := LinearOrder.lift' Component.rank Component.rank_injective

theorem lt_append_of_ne_nil {initial more : List Component} (notEmpty : more ≠ []) :
    initial < initial ++ more := by
  induction initial with
  | nil =>
    cases more with
    | nil => exact absurd rfl notEmpty
    | cons component rest => exact List.Lex.nil
  | cons component rest ih => exact List.Lex.cons ih

namespace Path

/-- `Path::ancestors`, as far as a number of parents goes. -/
def ancestorsWithin : Nat → Path → List Path
  | 0, path => [path]
  | fuel + 1, path =>
    path :: match path.parent with
      | none => []
      | some parent => ancestorsWithin fuel parent

/-- `Path::ancestors`: a path has no more parents than components. -/
def ancestors (path : Path) : List Path := ancestorsWithin path.components.length path

/-- `ancestors().skip(1)` -/
def properAncestors (path : Path) : List Path := path.ancestors.tail

example : (Path.mk "/a//b/.").ancestors = [⟨"/a//b/."⟩, ⟨"/a"⟩, ⟨"/"⟩] := by decide

example : (Path.mk "./a/b").ancestors = [⟨"./a/b"⟩, ⟨"./a"⟩, ⟨"."⟩, ⟨""⟩] := by decide

/-! ### Parents -/

/-- The segment in front of the separator that makes a path absolute. -/
def rootSegments (absolute : Bool) : List (List Char) := if absolute then [[]] else []

theorem leadingComponents_append_singleton {initial : List (List Char)} (last : List Char)
    (notEmpty : initial ≠ []) :
    leadingComponents (initial ++ [last]) =
      leadingComponents initial ++ (bodyComponent last).toList := by
  cases initial with
  | nil => exact absurd rfl notEmpty
  | cons first rest =>
    simp only [List.cons_append, leadingComponents, List.filterMap_append, List.append_assoc]
    cases found : bodyComponent last <;> simp [found]

/-- The body of a relative path starts with a segment that is not empty. -/
def StartsFilled (absolute : Bool) (reversed : List (List Char)) : Prop :=
  absolute = false → reversed.getLast? ≠ some []

theorem StartsFilled.tail {absolute : Bool} {segment : List Char} {before : List (List Char)}
    (filled : StartsFilled absolute (segment :: before)) : StartsFilled absolute before := by
  intro relative isLast
  apply filled relative
  cases before with
  | nil => simp at isLast
  | cons next rest => rwa [List.getLast?_cons_cons]

theorem dropBlank_cons (absolute : Bool) (segment : List Char) (before : List (List Char)) :
    dropBlank absolute (segment :: before) =
      if segment = [] ∨ (segment = ['.'] ∧ (absolute ∨ before ≠ [])) then
        dropBlank absolute before
      else segment :: before :=
  rfl

/-- Blank segments at the end stand for nothing. -/
theorem leadingComponents_dropBlank {absolute : Bool} (reversed : List (List Char))
    (filled : StartsFilled absolute reversed) :
    leadingComponents (rootSegments absolute ++ (dropBlank absolute reversed).reverse) =
      leadingComponents (rootSegments absolute ++ reversed.reverse) := by
  induction reversed with
  | nil => rfl
  | cons segment before ih =>
    rw [dropBlank_cons]
    split_ifs with blank
    · rw [ih filled.tail, List.reverse_cons, ← List.append_assoc]
      have notEmpty : rootSegments absolute ++ before.reverse ≠ [] := by
        intro isNil
        obtain ⟨noRoot, isFirst⟩ := List.append_eq_nil_iff.mp isNil
        have relative : absolute = false := by
          cases absolute
          · rfl
          · simp [rootSegments] at noRoot
        have first : before = [] := List.reverse_eq_nil_iff.mp isFirst
        rcases blank with isBlank | ⟨_, isAbsolute | hasBefore⟩
        · exact filled relative (by simp [first, isBlank])
        · simp [relative] at isAbsolute
        · exact hasBefore first
      rw [leadingComponents_append_singleton _ notEmpty]
      have noComponent : bodyComponent segment = none := by
        unfold bodyComponent
        rw [if_pos (blank.imp_right And.left)]
      simp [noComponent]
    · rfl

/-- The segment that dropping blanks stops at is a component. -/
theorem leadingComponents_of_dropBlank {absolute : Bool} {reversed before : List (List Char)}
    {segment : List Char} (dropped : dropBlank absolute reversed = segment :: before) :
    ∃ component ≠ .rootDir,
      leadingComponents (rootSegments absolute ++ (segment :: before).reverse) =
        leadingComponents (rootSegments absolute ++ before.reverse) ++ [component] := by
  have notBlank : ¬ (segment = [] ∨ (segment = ['.'] ∧ (absolute ∨ before ≠ []))) := by
    induction reversed with
    | nil => cases dropped
    | cons first rest ih =>
      rw [dropBlank_cons] at dropped
      split_ifs at dropped with blank
      · exact ih dropped
      · cases dropped
        exact blank
  obtain ⟨filled, notCurrent⟩ := not_or.mp notBlank
  rw [List.reverse_cons, ← List.append_assoc]
  by_cases isNil : rootSegments absolute ++ before.reverse = []
  · rw [isNil]
    obtain ⟨component, found⟩ := Option.isSome_iff_exists.mp (leadingComponent_isSome segment)
    refine ⟨component, ?_, by simp [leadingComponents, found]⟩
    rintro rfl
    unfold leadingComponent bodyComponent at found
    simp only [filled, if_false] at found
    split_ifs at found <;> simp_all
  · rw [leadingComponents_append_singleton _ isNil]
    have notDot : segment ≠ ['.'] := by
      intro isDot
      refine notCurrent ⟨isDot, ?_⟩
      cases absolute with
      | true => exact Or.inl rfl
      | false =>
        right
        rintro rfl
        exact isNil rfl
    unfold bodyComponent
    rw [if_neg (by simp [filled, notDot])]
    split_ifs
    · exact ⟨.parentDir, by simp, rfl⟩
    · exact ⟨.normal _, by simp, rfl⟩

theorem dropBlank_sublist (absolute : Bool) (reversed : List (List Char)) :
    (dropBlank absolute reversed).Sublist reversed := by
  induction reversed with
  | nil => exact .slnil
  | cons segment before ih =>
    rw [dropBlank_cons]
    split_ifs
    · exact ih.cons _
    · exact .refl _

theorem StartsFilled.dropBlank {absolute : Bool} {reversed : List (List Char)}
    (filled : StartsFilled absolute reversed) :
    StartsFilled absolute (dropBlank absolute reversed) := by
  induction reversed with
  | nil => exact filled
  | cons segment before ih =>
    rw [dropBlank_cons]
    split_ifs
    · exact ih filled.tail
    · exact filled

/-- A text without separators in its segments is read back as these segments. -/
theorem components_of_segments {absolute : Bool} {kept : List (List Char)}
    (plain : ∀ segment ∈ kept, '/' ∉ segment) (filled : StartsFilled absolute kept.reverse) :
    (Path.mk ((if absolute then "/" else "") ++ String.ofList (['/'].intercalate kept))).components =
      leadingComponents (rootSegments absolute ++ kept) := by
  cases kept with
  | nil => cases absolute <;> decide
  | cons first rest =>
    have split : (['/'].intercalate (first :: rest)).splitOn '/' = first :: rest :=
      List.splitOn_intercalate '/' plain (by simp)
    have isSegments : Path.segments ⟨(if absolute then "/" else "") ++
        String.ofList (['/'].intercalate (first :: rest))⟩ =
          rootSegments absolute ++ first :: rest := by
      rw [segments, String.toList_append, String.toList_ofList]
      cases absolute with
      | true => simp [rootSegments, List.splitOn_cons_eq_if_modifyHead, split]
      | false => simpa [rootSegments] using split
    rw [components_eq_leadingComponents, isSegments]
    intro empty
    have noText : Path.segments ⟨(if absolute then "/" else "") ++
        String.ofList (['/'].intercalate (first :: rest))⟩ = [[]] := by
      rw [segments, empty]
      rfl
    rw [isSegments] at noText
    cases absolute with
    | true => simp [rootSegments] at noText
    | false =>
      obtain ⟨rfl, rfl⟩ : first = [] ∧ rest = [] := by simpa [rootSegments] using noText
      exact filled rfl rfl

/-- The segments of a path behind the separator that makes it absolute. -/
def bodySegments (path : Path) : List (List Char) :=
  if path.isAbsolute then path.segments.tail else path.segments

theorem rootSegments_append_bodySegments (path : Path) :
    rootSegments path.isAbsolute ++ path.bodySegments = path.segments := by
  unfold bodySegments rootSegments
  cases absolute : path.isAbsolute with
  | false => rfl
  | true =>
    obtain ⟨rest, isText⟩ : ∃ rest, path.text.toList = '/' :: rest := by
      cases isText : path.text.toList with
      | nil => simp [isAbsolute, isText] at absolute
      | cons first rest => exact ⟨rest, by simpa [isAbsolute, isText] using absolute⟩
    simp [segments, isText, List.splitOn_cons_eq_if_modifyHead]

theorem not_mem_of_mem_segments {path : Path} {segment : List Char}
    (member : segment ∈ path.segments) : '/' ∉ segment := by
  unfold segments at member
  generalize path.text.toList = text at member
  induction text generalizing segment with
  | nil => simp_all
  | cons char text ih =>
    rw [List.splitOn_cons_eq_if_modifyHead] at member
    split_ifs at member with separator
    · rcases List.mem_cons.mp member with rfl | later
      · simp
      · exact ih later
    · cases split : text.splitOn '/' with
      | nil => exact absurd split (List.splitOn_ne_nil _ _)
      | cons first rest =>
        rw [split, List.modifyHead_cons] at member
        rcases List.mem_cons.mp member with rfl | later
        · intro inSegment
          rcases List.mem_cons.mp inSegment with same | inFirst
          · exact separator (by simp [← same])
          · exact ih (by simp [split] : first ∈ text.splitOn '/') inFirst
        · exact ih (by simp [split, later])

theorem mem_segments_of_mem_bodySegments {path : Path} {segment : List Char}
    (member : segment ∈ path.bodySegments) : segment ∈ path.segments := by
  rw [← rootSegments_append_bodySegments]
  exact List.mem_append_right _ member

theorem startsFilled_bodySegments {path : Path} (notEmpty : path.text ≠ "") :
    StartsFilled path.isAbsolute path.bodySegments.reverse := by
  intro relative isLast
  have joined : ['/'].intercalate path.segments = path.text.toList := List.intercalate_splitOn '/'
  rw [bodySegments, relative, List.getLast?_reverse] at isLast
  cases split : path.segments with
  | nil => simp [split] at isLast
  | cons first rest =>
    obtain rfl : first = [] := by simpa [split] using isLast
    rw [split] at joined
    cases rest with
    | nil => exact notEmpty (String.toList_inj.mp joined.symm)
    | cons second rest =>
      rw [isAbsolute, ← joined] at relative
      simp [List.intercalate] at relative

theorem parent_of_nil {path : Path}
    (dropped : dropBlank path.isAbsolute path.bodySegments.reverse = []) : path.parent = none := by
  unfold bodySegments at dropped
  unfold Path.parent
  dsimp only
  rw [dropped]

theorem parent_of_cons {path : Path} {segment : List Char} {before : List (List Char)}
    (dropped : dropBlank path.isAbsolute path.bodySegments.reverse = segment :: before) :
    path.parent = some ⟨(if path.isAbsolute then "/" else "") ++
      String.ofList (['/'].intercalate (dropBlank path.isAbsolute before).reverse)⟩ := by
  unfold bodySegments at dropped
  unfold Path.parent
  dsimp only
  rw [dropped]

/-- The parent has the components of the path but the last one, which is not the
root. -/
theorem components_eq_of_parent {path parent : Path} (found : path.parent = some parent) :
    ∃ component ≠ .rootDir, path.components = parent.components ++ [component] := by
  have notEmpty : path.text ≠ "" := by
    intro empty
    obtain ⟨text⟩ := path
    obtain rfl : text = "" := empty
    revert found
    decide +revert
  have filled := startsFilled_bodySegments notEmpty
  have whole := leadingComponents_dropBlank _ filled
  rw [List.reverse_reverse, rootSegments_append_bodySegments,
    ← components_eq_leadingComponents notEmpty] at whole
  cases dropped : dropBlank path.isAbsolute path.bodySegments.reverse with
  | nil =>
    rw [parent_of_nil dropped] at found
    cases found
  | cons segment before =>
    rw [parent_of_cons dropped, Option.some.injEq] at found
    obtain ⟨component, notRoot, isLast⟩ := leadingComponents_of_dropBlank dropped
    rw [dropped, isLast] at whole
    have tailFilled : StartsFilled path.isAbsolute before := by
      have keptFilled := filled.dropBlank
      rw [dropped] at keptFilled
      exact keptFilled.tail
    have plain : ∀ kept ∈ (dropBlank path.isAbsolute before).reverse, '/' ∉ kept := by
      intro kept member
      have inBefore := (dropBlank_sublist _ before).subset (List.mem_reverse.mp member)
      have inDropped : kept ∈ dropBlank path.isAbsolute path.bodySegments.reverse := by
        rw [dropped]
        exact List.mem_cons_of_mem _ inBefore
      have inBody := (dropBlank_sublist _ _).subset inDropped
      exact not_mem_of_mem_segments (mem_segments_of_mem_bodySegments (List.mem_reverse.mp inBody))
    have isParent := components_of_segments plain
      (by rw [List.reverse_reverse]; exact tailFilled.dropBlank)
    rw [leadingComponents_dropBlank _ tailFilled] at isParent
    exact ⟨component, notRoot, by rw [← whole, ← found, isParent]⟩

theorem components_parent {path parent : Path} (found : path.parent = some parent) :
    path.components ≠ [] ∧ parent.components = path.components.dropLast := by
  obtain ⟨component, _, isPath⟩ := components_eq_of_parent found
  exact ⟨by simp [isPath], by simp [isPath]⟩

theorem components_of_parent_eq_none {path : Path} (noParent : path.parent = none) :
    path.components = [] ∨ path.components = [.rootDir] := by
  by_cases notEmpty : path.text = ""
  · left
    obtain ⟨text⟩ := path
    obtain rfl : text = "" := notEmpty
    decide
  · have whole := leadingComponents_dropBlank _ (startsFilled_bodySegments notEmpty)
    rw [List.reverse_reverse, rootSegments_append_bodySegments,
      ← components_eq_leadingComponents notEmpty] at whole
    cases dropped : dropBlank path.isAbsolute path.bodySegments.reverse with
    | cons segment before =>
      rw [parent_of_cons dropped] at noParent
      cases noParent
    | nil =>
      rw [dropped] at whole
      rw [← whole]
      cases path.isAbsolute with
      | false => exact Or.inl rfl
      | true => exact Or.inr rfl

/-! ### Ancestors -/

@[simp]
theorem ancestorsWithin_zero (path : Path) : ancestorsWithin 0 path = [path] :=
  rfl

theorem ancestorsWithin_of_parent {path parent : Path} (fuel : Nat)
    (found : path.parent = some parent) :
    ancestorsWithin (fuel + 1) path = path :: ancestorsWithin fuel parent := by
  rw [ancestorsWithin, found]

theorem ancestorsWithin_of_none {path : Path} (fuel : Nat) (noParent : path.parent = none) :
    ancestorsWithin (fuel + 1) path = [path] := by
  rw [ancestorsWithin, noParent]

theorem properAncestors_of_parent {path parent : Path} (found : path.parent = some parent) :
    path.properAncestors = parent.ancestors := by
  obtain ⟨component, _, isPath⟩ := components_eq_of_parent found
  have count : path.components.length = parent.components.length + 1 := by simp [isPath]
  rw [properAncestors, ancestors, count, ancestorsWithin_of_parent _ found, List.tail_cons,
    ancestors]

theorem properAncestors_of_none {path : Path} (noParent : path.parent = none) :
    path.properAncestors = [] := by
  rw [properAncestors, ancestors]
  cases path.components.length with
  | zero => rfl
  | succ fuel => simp [ancestorsWithin_of_none, noParent]

theorem ancestors_eq_cons (path : Path) : path.ancestors = path :: path.properAncestors := by
  rw [properAncestors, ancestors]
  cases path.components.length <;> rfl

theorem properAncestors_subset {path middle : Path} (above : middle ∈ path.properAncestors) :
    middle.properAncestors ⊆ path.properAncestors := by
  generalize count : path.components.length = length
  induction length generalizing path with
  | zero => simp [properAncestors, ancestors, count] at above
  | succ length ih =>
    cases found : path.parent with
    | none => simp [properAncestors_of_none found] at above
    | some parent =>
      rw [properAncestors_of_parent found, ancestors_eq_cons] at above ⊢
      rcases List.mem_cons.mp above with rfl | farAbove
      · exact List.subset_cons_self _ _
      · have shorter : parent.components.length = length := by
          rw [(components_parent found).2, List.length_dropLast, count, Nat.add_sub_cancel]
        exact List.Subset.trans (ih farAbove shorter) (List.subset_cons_self _ _)

theorem components_of_mem_ancestorsWithin {fuel : Nat} {path ancestor : Path}
    (member : ancestor ∈ ancestorsWithin fuel path) :
    ancestor.components <+: path.components := by
  induction fuel generalizing path with
  | zero =>
    obtain rfl := List.mem_singleton.mp member
    exact List.prefix_rfl
  | succ fuel ih =>
    rcases List.mem_cons.mp member with rfl | above
    · exact List.prefix_rfl
    · cases found : path.parent with
      | none => simp [found] at above
      | some parent =>
        rw [found] at above
        have isPrefix := ih above
        rw [(components_parent found).2] at isPrefix
        exact isPrefix.trans (List.dropLast_prefix _)

theorem rootDir_not_mem_of_ancestor {fuel : Nat} {path ancestor : Path}
    (member : ancestor ∈ ancestorsWithin fuel path) (empty : ancestor.components = []) :
    .rootDir ∉ path.components := by
  induction fuel generalizing path with
  | zero => simp [← List.mem_singleton.mp member, empty]
  | succ fuel ih =>
    rcases List.mem_cons.mp member with rfl | above
    · simp [empty]
    · cases found : path.parent with
      | none => simp [found] at above
      | some parent =>
        rw [found] at above
        obtain ⟨component, notRoot, isPath⟩ := components_eq_of_parent found
        simp [isPath, ih above, notRoot.symm]

theorem components_of_mem_properAncestors {path ancestor : Path}
    (member : ancestor ∈ path.properAncestors) :
    ancestor.components <+: path.components ∧ ancestor.components ≠ path.components := by
  unfold properAncestors ancestors at member
  cases count : path.components.length with
  | zero => simp [count] at member
  | succ fuel =>
    rw [count] at member
    cases found : path.parent with
    | none => simp [ancestorsWithin_of_none, found] at member
    | some parent =>
      rw [ancestorsWithin_of_parent _ found, List.tail_cons] at member
      obtain ⟨notEmpty, isParent⟩ := components_parent found
      have isPrefix := components_of_mem_ancestorsWithin member
      have shorter := isPrefix.length_le
      rw [isParent] at isPrefix shorter
      refine ⟨isPrefix.trans (List.dropLast_prefix _), fun same => ?_⟩
      rw [same, List.length_dropLast] at shorter
      omega

/-- Every shorter prefix of the components is that of a proper ancestor, unless it is
empty and the path is absolute. -/
theorem exists_mem_ancestorsWithin {fuel : Nat} {path : Path} {initial : List Component}
    (enough : path.components.length ≤ initial.length + fuel)
    (isPrefix : initial <+: path.components)
    (named : initial = [] → .rootDir ∉ path.components) :
    ∃ ancestor ∈ ancestorsWithin fuel path, ancestor.components = initial := by
  induction fuel generalizing path with
  | zero => exact ⟨path, List.mem_singleton_self _, (isPrefix.eq_of_length_le enough).symm⟩
  | succ fuel ih =>
    by_cases same : path.components = initial
    · exact ⟨path, List.mem_cons_self, same⟩
    · cases found : path.parent with
      | none =>
        rcases components_of_parent_eq_none found with empty | root
        · rw [empty, List.prefix_nil] at isPrefix
          exact absurd (isPrefix ▸ empty) same
        · rw [root] at isPrefix same named
          cases initial with
          | nil => exact absurd (named rfl) (by simp)
          | cons first rest => exact absurd (isPrefix.eq_of_length_le (by simp)).symm same
      | some parent =>
        obtain ⟨notEmpty, isParent⟩ := components_parent found
        have shorter : initial <+: parent.components := by
          obtain ⟨more, isWhole⟩ := isPrefix
          have hasMore : more ≠ [] := by
            rintro rfl
            exact same (by simp [← isWhole])
          rw [isParent, ← isWhole, List.dropLast_append_of_ne_nil hasMore]
          exact List.prefix_append _ _
        have parentEnough : parent.components.length ≤ initial.length + fuel := by
          rw [isParent, List.length_dropLast]
          omega
        obtain ⟨ancestor, member, isInitial⟩ := ih parentEnough shorter
          fun empty inParent => named empty (List.dropLast_subset _ (by rwa [isParent] at inParent))
        refine ⟨ancestor, ?_, isInitial⟩
        rw [ancestorsWithin_of_parent _ found]
        exact List.mem_cons_of_mem _ member

/-- The proper ancestors of a path are the shorter prefixes of its components; an
absolute path has no empty one. -/
theorem exists_mem_properAncestors_iff {path : Path} {initial : List Component} :
    (∃ ancestor ∈ path.properAncestors, ancestor.components = initial) ↔
      initial <+: path.components ∧ initial ≠ path.components ∧
        (initial = [] → .rootDir ∉ path.components) := by
  constructor
  · rintro ⟨ancestor, member, rfl⟩
    obtain ⟨isPrefix, shorter⟩ := components_of_mem_properAncestors member
    exact ⟨isPrefix, shorter, rootDir_not_mem_of_ancestor (List.mem_of_mem_tail member)⟩
  · rintro ⟨isPrefix, shorter, named⟩
    have enough : path.components.length ≤ initial.length + path.components.length := by omega
    obtain ⟨ancestor, member, isInitial⟩ := exists_mem_ancestorsWithin enough isPrefix named
    refine ⟨ancestor, ?_, isInitial⟩
    cases count : path.components.length with
    | zero =>
      rw [count] at member
      rw [List.mem_singleton.mp member] at isInitial
      exact absurd isInitial.symm shorter
    | succ fuel =>
      rw [count] at member
      rw [properAncestors, ancestors, count]
      rcases List.mem_cons.mp member with rfl | above
      · exact absurd isInitial.symm shorter
      · exact above

theorem exists_mem_properAncestors_congr {path other ancestor : Path}
    (same : path.components = other.components) (above : ancestor ∈ path.properAncestors) :
    ∃ found ∈ other.properAncestors, found.components = ancestor.components :=
  exists_mem_properAncestors_iff.mpr
    (same ▸ exists_mem_properAncestors_iff.mp ⟨ancestor, above, rfl⟩)

end Path

end Porthmos
