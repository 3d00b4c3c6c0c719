import Mathlib.Data.List.Basic

/-!
# Unix paths

A path is its text, as in `std::path`.  Two texts name the same path when they
have the same components: repeated and trailing separators and inner `.`
segments do not count, while `..` is kept.  Joining works on the text and lets
an absolute right-hand side replace the left one.
-/

namespace Porthmos

/-- One component of a path. -/
inductive Component
  | rootDir
  | curDir
  | parentDir
  | normal (name : String)
  deriving DecidableEq, Repr

/-- The text of a path. -/
structure Path where
  text : String
  deriving DecidableEq, Repr

namespace Path

/-- The component a segment between two separators stands for, anywhere but at
the start of the text. -/
def bodyComponent (segment : List Char) : Option Component :=
  if segment = [] ∨ segment = ['.'] then none
  else if segment = ['.', '.'] then some .parentDir
  else some (.normal (String.ofList segment))

/-- The component of the first segment; `hasRest` tells whether a separator
follows it. -/
def leadingComponent (segment : List Char) (hasRest : Bool) : Option Component :=
  if segment = [] then if hasRest then some .rootDir else none
  else if segment = ['.'] then some .curDir
  else bodyComponent segment

def segmentComponents : List (List Char) → List Component
  | [] => []
  | first :: rest =>
    (leadingComponent first !rest.isEmpty).toList ++ rest.filterMap bodyComponent

def segments (path : Path) : List (List Char) := path.text.toList.splitOn '/'

def components (path : Path) : List Component := segmentComponents path.segments

def isAbsolute (path : Path) : Bool := path.text.toList.head? = some '/'

def endsWithSeparator (path : Path) : Bool := path.text.toList.getLast? = some '/'

/-- `Path::join` -/
def join (base other : Path) : Path :=
  if other.isAbsolute then other
  else if base.text = "" ∨ base.endsWithSeparator then ⟨base.text ++ other.text⟩
  else ⟨base.text ++ "/" ++ other.text⟩

/-- Append to the text itself, as `OsString::push` does. -/
def pushText (path : Path) (suffix : String) : Path := ⟨path.text ++ suffix⟩

/-- `Path::file_name` -/
def fileName (path : Path) : Option String :=
  match path.components.getLast? with
  | some (.normal name) => some name
  | _ => none

/-- Drop the segments at the end that are no component.  The list is reversed
and leaves out the empty segment before a root. -/
def dropBlank (absolute : Bool) : List (List Char) → List (List Char)
  | [] => []
  | segment :: before =>
    if segment = [] ∨ (segment = ['.'] ∧ (absolute ∨ before ≠ [])) then
      dropBlank absolute before
    else segment :: before

/-- `Path::parent` -/
def parent (path : Path) : Option Path :=
  let absolute := path.isAbsolute
  let body := if absolute then path.segments.tail else path.segments
  match dropBlank absolute body.reverse with
  | [] => none
  | _ :: before =>
    let kept := ['/'].intercalate (dropBlank absolute before).reverse
    some ⟨(if absolute then "/" else "") ++ String.ofList kept⟩

/-- `Path::with_file_name` -/
def withFileName (path : Path) (name : String) : Path :=
  match path.fileName, path.parent with
  | some _, some parent => parent.join ⟨name⟩
  | _, _ => path.join ⟨name⟩

example : (Path.mk "/a//b/./c/").components = [.rootDir, .normal "a", .normal "b", .normal "c"] := by
  decide

example : (Path.mk "/a//b/./c/").parent = some ⟨"/a//b"⟩ := by decide

example : ((Path.mk "/dl").join ⟨"../x"⟩).components = [.rootDir, .normal "dl", .parentDir, .normal "x"] := by
  decide

/-! ### Appending to the last segment -/

/-- The components of everything before the last segment. -/
def leadingComponents : List (List Char) → List Component
  | [] => []
  | first :: rest => (leadingComponent first true).toList ++ rest.filterMap bodyComponent

theorem leadingComponent_isSome (segment : List Char) :
    (leadingComponent segment true).isSome = true := by
  unfold leadingComponent bodyComponent
  split_ifs <;> simp_all

theorem leadingComponents_eq_nil_iff {initial : List (List Char)} :
    leadingComponents initial = [] ↔ initial = [] := by
  cases initial with
  | nil => simp [leadingComponents]
  | cons first rest =>
    have present := leadingComponent_isSome first
    obtain ⟨component, found⟩ := Option.isSome_iff_exists.mp present
    simp [leadingComponents, found]

theorem segmentComponents_append_singleton (initial : List (List Char)) (last : List Char) :
    segmentComponents (initial ++ [last]) =
      if initial = [] then (leadingComponent last false).toList
      else leadingComponents initial ++ (bodyComponent last).toList := by
  cases initial with
  | nil => simp [segmentComponents]
  | cons first rest =>
    have single : List.filterMap bodyComponent [last] = (bodyComponent last).toList := by
      cases found : bodyComponent last <;> simp [found]
    have more : (rest ++ [last]).isEmpty = false := by simp
    simp [segmentComponents, leadingComponents, List.filterMap_append, single, more]

/-- Text without a separator extends the last segment. -/
theorem splitOn_append_of_not_mem (text : List Char) :
    ∃ initial last, text.splitOn '/' = initial ++ [last] ∧
      ∀ suffix, '/' ∉ suffix → (text ++ suffix).splitOn '/' = initial ++ [last ++ suffix] := by
  induction text with
  | nil =>
    refine ⟨[], [], by simp, ?_⟩
    intro suffix noSeparator
    simpa using List.splitOn_eq_singleton noSeparator
  | cons char text ih =>
    obtain ⟨initial, last, split, extended⟩ := ih
    by_cases separator : char = '/'
    · refine ⟨[] :: initial, last, ?_, ?_⟩
      · simp [List.splitOn_cons_eq_if_modifyHead, separator, split]
      · intro suffix noSeparator
        simp [List.splitOn_cons_eq_if_modifyHead, separator, extended suffix noSeparator]
    · cases initial with
      | nil =>
        refine ⟨[], char :: last, ?_, ?_⟩
        · simp [List.splitOn_cons_eq_if_modifyHead, separator, split]
        · intro suffix noSeparator
          simp [List.splitOn_cons_eq_if_modifyHead, separator, extended suffix noSeparator]
      | cons first rest =>
        refine ⟨(char :: first) :: rest, last, ?_, ?_⟩
        · simp [List.splitOn_cons_eq_if_modifyHead, separator, split]
        · intro suffix noSeparator
          simp [List.splitOn_cons_eq_if_modifyHead, separator, extended suffix noSeparator]

theorem bodyComponent_of_two_lt {segment : List Char} (long : 2 < segment.length) :
    bodyComponent segment = some (.normal (String.ofList segment)) := by
  unfold bodyComponent
  split_ifs with blank parent
  · rcases blank with rfl | rfl <;> simp at long
  · subst parent
    simp at long
  · rfl

theorem leadingComponent_of_two_lt {segment : List Char} (hasRest : Bool)
    (long : 2 < segment.length) :
    leadingComponent segment hasRest = some (.normal (String.ofList segment)) := by
  unfold leadingComponent
  split_ifs with empty current current
  · subst empty
    simp at long
  · subst empty
    simp at long
  · subst current
    simp at long
  · exact bodyComponent_of_two_lt long

theorem components_pushText (path : Path) : ∃ initial last, path.segments = initial ++ [last] ∧
      ∀ suffix : String, '/' ∉ suffix.toList → 2 < suffix.toList.length →
        (path.pushText suffix).components =
          leadingComponents initial ++ [.normal (String.ofList (last ++ suffix.toList))] := by
  obtain ⟨initial, last, split, extended⟩ := splitOn_append_of_not_mem path.text.toList
  refine ⟨initial, last, split, ?_⟩
  intro suffix noSeparator long
  have longer : 2 < (last ++ suffix.toList).length := by
    rw [List.length_append]
    omega
  rw [components, segments, pushText, String.toList_append, extended _ noSeparator,
    segmentComponents_append_singleton]
  split_ifs with empty
  · simp [empty, leadingComponents, leadingComponent_of_two_lt _ longer]
  · simp [bodyComponent_of_two_lt longer]

theorem components_eq_of_pushText {first second : Path} {suffix : String}
    (noSeparator : '/' ∉ suffix.toList) (long : 2 < suffix.toList.length)
    (same : (first.pushText suffix).components = (second.pushText suffix).components) :
    first.components = second.components := by
  obtain ⟨firstInitial, firstLast, firstSplit, firstPushed⟩ := components_pushText first
  obtain ⟨secondInitial, secondLast, secondSplit, secondPushed⟩ := components_pushText second
  rw [firstPushed suffix noSeparator long, secondPushed suffix noSeparator long] at same
  obtain ⟨sameInitial, sameLast⟩ := List.append_inj' same rfl
  have lastEq : firstLast = secondLast := by simpa [String.ofList_inj] using sameLast
  have bothNil : firstInitial = [] ↔ secondInitial = [] := by
    rw [← leadingComponents_eq_nil_iff, sameInitial, leadingComponents_eq_nil_iff]
  rw [components, components, firstSplit, secondSplit, segmentComponents_append_singleton,
    segmentComponents_append_singleton]
  simp only [bothNil, sameInitial, lastEq]

/-! ### Joining -/

/-- The components of the segments of a path wherever they stand in a longer one. -/
def bodyComponents (path : Path) : List Component := path.segments.filterMap bodyComponent

theorem bodyComponent_ne {segment : List Char} {component : Component}
    (found : bodyComponent segment = some component) :
    component = .parentDir ∨ ∃ name, component = .normal name := by
  unfold bodyComponent at found
  split_ifs at found
  · exact Or.inl (Option.some.inj found).symm
  · exact Or.inr ⟨_, (Option.some.inj found).symm⟩

theorem mem_bodyComponents {path : Path} {component : Component}
    (member : component ∈ path.bodyComponents) :
    component = .parentDir ∨ ∃ name, component = .normal name := by
  obtain ⟨segment, _, found⟩ := List.mem_filterMap.mp member
  exact bodyComponent_ne found

theorem leadingComponent_toList {segment : List Char} (notEmpty : segment ≠ []) (hasRest : Bool) :
    leadingComponent segment hasRest = leadingComponent segment true := by
  unfold leadingComponent
  rw [if_neg notEmpty, if_neg notEmpty]

theorem splitOn_append_separator (first second : List Char) :
    (first ++ '/' :: second).splitOn '/' = first.splitOn '/' ++ second.splitOn '/' := by
  induction first with
  | nil => simp [List.splitOn_cons_eq_if_modifyHead]
  | cons char first ih =>
    rw [List.cons_append, List.splitOn_cons_eq_if_modifyHead,
      List.splitOn_cons_eq_if_modifyHead, ih]
    split_ifs
    · rfl
    · cases split : first.splitOn '/' with
      | nil => exact absurd split (List.splitOn_ne_nil _ _)
      | cons segment rest => rfl

theorem segmentComponents_append {initial more : List (List Char)} (notEmpty : initial ≠ [])
    (hasMore : more ≠ []) :
    segmentComponents (initial ++ more) =
      leadingComponents initial ++ more.filterMap bodyComponent := by
  cases initial with
  | nil => exact absurd rfl notEmpty
  | cons first rest =>
    have rests : (rest ++ more).isEmpty = false := by simp [hasMore]
    simp [segmentComponents, leadingComponents, rests, List.filterMap_append]

theorem components_eq_leadingComponents {path : Path} (notEmpty : path.text ≠ "") :
    path.components = leadingComponents path.segments := by
  rw [components]
  cases split : path.segments with
  | nil => rfl
  | cons first rest =>
    unfold segmentComponents leadingComponents
    cases rest with
    | cons second rest => rfl
    | nil =>
      have nonempty : first ≠ [] := by
        rintro rfl
        apply notEmpty
        have joined : ['/'].intercalate path.segments = path.text.toList :=
          List.intercalate_splitOn '/'
        rw [split] at joined
        exact String.toList_inj.mp joined.symm
      simp only [leadingComponent_toList nonempty]

/-- The segments of a join: those of the base, less an empty last one, and those of
the relative path. -/
theorem segments_join {base other : Path} (notEmpty : base.text ≠ "")
    (relative : other.isAbsolute = false) :
    ∃ initial, initial ≠ [] ∧ base.components = leadingComponents initial ∧
      base.bodyComponents = initial.filterMap bodyComponent ∧
      (base.join other).segments = initial ++ other.segments := by
  unfold join
  rw [if_neg (by simp [relative])]
  split_ifs with blank
  · obtain ⟨initial, isBase⟩ : ∃ initial, base.text.toList = initial ++ ['/'] := by
      have trailing := blank.resolve_left notEmpty
      unfold endsWithSeparator at trailing
      exact List.getLast?_eq_some_iff.mp (of_decide_eq_true trailing)
    have baseSegments : base.segments = initial.splitOn '/' ++ [[]] := by
      rw [segments, isBase, splitOn_append_separator, List.splitOn_nil]
    have initialNotEmpty : initial.splitOn '/' ≠ [] := List.splitOn_ne_nil _ _
    refine ⟨initial.splitOn '/', initialNotEmpty, ?_, ?_, ?_⟩
    · rw [components, baseSegments, segmentComponents_append initialNotEmpty (by simp)]
      simp [bodyComponent]
    · rw [bodyComponents, baseSegments, List.filterMap_append]
      simp [bodyComponent]
    · rw [segments, String.toList_append, isBase, List.append_assoc, List.singleton_append,
        splitOn_append_separator, segments]
  · refine ⟨base.segments, List.splitOn_ne_nil _ _, components_eq_leadingComponents notEmpty, rfl, ?_⟩
    have separator : "/".toList = ['/'] := rfl
    rw [segments, String.toList_append, String.toList_append, separator, List.append_assoc,
      List.singleton_append, splitOn_append_separator, segments, segments]

theorem components_join {base other : Path} (notEmpty : base.text ≠ "")
    (relative : other.isAbsolute = false) :
    (base.join other).components = base.components ++ other.bodyComponents := by
  obtain ⟨initial, initialNotEmpty, baseComponents, _, joined⟩ := segments_join notEmpty relative
  have hasMore : other.segments ≠ [] := List.splitOn_ne_nil _ _
  rw [baseComponents, components, joined, segmentComponents_append initialNotEmpty hasMore,
    bodyComponents]

theorem join_of_isAbsolute {base other : Path} (absolute : other.isAbsolute = true) :
    base.join other = other := by
  rw [join, if_pos absolute]

theorem join_of_empty {base other : Path} (empty : base.text = "") : base.join other = other := by
  rw [join]
  split_ifs
  · rfl
  · rw [empty, String.empty_append]
  · exact absurd (Or.inl empty) ‹_›

theorem bodyComponents_join {base other : Path} (relative : other.isAbsolute = false) :
    (base.join other).bodyComponents = base.bodyComponents ++ other.bodyComponents := by
  by_cases empty : base.text = ""
  · have noComponents : base.bodyComponents = [] := by
      rw [bodyComponents, segments, empty]
      decide
    rw [join_of_empty empty, noComponents, List.nil_append]
  · obtain ⟨initial, _, _, baseBody, joined⟩ := segments_join empty relative
    rw [bodyComponents, joined, List.filterMap_append, baseBody, bodyComponents]

theorem text_ne_empty_of_isAbsolute {path : Path} (absolute : path.isAbsolute = true) :
    path.text ≠ "" := by
  intro empty
  rw [isAbsolute, empty] at absolute
  exact absurd absolute (by decide)

theorem text_join_ne_empty {base other : Path} (notEmpty : base.text ≠ "") :
    (base.join other).text ≠ "" := by
  unfold join
  split_ifs with absolute
  · exact text_ne_empty_of_isAbsolute absolute
  · exact fun empty => notEmpty (String.append_eq_empty_iff.mp empty).1
  · exact fun empty => notEmpty (String.append_eq_empty_iff.mp
      (String.append_eq_empty_iff.mp empty).1).1

theorem isAbsolute_join {base other : Path} :
    (base.join other).isAbsolute = (other.isAbsolute || base.isAbsolute) := by
  cases absolute : other.isAbsolute with
  | true => rw [join_of_isAbsolute absolute, absolute, Bool.true_or]
  | false =>
    by_cases empty : base.text = ""
    · rw [join_of_empty empty, absolute, isAbsolute, empty]
      rfl
    · obtain ⟨first, rest, isBase⟩ : ∃ first rest, base.text.toList = first :: rest := by
        cases isBase : base.text.toList with
        | nil => exact absurd (String.toList_inj.mp isBase) empty
        | cons first rest => exact ⟨first, rest, rfl⟩
      rw [join, if_neg (by simp [absolute])]
      split_ifs <;> simp [isAbsolute, isBase]

end Path

end Porthmos
