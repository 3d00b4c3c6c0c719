import Porthmos.WebDavPaths

/-!
# Listing a WebDAV folder

The reply to a listing names its resources by addresses.  Each address below
the root of the connection is turned into a path, the folder itself is left
out, and the last name of a path becomes the name of the item.  A decoded name
is pushed onto the path as a text of its own, so it may hold slashes and dots
that lead elsewhere.
-/

namespace Porthmos

namespace WebDav

/-- What a reply says about one resource. -/
structure Resource where
  href : String := ""
  status : Option Nat := none
  collection : Bool := false
  size : Option Nat := none
  modified : Option Nat := none
  deriving DecidableEq, Repr

def Resource.metadata (resource : Resource) : Metadata where
  size := resource.size.getD 0
  modified := resource.modified
  kind := if resource.collection then .dir else .file

/-- The root as it is shown. -/
def Locator.rootText (locator : Locator) : String :=
  if locator.root = [] then "/" else "/" ++ "/".intercalate locator.root ++ "/"

/-- The items of a reply about the folder `dir`. -/
def readDir (locator : Locator) (dir : Path) (resources : List Resource) :
    Except String (List DirItem) :=
  let located := resources.filterMap fun resource =>
    (locator.pathOfHref resource.href).map fun path => (path, resource)
  if located.isEmpty then
    .error ("the server answered with paths outside Root path " ++ locator.rootText)
  else
    .ok <| (located.filter fun entry => entry.1.components ≠ (normalize dir).components).filterMap
      fun entry => entry.1.fileName.map fun name =>
        { name, path := entry.1, metadata := entry.2.metadata }

/-- Every item is a child of the folder, addressed inside it, and none is listed
twice. -/
structure ListsChildren (dir : Path) (items : List DirItem) : Prop where
  child : ∀ item ∈ items, PlainName item.name ∧
    item.path.components = (dir.join ⟨item.name⟩).components ∧
    segments item.path = segments dir ++ [item.name]
  once : items.Pairwise fun first second => first.path.components ≠ second.path.components

/-! ### Where an address leads -/

/-- The decoded names of an address below the root. -/
def Locator.namesBelow (locator : Locator) (href : String) : Option (List String) :=
  let decoded := decodedSegments (pathText href)
  if locator.root.isPrefixOf decoded then some (decoded.drop locator.root.length) else none

/-- Where decoded names lead: a name that starts with a slash starts again at
the root, and every other one goes on from where the names before it led. -/
def landing (names : List String) : List Component :=
  names.foldl (fun place name =>
    if (Path.mk name).isAbsolute then (Path.mk name).bodyComponents
    else place ++ (Path.mk name).bodyComponents) []

/-- The place of a folder. -/
def folderPlace (dir : Path) : List Component := (segments dir).map .normal

/-- A place that is listed: it ends in a name and is not the folder itself. -/
def IsListed (dir : Path) (place : List Component) : Prop :=
  place ≠ folderPlace dir ∧ ∃ name, place.getLast? = some (.normal name)

/-- Every address of the reply that is listed leads to a name right inside the
folder, and no two lead to the same one. -/
structure LeadsToChildren (locator : Locator) (dir : Path) (resources : List Resource) : Prop where
  each : ∀ resource ∈ resources, ∀ names, locator.namesBelow resource.href = some names →
    IsListed dir (landing names) → ∃ name, landing names = folderPlace dir ++ [.normal name]
  once : resources.Pairwise fun first second => ∀ names otherNames,
    locator.namesBelow first.href = some names →
    locator.namesBelow second.href = some otherNames →
    IsListed dir (landing names) → landing names ≠ landing otherNames

theorem components_of_isAbsolute {path : Path} (absolute : path.isAbsolute = true) :
    path.components = .rootDir :: path.bodyComponents := by
  have first : path.text.toList.head? = some '/' := of_decide_eq_true absolute
  obtain ⟨rest, textEq⟩ : ∃ rest, path.text.toList = '/' :: rest := by
    cases textEq : path.text.toList with
    | nil => simp [textEq] at first
    | cons character rest =>
      rw [textEq] at first
      exact ⟨rest, by rw [Option.some.inj first]⟩
  have split := Path.splitOn_append_separator [] rest
  rw [List.nil_append, List.splitOn_nil, List.singleton_append] at split
  rw [Path.components_eq_leadingComponents (Path.text_ne_empty_of_isAbsolute absolute),
    Path.bodyComponents, Path.segments, textEq, split]
  simp [Path.leadingComponents, Path.leadingComponent, Path.bodyComponent]

theorem isAbsolute_toPath (names : List String) : (toPath names).isAbsolute = true := by
  induction names using List.reverseRecOn with
  | nil => decide
  | append_singleton names name ih =>
    rw [toPath, List.foldl_append]
    change ((toPath names).join ⟨name⟩).isAbsolute = true
    rw [Path.isAbsolute_join, ih, Bool.or_true]

theorem components_toPath (names : List String) :
    (toPath names).components = .rootDir :: landing names := by
  rw [components_of_isAbsolute (isAbsolute_toPath names)]
  congr 1
  induction names using List.reverseRecOn with
  | nil => decide
  | append_singleton names name ih =>
    rw [toPath, landing, List.foldl_append, List.foldl_append]
    change ((toPath names).join ⟨name⟩).bodyComponents =
      if (Path.mk name).isAbsolute then (Path.mk name).bodyComponents
      else landing names ++ (Path.mk name).bodyComponents
    split
    case isTrue absolute => rw [Path.join_of_isAbsolute absolute]
    case isFalse relative => rw [Path.bodyComponents_join (by simpa using relative), ih]

theorem pathOfHref_eq (locator : Locator) (href : String) :
    locator.pathOfHref href = (locator.namesBelow href).map toPath := by
  unfold Locator.pathOfHref Locator.namesBelow
  dsimp only
  split <;> rfl

theorem landing_plain {names : List String} (plain : ∀ name ∈ names, PlainName name) :
    landing names = names.map .normal := by
  induction names using List.reverseRecOn with
  | nil => exact rfl
  | append_singleton names name ih =>
    have namePlain : PlainName name := plain name (by simp)
    have before : landing names = names.map .normal :=
      ih fun other mem => plain other (List.mem_append_left _ mem)
    rw [landing, List.foldl_append]
    change (if (Path.mk name).isAbsolute then (Path.mk name).bodyComponents
      else landing names ++ (Path.mk name).bodyComponents) = _
    rw [Path.isAbsolute_of_not_mem namePlain.2.1, before,
      Path.bodyComponents_of_not_mem namePlain.2.1, Path.bodyComponent_of_plain namePlain]
    simp

theorem components_normalize (dir : Path) :
    (normalize dir).components = .rootDir :: folderPlace dir := by
  rw [normalize, components_toPath, landing_plain fun name mem => plain_of_mem_segments mem,
    folderPlace]

theorem foldl_pushSegment (names before : List String) :
    (names.map Component.normal).foldl pushSegment before = before ++ names := by
  induction names generalizing before with
  | nil => simp
  | cons name names ih => simp [pushSegment, ih]

theorem segments_of_components {path : Path} {names : List String}
    (componentsEq : path.components = .rootDir :: names.map .normal) : segments path = names := by
  rw [segments, componentsEq, List.foldl_cons, foldl_pushSegment]
  simp [pushSegment]

theorem segments_normalize (dir : Path) : segments (normalize dir) = segments dir :=
  segments_of_components (components_normalize dir)

/-! ### The items of a reply -/

/-- The item an address gives, if it is listed. -/
def itemOf (locator : Locator) (dir : Path) (resource : Resource) : Option DirItem :=
  (locator.pathOfHref resource.href).bind fun path =>
    if path.components = (normalize dir).components then none
    else path.fileName.map fun name => { name, path, metadata := resource.metadata }

theorem readDir_eq {locator : Locator} {dir : Path} {resources : List Resource}
    {items : List DirItem} (listed : readDir locator dir resources = .ok items) :
    items = resources.filterMap (itemOf locator dir) := by
  unfold readDir at listed
  dsimp only at listed
  split_ifs at listed
  simp only [Except.ok.injEq] at listed
  rw [← listed, ← List.filterMap_eq_filter, List.filterMap_filterMap, List.filterMap_filterMap]
  congr 1
  funext resource
  unfold itemOf
  cases locator.pathOfHref resource.href with
  | none => rfl
  | some path =>
    by_cases isFolder : path.components = (normalize dir).components <;> simp [isFolder]

theorem readDir_error {locator : Locator} {dir : Path} {resources : List Resource}
    {message : String} (refused : readDir locator dir resources = .error message) :
    ∀ resource ∈ resources, locator.namesBelow resource.href = none := by
  unfold readDir at refused
  dsimp only at refused
  split_ifs at refused with empty
  intro resource mem
  rw [List.isEmpty_iff, List.filterMap_eq_nil_iff] at empty
  simpa [pathOfHref_eq] using empty resource mem

/-- An item stands for an address that is listed. -/
theorem itemOf_eq_some_iff {locator : Locator} {dir : Path} {resource : Resource} {item : DirItem} :
    itemOf locator dir resource = some item ↔
      ∃ names, locator.namesBelow resource.href = some names ∧ IsListed dir (landing names) ∧
        (landing names).getLast? = some (.normal item.name) ∧
        item = { name := item.name, path := toPath names, metadata := resource.metadata } := by
  unfold itemOf
  rw [pathOfHref_eq]
  cases namesEq : locator.namesBelow resource.href with
  | none => simp
  | some names =>
    have lastEq (name : String) : (toPath names).fileName = some name ↔
        (landing names).getLast? = some (.normal name) := by
      rw [fileName_eq_some_iff, components_toPath]
      cases landing names with
      | nil => simp
      | cons first rest => simp
    simp only [Option.map_some, Option.bind_some, components_toPath, components_normalize,
      List.cons.injEq, true_and, Option.some.injEq, exists_eq_left']
    by_cases isFolder : landing names = folderPlace dir
    · simp [isFolder, IsListed]
    · rw [if_neg isFolder, Option.map_eq_some_iff]
      constructor
      · rintro ⟨name, nameEq, rfl⟩
        have last := (lastEq name).mp nameEq
        exact ⟨⟨isFolder, name, last⟩, last, rfl⟩
      · rintro ⟨-, last, itemEq⟩
        exact ⟨item.name, (lastEq item.name).mpr last, itemEq.symm⟩

/-- The place of a child, and what follows for the item. -/
theorem child_iff {dir : Path} {names : List String} {name : String}
    (last : (landing names).getLast? = some (.normal name)) :
    (PlainName name ∧ (toPath names).components = ((normalize dir).join ⟨name⟩).components ∧
      segments (toPath names) = segments (normalize dir) ++ [name]) ↔
    ∃ child, landing names = folderPlace dir ++ [.normal child] := by
  have plain : PlainName name := by
    have isComponent : .normal name ∈ (toPath names).components := by
      rw [components_toPath]
      exact List.mem_cons_of_mem _ (List.mem_of_getLast? last)
    exact plain_of_mem_components isComponent
  have joined : ((normalize dir).join ⟨name⟩).components =
      .rootDir :: (folderPlace dir ++ [.normal name]) := by
    rw [components_join_plain plain, components_normalize, List.cons_append]
  constructor
  · rintro ⟨-, sameComponents, -⟩
    rw [components_toPath, joined] at sameComponents
    exact ⟨name, (List.cons.inj sameComponents).2⟩
  · rintro ⟨child, landingEq⟩
    have childEq : child = name := by
      rw [landingEq] at last
      simpa using last
    subst childEq
    have componentsEq : (toPath names).components =
        .rootDir :: (segments dir ++ [child]).map .normal := by
      rw [components_toPath, landingEq, folderPlace]
      simp
    refine ⟨plain, ?_, ?_⟩
    · rw [joined, components_toPath, landingEq]
    · rw [segments_of_components componentsEq, segments_normalize]

theorem exists_item {locator : Locator} {dir : Path} {resource : Resource} {names : List String}
    (namesEq : locator.namesBelow resource.href = some names)
    (isListed : IsListed dir (landing names)) :
    ∃ item, itemOf locator dir resource = some item ∧ item.path = toPath names := by
  obtain ⟨name, last⟩ := isListed.2
  exact ⟨{ name, path := toPath names, metadata := resource.metadata },
    itemOf_eq_some_iff.mpr ⟨names, namesEq, isListed, last, rfl⟩, rfl⟩

theorem leadsToChildren_of_none {locator : Locator} {dir : Path} {resources : List Resource}
    (outside : ∀ resource ∈ resources, locator.namesBelow resource.href = none) :
    LeadsToChildren locator dir resources := by
  constructor
  · intro resource resourceMem names namesEq
    rw [outside resource resourceMem] at namesEq
    cases namesEq
  · refine List.pairwise_of_forall_mem_list fun first firstMem second _ names _ namesEq => ?_
    rw [outside first firstMem] at namesEq
    cases namesEq

end WebDav

end Porthmos
