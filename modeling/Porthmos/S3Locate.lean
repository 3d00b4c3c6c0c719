import Porthmos.PathNames

/-!
# Places in an object store

A bucket has objects under keys, and no folders: a folder is what several keys begin with.  The
panel shows paths, and the path of an item is read back as a key by taking its components.
-/

namespace Porthmos

inductive S3Location
  | root
  | bucket (name : String)
  | object (bucket key : String)
  deriving DecidableEq, Repr

namespace S3Location

/-- `Location::prefix`: what the keys of a folder begin with. -/
def keysBelow : S3Location → String
  | .object _ key => key ++ "/"
  | .root | .bucket _ => ""

def bucketName : S3Location → Option String
  | .root => none
  | .bucket inside => some inside
  | .object inside _ => some inside

end S3Location

def stepSegments (segments : List String) : Component → List String
  | .normal name => segments ++ [name]
  | .parentDir => segments.dropLast
  | .rootDir | .curDir => segments

/-- `segments` -/
def keySegments (path : Path) : List String := path.components.foldl stepSegments []

def joinSegments (segments : List String) : String := "/".intercalate segments

/-- The place in a bucket that some segments lead to. -/
def locateIn (bucket : String) (segments : List String) : S3Location :=
  if segments.isEmpty then .bucket bucket else .object bucket (joinSegments segments)

def locate (path : Path) (configured : Option String) : S3Location :=
  match configured, keySegments path with
  | some bucket, segments => locateIn bucket segments
  | none, [] => .root
  | none, bucket :: segments => locateIn bucket segments

def panelPath (path : Path) : Path :=
  (keySegments path).foldl (fun normal name => normal.join ⟨name⟩) ⟨"/"⟩

/-- `key[prefix.len()..]`, for a key that begins with the prefix. -/
def afterKeys (key below : String) : String :=
  String.ofList (key.toList.drop below.toList.length)

/-- `trim_end_matches('/')` -/
def trimSlashes (text : String) : String :=
  String.ofList (text.toList.reverse.dropWhile (· = '/')).reverse

/-- `staged_key`: the key whose upload the `.part` file stands for. -/
def stagedKey (key : String) : Option String :=
  if partSuffix.toList.isSuffixOf key.toList then
    let name := key.toList.take (key.toList.length - partSuffix.toList.length)
    if name.isEmpty || name.getLast? = some '/' then none else some (String.ofList name)
  else none

/-! ### Components -/

theorem keySegments_join {base other : Path} (notEmpty : base.text ≠ "")
    (relative : other.isAbsolute = false) :
    keySegments (base.join other) = other.bodyComponents.foldl stepSegments (keySegments base) := by
  unfold keySegments
  rw [Path.components_join notEmpty relative, List.foldl_append]

theorem keySegments_join_plain {base : Path} {name : String} (notEmpty : base.text ≠ "")
    (plain : PlainName name) : keySegments (base.join ⟨name⟩) = keySegments base ++ [name] := by
  rw [keySegments_join notEmpty (Path.isAbsolute_of_not_mem plain.2.1),
    Path.bodyComponents_of_not_mem plain.2.1, Path.bodyComponent_of_plain plain]
  rfl

theorem keySegments_join_dot {base : Path} (notEmpty : base.text ≠ "") :
    keySegments (base.join ⟨"."⟩) = keySegments base := by
  rw [keySegments_join notEmpty (by decide)]
  rfl

theorem keySegments_join_dotDot {base : Path} (notEmpty : base.text ≠ "") :
    keySegments (base.join ⟨".."⟩) = (keySegments base).dropLast := by
  rw [keySegments_join notEmpty (by decide)]
  rfl

theorem mem_foldl_stepSegments {components : List Component} {segments : List String}
    {name : String} (member : name ∈ components.foldl stepSegments segments) :
    name ∈ segments ∨ .normal name ∈ components := by
  induction components generalizing segments with
  | nil => exact Or.inl member
  | cons component components ih =>
    rcases ih member with before | later
    · cases component with
      | normal other =>
        rcases List.mem_append.mp before with inside | new
        · exact Or.inl inside
        · rw [List.mem_singleton.mp new]
          exact Or.inr List.mem_cons_self
      | parentDir => exact Or.inl (List.dropLast_subset _ before)
      | rootDir => exact Or.inl before
      | curDir => exact Or.inl before
    · exact Or.inr (List.mem_cons_of_mem _ later)

theorem plain_of_mem_keySegments {path : Path} {name : String}
    (member : name ∈ keySegments path) : PlainName name := by
  rcases mem_foldl_stepSegments member with before | inside
  · cases before
  · exact plain_of_mem_components inside

theorem keySegments_foldl_join {base : Path} {names : List String} (notEmpty : base.text ≠ "")
    (plain : ∀ name ∈ names, PlainName name) :
    keySegments (names.foldl (fun normal name => normal.join ⟨name⟩) base) =
      keySegments base ++ names ∧
    (names.foldl (fun normal name => normal.join ⟨name⟩) base).text ≠ "" := by
  induction names generalizing base with
  | nil => simpa using notEmpty
  | cons name names ih =>
    obtain ⟨segments, stays⟩ := ih (Path.text_join_ne_empty notEmpty)
      fun other member => plain other (List.mem_cons_of_mem _ member)
    constructor
    · rw [List.foldl_cons, segments,
        keySegments_join_plain notEmpty (plain name List.mem_cons_self), List.append_assoc,
        List.singleton_append]
    · exact stays

@[simp]
theorem keySegments_panelPath (path : Path) : keySegments (panelPath path) = keySegments path := by
  have root : keySegments ⟨"/"⟩ = [] := by decide
  unfold panelPath
  rw [(keySegments_foldl_join (by decide) fun name => plain_of_mem_keySegments).1, root,
    List.nil_append]

theorem text_panelPath_ne_empty (path : Path) : (panelPath path).text ≠ "" :=
  (keySegments_foldl_join (by decide) fun name => plain_of_mem_keySegments).2

/-! ### Locating -/

theorem locate_congr {first second : Path} (configured : Option String)
    (same : keySegments first = keySegments second) :
    locate first configured = locate second configured := by
  unfold locate
  rw [same]

theorem locateIn_append (bucket : String) (segments : List String) (name : String) :
    locateIn bucket (segments ++ [name]) =
      .object bucket ((locateIn bucket segments).keysBelow ++ name) := by
  unfold locateIn
  have notEmpty : (segments ++ [name]).isEmpty = false := by simp
  rw [notEmpty]
  cases segments with
  | nil => simp [joinSegments, S3Location.keysBelow]
  | cons first rest =>
    have joined := String.intercalate_append_of_ne_nil (s := "/") (l := first :: rest)
      (m := [name]) (by simp) (by simp)
    simpa [joinSegments, S3Location.keysBelow] using joined

/-- In a bucket a plain name below a folder is located under the key of the folder. -/
theorem locate_join_plain {base : Path} {configured : Option String} {name : String}
    {bucket : String} (notEmpty : base.text ≠ "") (plain : PlainName name)
    (inside : (locate base configured).bucketName = some bucket) :
    locate (base.join ⟨name⟩) configured =
      .object bucket ((locate base configured).keysBelow ++ name) := by
  have located (bucket' : String) (segments : List String)
      (isBucket : (locateIn bucket' segments).bucketName = some bucket) : bucket' = bucket := by
    unfold locateIn at isBucket
    split_ifs at isBucket
    · exact Option.some.inj isBucket
    · exact Option.some.inj isBucket
  unfold locate at inside ⊢
  rw [keySegments_join_plain notEmpty plain]
  cases configured with
  | some configured =>
    dsimp only at inside ⊢
    rw [locateIn_append, located _ _ inside]
  | none =>
    cases segments : keySegments base with
    | nil =>
      rw [segments] at inside
      cases inside
    | cons first rest =>
      rw [segments] at inside
      dsimp only [List.cons_append] at inside ⊢
      rw [locateIn_append, located _ _ inside]

example : locate ⟨"/photos/./2024/../2025/"⟩ (some "media") = .object "media" "photos/2025" := by
  decide

end Porthmos
