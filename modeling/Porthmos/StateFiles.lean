import Mathlib.Tactic.IntervalCases
import Porthmos.Path
import Porthmos.RequestRuns
import Porthmos.VersionedWrites

/-!
# Files that hold the program's state

A file of the program's state is read as a whole.  When it cannot be read, decoded or parsed it is
moved to a name that nothing has had before, so that a new file may take its place; when it cannot
be moved it stays, and the caller learns that it must not be overwritten.

Any request may fail, and changes nothing then.  Paths are compared as texts: a file and the names
that are made from its path differ as places as they do as texts.
-/

namespace Porthmos

open Program

/-- `io::ErrorKind`, as far as it is looked at. -/
inductive IoErrorKind
  | notFound
  | alreadyExists
  | other
  deriving DecidableEq, Repr

/-- `io::Error`, with the text that it shows. -/
structure IoError where
  kind : IoErrorKind
  text : String
  deriving DecidableEq, Repr

/-- The calls of `std::fs`. -/
inductive FileRequest : Type → Type
  | read (path : Path) : FileRequest Bytes
  /-- Open for writing with `create_new`. -/
  | createNew (path : Path) : FileRequest Unit
  | rename (source target : Path) : FileRequest Unit
  | removeFile (path : Path) : FileRequest Unit

/-- What is at a path. -/
inductive FileEntry
  | file (bytes : Bytes)
  | folder
  deriving DecidableEq, Repr

abbrev Files := Path → Option FileEntry

/-- A file that is there is not reported as missing. -/
def FileRequest.MayFail {β : Type} (files : Files) : FileRequest β → IoError → Prop
  | .read path, err => err.kind = .notFound → files path = none
  | _, _ => True

/-- How the operating system answers.  Whatever the reason, it may refuse. -/
def FileServes : Service Files FileRequest IoError
  | _, files, .read path, .ok bytes, after => files path = some (.file bytes) ∧ after = files
  | _, files, .createNew path, .ok _, after =>
    files path = none ∧ after = Function.update files path (some (.file []))
  | _, files, .rename source target, .ok _, after =>
    ∃ entry, files source = some entry ∧
      after = Function.update (Function.update files source none) target (some entry)
  | _, files, .removeFile path, .ok _, after =>
    (∃ bytes, files path = some (.file bytes)) ∧ after = Function.update files path none
  | _, files, asked, .error err, after => asked.MayFail files err ∧ after = files

/-- `Loaded` -/
inductive Loaded (α : Type)
  | missing
  | ready (value : α)
  | setAside (warning : String) (isProtected : Bool)
  deriving DecidableEq, Repr

namespace StateFiles

/-- `char::is_whitespace` -/
def isWhitespace (char : Char) : Bool :=
  (9 ≤ char.toNat && char.toNat ≤ 13) || (0x2000 ≤ char.toNat && char.toNat ≤ 0x200a) ||
    [0x20, 0x85, 0xa0, 0x1680, 0x2028, 0x2029, 0x202f, 0x205f, 0x3000].contains char.toNat

theorem isWhitespace_of_isDigit {char : Char} (isDigit : char.isDigit = true) :
    isWhitespace char = false := by
  unfold Char.isDigit at isDigit
  rw [Bool.and_eq_true, decide_eq_true_eq, decide_eq_true_eq] at isDigit
  obtain ⟨lower, upper⟩ := isDigit
  have atLeast : 48 ≤ char.toNat := lower
  have atMost : char.toNat ≤ 57 := upper
  unfold isWhitespace
  generalize char.toNat = code at atLeast atMost
  interval_cases code <;> rfl

/-- `one_line` -/
def oneLine (text : String) : String :=
  " ".intercalate (((text.toList.splitOnP isWhitespace).filter (· ≠ [])).map String.ofList)

/-- The names that `reserve_broken_name` tries, in this order. -/
def brokenNames (path : Path) : List Path :=
  path.pushText ".broken" ::
    (List.range' 1 999).map fun index => path.pushText (".broken." ++ index.repr)

def reserveName : List Path → Program FileRequest IoError Path
  | [] => fail ⟨.other, "too many .broken files already exist"⟩
  | candidate :: candidates => do
      match ← attempt (send (.createNew candidate)) with
      | .ok _ => pure candidate
      | .error err => if err.kind = .alreadyExists then reserveName candidates else fail err

def reserveBrokenName (path : Path) : Program FileRequest IoError Path :=
  reserveName (brokenNames path)

/-- Move the file over the empty one that keeps its new name. -/
def moveAside (path : Path) : Program FileRequest IoError Path := do
  let broken ← reserveBrokenName path
  match ← attempt (send (.rename path broken)) with
  | .ok _ => pure broken
  | .error err => do
      let _ ← attempt (send (.removeFile broken))
      fail err

variable {α : Type}

def setAside (path : Path) (problem : String) : Program FileRequest IoError (Loaded α) := do
  match ← attempt (moveAside path) with
  | .ok broken =>
    pure (.setAside (problem ++ "; it was kept as " ++
      broken.fileName.getD "the .broken file" ++ " and a new one was started") false)
  | .error err =>
    pure (.setAside (problem ++ " and couldn't be set aside (" ++ err.text ++
      "); changes won't be saved") true)

/-- `String::from_utf8` -/
def fromUtf8 (bytes : Bytes) : Option String := String.fromUTF8? ⟨bytes.toArray⟩

/-- `String::into_bytes` -/
def toUtf8 (text : String) : Bytes := text.toUTF8.data.toList

/-- `read_or_set_aside`, where an error of the parser is the text that it shows. -/
def readOrSetAside (path : Path) (noun : String) (parse : String → Except String α) :
    Program FileRequest IoError (Loaded α) := do
  match ← attempt (send (.read path)) with
  | .error err =>
    if err.kind = .notFound then pure .missing
    else setAside path ("Couldn't read " ++ noun ++ " (" ++ err.text ++ ")")
  | .ok bytes =>
    match fromUtf8 bytes with
    | none =>
      setAside path ("The " ++ noun ++ " file was unreadable (it is not valid UTF-8)")
    | some text =>
      match parse text with
      | .ok value => pure (.ready value)
      | .error err =>
        setAside path ("The " ++ noun ++ " file was unreadable (" ++ oneLine err ++ ")")

/-! ### What happens to the files -/

variable {before after : Files} {path : Path}

/-- An empty file keeps the name that was found. -/
theorem reserveName_ensures (before : Files) (candidates : List Path) :
    Ensures FileServes (· = before) (reserveName candidates) fun result after =>
      match result with
      | .ok broken => broken ∈ candidates ∧ before broken = none ∧
          after = Function.update before broken (some (.file []))
      | .error _ => after = before := by
  induction candidates with
  | nil => exact ensures_done fun _ same => same
  | cons candidate candidates ih =>
    unfold reserveName
    apply ensures_attempt_bind (fun result after => match result with
      | .ok _ => before candidate = none ∧
          after = Function.update before candidate (some (.file []))
      | .error _ => after = before)
    · apply ensures_send
      rintro _ answer after rfl served
      cases answer with
      | ok _ => exact served
      | error err => exact served.2
    · intro answer
      cases answer with
      | ok _ => exact ensures_done fun _ ⟨free, same⟩ => ⟨List.mem_cons_self, free, same⟩
      | error err =>
        dsimp only
        split_ifs
        · apply ih.weaken
          rintro (_ | broken) after ended
          · exact ended
          · exact ⟨List.mem_cons_of_mem _ ended.1, ended.2⟩
        · exact ensures_done fun _ same => same

theorem ne_of_mem_brokenNames {broken : Path} (member : broken ∈ brokenNames path) :
    broken ≠ path := by
  have longer (suffix : String) (notEmpty : suffix.length ≠ 0) : path.pushText suffix ≠ path := by
    intro same
    have length := congrArg (fun path => path.text.length) same
    simp only [Path.pushText, String.length_append] at length
    omega
  rcases List.mem_cons.mp member with rfl | numbered
  · exact longer _ (by decide)
  · obtain ⟨index, _, rfl⟩ := List.mem_map.mp numbered
    apply longer
    rw [String.length_append]
    have dots : ".broken.".length = 8 := by decide
    omega

/-- The file is at a name of its own, or everything that was there is as it was. -/
structure Moved (before after : Files) (path broken : Path) : Prop where
  isBroken : broken ∈ brokenNames path
  wasFree : before broken = none
  moved : ∃ entry, before path = some entry ∧ after broken = some entry
  gone : after path = none
  others : ∀ other, other ≠ path → other ≠ broken → after other = before other

theorem moveAside_ensures (before : Files) (path : Path) :
    Ensures FileServes (· = before) (moveAside path) fun result after =>
      match result with
      | .ok broken => Moved before after path broken
      | .error _ => after path = before path ∧
          ∀ other, before other ≠ none → after other = before other := by
  unfold moveAside
  apply ensures_bind _ (reserveName_ensures before (brokenNames path))
  · intro broken
    apply ensures_attempt_bind (fun result after => broken ∈ brokenNames path ∧
      before broken = none ∧ match result with
        | .ok _ => Moved before after path broken
        | .error _ => after = Function.update before broken (some (.file [])))
    · apply ensures_send
      rintro files answer after ⟨member, free, rfl⟩ served
      refine ⟨member, free, ?_⟩
      cases answer with
      | error err => exact served.2
      | ok _ =>
        obtain ⟨entry, found, rfl⟩ := served
        have differs := ne_of_mem_brokenNames member
        rw [Function.update_of_ne differs.symm] at found
        refine ⟨member, free, ⟨entry, found, Function.update_self ..⟩, ?_, ?_⟩
        · rw [Function.update_of_ne differs.symm, Function.update_self]
        · intro other notPath notBroken
          rw [Function.update_of_ne notBroken, Function.update_of_ne notPath,
            Function.update_of_ne notBroken]
    · intro answer
      cases answer with
      | ok _ => exact ensures_done fun _ known => known.2.2
      | error err =>
        apply ensures_attempt_bind (fun _ after => broken ∈ brokenNames path ∧
          before broken = none ∧ ∀ other, other ≠ broken → after other = before other)
        · apply ensures_send
          rintro files answer after ⟨member, free, rfl⟩ served
          refine ⟨member, free, fun other notBroken => ?_⟩
          cases answer with
          | ok _ => rw [served.2, Function.update_of_ne notBroken, Function.update_of_ne notBroken]
          | error _ => rw [served.2, Function.update_of_ne notBroken]
        · intro _
          apply ensures_done
          rintro after ⟨member, free, others⟩
          refine ⟨others path (ne_of_mem_brokenNames member).symm, fun other was => ?_⟩
          apply others
          rintro rfl
          exact was free
  · rintro err after rfl
    exact ⟨rfl, fun _ _ => rfl⟩

/-- What the caller may rely on. -/
def Kept (before after : Files) (path : Path) (parse : String → Except String α) :
    Loaded α → Prop
  | .missing => before path = none ∧ after = before
  | .ready value => after = before ∧ ∃ bytes text, before path = some (.file bytes) ∧
      fromUtf8 bytes = some text ∧ parse text = .ok value
  | .setAside _ true => after path = before path
  | .setAside _ false => before path ≠ none ∧ after path = none ∧
      ∃ broken ∈ brokenNames path, after broken = before path ∧
        ∀ other, before other = none ∧ after other ≠ none ↔ other = broken

theorem Moved.kept {broken : Path} (moved : Moved before after path broken) (warning : String)
    (parse : String → Except String α) : Kept before after path parse (.setAside warning false) := by
  obtain ⟨entry, found, isMoved⟩ := moved.moved
  refine ⟨by simp [found], moved.gone, broken, moved.isBroken, isMoved.trans found.symm, ?_⟩
  intro other
  constructor
  · rintro ⟨wasFree, isTaken⟩
    by_contra differs
    have notPath : other ≠ path := by
      rintro rfl
      rw [found] at wasFree
      cases wasFree
    exact isTaken ((moved.others other notPath differs).trans wasFree)
  · rintro rfl
    exact ⟨moved.wasFree, by simp [isMoved]⟩

/-- No other file is changed. -/
def OthersKept (before after : Files) (path : Path) : Prop :=
  ∀ other, other ≠ path → before other ≠ none → after other = before other

theorem setAside_ensures (before : Files) (path : Path) (problem : String)
    (parse : String → Except String α) :
    Ensures FileServes (· = before) (setAside path problem) fun result after =>
      (∃ loaded, result = .ok loaded ∧ Kept before after path parse loaded) ∧
        OthersKept before after path := by
  apply ensures_attempt_bind _ (moveAside_ensures before path)
  intro answer
  cases answer with
  | ok broken =>
    apply ensures_done
    intro after moved
    refine ⟨⟨_, rfl, moved.kept _ parse⟩, fun other notPath was => ?_⟩
    apply moved.others other notPath
    rintro rfl
    exact was moved.wasFree
  | error err => exact ensures_done fun after ended => ⟨⟨_, rfl, ended.1⟩, fun other _ => ended.2 other⟩

/-- Whatever is in the files and whatever fails, nothing that was there is lost. -/
theorem readOrSetAside_keeps (before after : Files) (path : Path) (noun : String)
    (parse : String → Except String α) (result : Except IoError (Loaded α))
    (run : (readOrSetAside path noun parse).Runs FileServes before result after) :
    (∃ loaded, result = .ok loaded ∧ Kept before after path parse loaded) ∧
      OthersKept before after path := by
  have ensures : Ensures FileServes (· = before) (readOrSetAside path noun parse)
      fun result after => (∃ loaded, result = .ok loaded ∧ Kept before after path parse loaded) ∧
        OthersKept before after path := by
    apply ensures_attempt_bind (fun result after => after = before ∧ match result with
      | .ok bytes => before path = some (.file bytes)
      | .error err => err.kind = .notFound → before path = none)
    · apply ensures_send
      rintro _ answer after rfl served
      cases answer with
      | ok bytes => exact ⟨served.2, served.1⟩
      | error err => exact ⟨served.2, served.1⟩
    · intro answer
      have aside (problem : String) := setAside_ensures before path problem parse
      cases answer with
      | error err =>
        dsimp only
        split_ifs with isMissing
        · apply ensures_done
          rintro after ⟨rfl, gone⟩
          exact ⟨⟨_, rfl, gone isMissing, rfl⟩, fun _ _ _ => rfl⟩
        · exact (aside _).strengthen fun _ known => known.1
      | ok bytes =>
        dsimp only
        split
        · exact (aside _).strengthen fun _ known => known.1
        · rename_i text isText
          split
          · rename_i value parsed
            apply ensures_done
            rintro after ⟨rfl, found⟩
            exact ⟨⟨_, rfl, rfl, bytes, text, found, isText, parsed⟩, fun _ _ _ => rfl⟩
          · exact (aside _).strengthen fun _ known => known.1
  exact ensures.of_run before result after rfl run

@[simp]
theorem fromUtf8_toUtf8 (text : String) : fromUtf8 (toUtf8 text) = some text := by
  unfold fromUtf8 toUtf8 String.fromUTF8?
  rw [Array.toArray_toList]
  exact dif_pos text.isValidUTF8

/-! ### An operating system that refuses nothing it need not -/

def perform : (β : Type) → Files → FileRequest β → Except IoError β × Files
  | _, files, .read path =>
    match files path with
    | some (.file bytes) => (.ok bytes, files)
    | some .folder => (.error ⟨.other, "Is a directory (os error 21)"⟩, files)
    | none => (.error ⟨.notFound, "No such file or directory (os error 2)"⟩, files)
  | _, files, .createNew path =>
    match files path with
    | some _ => (.error ⟨.alreadyExists, "File exists (os error 17)"⟩, files)
    | none => (.ok (), Function.update files path (some (.file [])))
  | _, files, .rename source target =>
    match files source with
    | some entry =>
      (.ok (), Function.update (Function.update files source none) target (some entry))
    | none => (.error ⟨.notFound, "No such file or directory (os error 2)"⟩, files)
  | _, files, .removeFile path =>
    match files path with
    | some (.file _) => (.ok (), Function.update files path none)
    | some .folder => (.error ⟨.other, "Is a directory (os error 21)"⟩, files)
    | none => (.error ⟨.notFound, "No such file or directory (os error 2)"⟩, files)

theorem serves_perform (β : Type) (files : Files) (asked : FileRequest β) :
    FileServes β files asked (perform β files asked).1 (perform β files asked).2 := by
  cases asked with
  | read path =>
    rcases found : files path with _ | ⟨bytes⟩ | _ <;>
      simp [perform, FileServes, FileRequest.MayFail, found]
  | createNew path =>
    cases found : files path <;> simp [perform, FileServes, FileRequest.MayFail, found]
  | rename source target =>
    cases found : files source <;> simp [perform, FileServes, FileRequest.MayFail, found]
  | removeFile path =>
    rcases found : files path with _ | ⟨bytes⟩ | _ <;>
      simp [perform, FileServes, FileRequest.MayFail, found]

/-- A file that is no text, beside one that was set aside earlier. -/
def damaged : Files := fun path =>
  if path = ⟨"/s"⟩ then some (.file [255])
  else if path = ⟨"/s.broken"⟩ then some (.file [1])
  else none

theorem readOrSetAside_keeps_damaged :
    ((readOrSetAside ⟨"/s"⟩ "counter" Except.ok).exec perform damaged).1 =
        .ok (.setAside ("The counter file was unreadable (it is not valid UTF-8); it was kept " ++
          "as s.broken.1 and a new one was started") false) ∧
      ∃ loaded, ((readOrSetAside ⟨"/s"⟩ "counter" Except.ok).exec perform damaged).1 =
          .ok loaded ∧
        Kept damaged ((readOrSetAside ⟨"/s"⟩ "counter" Except.ok).exec perform damaged).2 ⟨"/s"⟩
          Except.ok loaded :=
  ⟨by decide, (readOrSetAside_keeps damaged _ ⟨"/s"⟩ "counter" Except.ok _
    (runs_exec serves_perform _ damaged)).1⟩

end StateFiles

end Porthmos
