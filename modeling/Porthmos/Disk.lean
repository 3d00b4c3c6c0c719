import Mathlib.Order.Basic

/-!
# Files that several writers share

A directory gives names to files, and a file is a list of letters.  Who has opened a file writes
into the file and not into the name: it keeps its file, and its own place in it, whatever is
renamed or emptied meanwhile.  A file that is opened for writing under its name is emptied, or
made when there is none.
-/

/-- A directory and the files that it names or has named. -/
structure Disk (name letter : Type*) where
  entries : name → Option Nat
  files : Nat → List letter
  /-- No file from here on has been made. -/
  unused : Nat
  made : ∀ place file, entries place = some file → file < unused

namespace Disk

variable {name letter : Type*} (disk : Disk name letter)

/-- The letters of the file with this name. -/
def read (place : name) : Option (List letter) := (disk.entries place).map disk.files

def empty : Disk name letter where
  entries _ := none
  files _ := []
  unused := 0
  made _ _ named := nomatch named

def setFile (file : Nat) (letters : List letter) : Disk name letter :=
  { disk with files := Function.update disk.files file letters }

/-- No file has two names. -/
def Distinct : Prop :=
  ∀ first second file, disk.entries first = some file → disk.entries second = some file →
    first = second

/-- Write at a place in an open file.  A file that ends before it is filled up with `blank`. -/
def writeAt (blank : letter) (file offset : Nat) (letters : List letter) : Disk name letter :=
  disk.setFile file
    (((disk.files file ++ List.replicate (offset - (disk.files file).length) blank).take offset) ++
      letters ++ (disk.files file).drop (offset + letters.length))

@[simp]
theorem entries_setFile (file : Nat) (letters : List letter) :
    (disk.setFile file letters).entries = disk.entries :=
  rfl

theorem read_setFile_of_other {file : Nat} {place : name} (letters : List letter)
    (other : disk.entries place ≠ some file) :
    (disk.setFile file letters).read place = disk.read place := by
  unfold read
  rw [entries_setFile]
  cases named : disk.entries place with
  | none => rfl
  | some found =>
    have differs : found ≠ file := by
      rintro rfl
      exact other named
    have same : (disk.setFile file letters).files found = disk.files found := by
      unfold setFile
      exact Function.update_of_ne differs _ _
    exact congrArg some same

theorem read_writeAt_of_other {file : Nat} {place : name} (blank : letter) (offset : Nat)
    (letters : List letter) (other : disk.entries place ≠ some file) :
    (disk.writeAt blank file offset letters).read place = disk.read place :=
  disk.read_setFile_of_other _ other

theorem files_writeAt_end (blank : letter) {file : Nat} {written : List letter}
    (reached : disk.files file = written) (letters : List letter) :
    (disk.writeAt blank file written.length letters).files file = written ++ letters := by
  unfold writeAt setFile
  simp [reached]

section Names

variable [DecidableEq name]

/-- Open for writing: the file with this name is emptied, or a new one gets the name. -/
def create (place : name) : Nat × Disk name letter :=
  match disk.entries place with
  | some file => (file, disk.setFile file [])
  | none =>
    (disk.unused,
      { entries := Function.update disk.entries place (some disk.unused)
        files := Function.update disk.files disk.unused []
        unused := disk.unused + 1
        made := by
          intro other file named
          rw [Function.update_apply] at named
          split_ifs at named with same
          · cases named
            omega
          · have := disk.made other file named
            omega })

/-- Rename the file `source`; what `target` named has no name any more.  Without `source` the call
fails. -/
def rename (source target : name) : Option (Disk name letter) :=
  match named : disk.entries source with
  | none => none
  | some file =>
    some
      { disk with
        entries := Function.update (Function.update disk.entries source none) target (some file)
        made := by
          intro other found named'
          rw [Function.update_apply, Function.update_apply] at named'
          split_ifs at named'
          · cases named'
            exact disk.made source file named
          · exact disk.made other found named' }

theorem files_create (place : name) : (disk.create place).2.files (disk.create place).1 = [] := by
  unfold create
  split <;> simp [setFile]

theorem entries_create (place : name) : (disk.create place).2.entries =
      Function.update disk.entries place (some (disk.create place).1) := by
  unfold create
  split
  next file named =>
    funext other
    rw [entries_setFile, Function.update_apply]
    split_ifs with same
    · rw [same, named]
    · rfl
  next => rfl

theorem read_create_of_ne (distinct : disk.Distinct) {place other : name} (ne : other ≠ place) :
    (disk.create place).2.read other = disk.read other := by
  unfold create
  split
  next file named =>
    apply read_setFile_of_other
    intro named'
    exact ne (distinct other place file named' named)
  next =>
    unfold read
    dsimp only
    rw [Function.update_of_ne ne]
    cases named : disk.entries other with
    | none => rfl
    | some file =>
      have older : file ≠ disk.unused := Nat.ne_of_lt (disk.made other file named)
      exact congrArg some (Function.update_of_ne older [] disk.files)

theorem distinct_create (distinct : disk.Distinct) (place : name) :
    (disk.create place).2.Distinct := by
  intro first second file
  rw [entries_create, Function.update_apply, Function.update_apply]
  -- The opened file has the name already, or it is a new one.
  have only (other : name) (file : Nat) (opened : some (disk.create place).1 = some file)
      (named : disk.entries other = some file) : other = place := by
    unfold create at opened
    split at opened
    next found isNamed => exact distinct other place file named (isNamed.trans opened)
    next =>
      have older := disk.made other file named
      cases opened
      omega
  split_ifs with firstHere secondHere secondHere
  · intros
    exact firstHere.trans secondHere.symm
  · intro opened named
    exact firstHere.trans (only second file opened named).symm
  · intro named opened
    exact (only first file opened named).trans secondHere.symm
  · exact distinct first second file

variable {disk}

theorem rename_spec {source target : name} {after : Disk name letter}
    (renamed : disk.rename source target = some after) :
    ∃ file, disk.entries source = some file ∧ after.files = disk.files ∧ after.entries =
        Function.update (Function.update disk.entries source none) target (some file) := by
  unfold rename at renamed
  split at renamed
  next => cases renamed
  next file named =>
    cases renamed
    exact ⟨file, named, rfl, rfl⟩

theorem read_rename {source target : name} {after : Disk name letter}
    (renamed : disk.rename source target = some after) :
    after.read target = disk.read source := by
  obtain ⟨file, named, files, entries⟩ := rename_spec renamed
  unfold read
  rw [entries, files, named, Function.update_self]

theorem distinct_rename (distinct : disk.Distinct) {source target : name}
    {after : Disk name letter} (renamed : disk.rename source target = some after) :
    after.Distinct := by
  obtain ⟨file, named, -, entries⟩ := rename_spec renamed
  intro first second found
  rw [entries]
  simp only [Function.update_apply]
  -- Besides the target only the source had this file.
  have only (other : name) (here : other ≠ target) (left : other ≠ source)
      (isFile : some file = some found) (hasIt : disk.entries other = some found) : False := by
    cases isFile
    exact left (distinct other source file hasIt named)
  split_ifs with a b c d e f g <;> intro x y
  · exact a.trans b.symm
  · cases y
  · exact (only second b c x y).elim
  · cases x
  · cases x
  · cases x
  · exact (only first a d y x).elim
  · cases y
  · exact distinct first second found x y

theorem rename_isSome {source : name} (target : name) {file : Nat}
    (named : disk.entries source = some file) : (disk.rename source target).isSome := by
  unfold rename
  split
  next absent => rw [named] at absent; cases absent
  next => rfl

end Names

end Disk
