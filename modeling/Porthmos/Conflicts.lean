import Porthmos.Plan

/-!
# Conflicts and their answers

A planned file is in conflict where something stands at its destination or at its part
file.  The policy or the user answers each conflict, and `resolve` makes of a plan and
its answers the files to copy.  A renamed file gets a name that is not taken in its
directory.
-/

namespace Porthmos

inductive ConflictPolicy
  | ask
  | overwrite
  | skip
  | rename
  deriving DecidableEq, Repr

inductive Resolution
  | overwrite
  | skip
  | rename
  | resume
  deriving DecidableEq, Repr

/-- The answer of the policy to a conflict; `ask` leaves it to the user. -/
def ConflictPolicy.resolutionFor (policy : ConflictPolicy) (file : PlannedFile) :
    Option Resolution :=
  match policy, file.existing with
  | .ask, _ => none
  | _, none =>
    if file.partialFile.any fun part => decide (file.size ≤ part.size) then some .overwrite
    else some .resume
  | .overwrite, some _ => if file.partialFile.isSome then some .resume else some .overwrite
  | .skip, some _ => some .skip
  | .rename, some _ => some .rename

/-! ### Names -/

/-- A name is split before its last dot, unless it starts with it. -/
def splitExtension (name : String) : String × String :=
  let extension := name.toList.reverse.takeWhile fun char => char ≠ '.'
  let stem := name.toList.length - (extension.length + 1)
  if stem = 0 then (name, "")
  else (String.ofList (name.toList.take stem), String.ofList (name.toList.drop stem))

example : splitExtension "a.tar.gz" = ("a.tar", ".gz") := by decide

example : splitExtension ".profile" = (".profile", "") := by decide

/-- The name that `unique_name` tries in a round. -/
def numberedName (name : String) (counter : Nat) : String :=
  (splitExtension name).1 ++ " (" ++ counter.repr ++ ")" ++ (splitExtension name).2

theorem repr_inj {first second : Nat} (same : first.repr = second.repr) : first = second := by
  have digits : Nat.toDigits 10 first = Nat.toDigits 10 second := by
    rw [← Nat.toList_repr, same, Nat.toList_repr]
  rw [← @Nat.ofDigitChars_ten_toDigits first, digits, Nat.ofDigitChars_ten_toDigits]

theorem isDigit_of_mem_repr {number : Nat} {char : Char} (member : char ∈ number.repr.toList) :
    char.isDigit = true := by
  rw [Nat.toList_repr] at member
  exact Nat.isDigit_of_mem_toDigits (by decide) (by decide) member

/-- The first numbered name that is not taken.  One of the first numbers is free, so
that the search is bounded. -/
def uniqueName (name : String) (taken : List String) : String :=
  let candidates := (List.range (taken.length + 1)).map fun round => numberedName name (round + 1)
  (candidates.find? fun candidate => decide (candidate ∉ taken)).getD name

/-! ### What the user is asked -/

structure ConflictInfo where
  displayName : String
  existing : Option ExistingFile
  partialFile : Option ExistingFile
  newSize : Nat
  newModified : Option Nat
  deriving DecidableEq, Repr

/-- `ConflictInfo::from` -/
def PlannedFile.conflictInfo (file : PlannedFile) : ConflictInfo where
  displayName := file.displayName
  existing := file.existing
  partialFile := file.partialFile
  newSize := file.size
  newModified := file.sourceModified

class ConflictSides (file : Type*) where
  existing : file → Option ExistingFile
  partialFile : file → Option ExistingFile

instance : ConflictSides PlannedFile := ⟨PlannedFile.existing, PlannedFile.partialFile⟩

instance : ConflictSides ConflictInfo := ⟨ConflictInfo.existing, ConflictInfo.partialFile⟩

open ConflictSides in
/-- Whether an answer given for one file suits a later file as well. -/
def fitsTheRest {file : Type*} [ConflictSides file] (resolution : Resolution)
    (answered later : file) : Bool :=
  match resolution with
  | .resume => (partialFile later).isSome && !(existing later).any ExistingFile.isDir
  | .overwrite => (existing later).isSome == (existing answered).isSome
  | .rename => (existing later).isSome
  | .skip => true

/-! ### Resolving -/

def conflictIndices (plan : DirectoryPlan) : List Nat :=
  (List.range plan.files.length).filter fun index =>
    (plan.files[index]?).any PlannedFile.isConflict

structure ResolvedPlan where
  files : List PlannedFile
  skipped : Nat
  skippedPartials : Nat
  blockedByFolder : Nat

def ResolvedPlan.copying (resolved : ResolvedPlan) (file : PlannedFile) : ResolvedPlan :=
  { resolved with files := resolved.files ++ [file] }

/-- The file under its new name, and the names taken afterwards. -/
def renameDestination (file : PlannedFile) (taken : TakenNames) : PlannedFile × TakenNames :=
  match file.destination.parent, file.destination.fileName with
  | some parent, some name =>
    let newName := uniqueName name (taken parent.components)
    ({ file with
        destination := parent.join ⟨newName⟩
        displayName := ((Path.mk file.displayName).withFileName newName).text },
      Function.update taken parent.components (newName :: taken parent.components))
  | _, _ => (file, taken)

/-- The loop variables of `resolve`. -/
structure Resolving where
  answers : List Resolution
  taken : TakenNames
  resolved : ResolvedPlan

/-- One round of `resolve`.  An answer that is missing skips the file. -/
def resolveFile (resolving : Resolving) (file : PlannedFile) : Resolving :=
  let resolved := resolving.resolved
  if !file.isConflict then { resolving with resolved := resolved.copying file }
  else
    let blocked := file.existing.any ExistingFile.isDir
    let answer := resolving.answers.headD .skip
    let resolving := { resolving with answers := resolving.answers.tail }
    let blockedOr (copied : PlannedFile) : ResolvedPlan :=
      if blocked then { resolved with blockedByFolder := resolved.blockedByFolder + 1 }
      else resolved.copying copied
    match answer with
    | .resume => { resolving with resolved := blockedOr { file with resume := true } }
    | .overwrite => { resolving with resolved := blockedOr { file with resume := false } }
    | .skip =>
      { resolving with
        resolved :=
          if file.existing.isSome then { resolved with skipped := resolved.skipped + 1 }
          else { resolved with skippedPartials := resolved.skippedPartials + 1 } }
    | .rename =>
      if file.existing.isNone then
        { resolving with resolved := resolved.copying { file with resume := true } }
      else
        let (renamed, taken) := renameDestination file resolving.taken
        { resolving with
          taken := taken
          resolved := resolved.copying { renamed with resume := false } }

def resolve (plan : DirectoryPlan) (answers : List Resolution) : ResolvedPlan :=
  (plan.files.foldl resolveFile ⟨answers, plan.takenNames, ⟨[], 0, 0, 0⟩⟩).resolved

end Porthmos
