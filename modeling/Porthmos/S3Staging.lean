import Porthmos.S3Locate
import Mathlib.Algebra.GroupWithZero.Nat
import Mathlib.Data.List.TakeWhile

/-!
# Staged uploads

A `.part` file in a bucket is a multipart upload that is not complete.  How far it has come is read
off the parts that the server lists: the full ones count, from the first on.
-/

namespace Porthmos

def partSize : Nat := 16 * 1024 * 1024

def maxParts : Nat := 10000

structure Upload where
  key : String
  id : String
  initiated : Option Nat
  deriving DecidableEq, Repr

structure UploadPart where
  number : Nat
  size : Nat
  etag : String
  modified : Option Nat
  deriving DecidableEq, Repr

/-- `Progress` of an upload. -/
structure UploadProgress where
  last : Nat
  size : Nat
  modified : Option Nat
  deriving DecidableEq, Repr

inductive UploadStart
  | resume (id : String) (nextPart : Nat)
  | restart
  deriving DecidableEq, Repr

/-- The parts numbered from one on without a gap. -/
def inOrder (parts : List UploadPart) : List UploadPart :=
  let sorted := parts.mergeSort fun first second => decide (first.number ≤ second.number)
  (sorted.zipIdx.takeWhile fun (part, index) => part.number = index + 1).map Prod.fst

def contiguous (parts : List UploadPart) : UploadProgress :=
  let full := (inOrder parts).takeWhile fun part => part.size = partSize
  { last := (full.getLast?.map UploadPart.number).getD 0
    size := (full.map UploadPart.size).sum
    modified := (full.filterMap UploadPart.modified).max? }

def completed (parts : List UploadPart) : List (Nat × String) :=
  (inOrder parts).map fun part => (part.number, part.etag)

/-- `None` comes before every time. -/
def initiatedLe (first second : Upload) : Bool :=
  match first.initiated, second.initiated with
  | none, _ => true
  | some _, none => false
  | some before, some after => before ≤ after

/-- `newest`: of several latest uploads the last one. -/
def newest (uploads : List Upload) (key : String) : Option Upload :=
  (uploads.filter fun upload => upload.key = key).foldl
    (fun best upload =>
      match best with
      | none => some upload
      | some found => if initiatedLe found upload then some upload else some found)
    none

def decideStart (offset : Nat) (found : Option (String × UploadProgress)) : UploadStart :=
  match found with
  | some (id, progress) =>
    if offset > 0 ∧ progress.size = offset then .resume id (progress.last + 1) else .restart
  | none => .restart

theorem newest_mem {uploads : List Upload} {key : String} {upload : Upload}
    (found : newest uploads key = some upload) : upload ∈ uploads ∧ upload.key = key := by
  have either (start : Option Upload) (list : List Upload) (isLast : list.foldl (fun best upload =>
        match best with
        | none => some upload
        | some found => if initiatedLe found upload then some upload else some found) start =
          some upload) : start = some upload ∨ upload ∈ list := by
    induction list generalizing start with
    | nil => exact Or.inl isLast
    | cons first rest ih =>
      rcases ih _ isLast with here | later
      · cases start with
        | none =>
          cases here
          exact Or.inr List.mem_cons_self
        | some best =>
          dsimp only at here
          split_ifs at here
          · cases here
            exact Or.inr List.mem_cons_self
          · exact Or.inl here
      · exact Or.inr (List.mem_cons_of_mem _ later)
  rcases either none _ found with absent | member
  · cases absent
  · simpa using member

theorem newest_isSome {uploads : List Upload} {key : String} {upload : Upload}
    (member : upload ∈ uploads) (isKey : upload.key = key) : (newest uploads key).isSome := by
  have stays (start : Option Upload) (list : List Upload)
      (some : start.isSome ∨ list ≠ []) : (list.foldl (fun best upload =>
        match best with
        | none => Option.some upload
        | Option.some found =>
          if initiatedLe found upload then Option.some upload else Option.some found)
        start).isSome := by
    induction list generalizing start with
    | nil => exact some.resolve_right fun empty => empty rfl
    | cons first rest ih =>
      apply ih
      left
      cases start with
      | none => rfl
      | some best =>
        dsimp only
        split_ifs <;> rfl
  apply stays
  right
  exact List.ne_nil_of_mem (List.mem_filter.mpr ⟨member, decide_eq_true isKey⟩)

/-! ### What a list of parts shows -/

theorem mem_of_mem_inOrder {parts : List UploadPart} {part : UploadPart}
    (member : part ∈ inOrder parts) : part ∈ parts := by
  obtain ⟨⟨found, index⟩, inRun, rfl⟩ := List.mem_map.mp member
  have inSorted := List.fst_mem_of_mem_zipIdx ((List.takeWhile_sublist _).subset inRun)
  exact List.mem_mergeSort.mp inSorted

theorem numbers_inOrder (parts : List UploadPart) :
    (inOrder parts).map UploadPart.number = List.range' 1 (inOrder parts).length := by
  have counted (sorted : List UploadPart) (start : Nat) :
      (((sorted.zipIdx start).takeWhile fun (part, index) =>
          decide (part.number = index + 1)).map Prod.fst).map UploadPart.number =
        List.range' (start + 1) (((sorted.zipIdx start).takeWhile fun (part, index) =>
          decide (part.number = index + 1)).map Prod.fst).length := by
    induction sorted generalizing start with
    | nil => rfl
    | cons part rest ih =>
      rw [List.zipIdx_cons, List.takeWhile_cons]
      split_ifs with isNext
      · have number : part.number = start + 1 := by simpa using isNext
        simp [List.range'_succ, number, ih (start + 1)]
      · rfl
  exact counted _ 0

/-- In a list that goes up, every run of wanted numbers is found. -/
theorem le_length_run (good : UploadPart → Bool) (sorted : List UploadPart) (start count : Nat)
    (increases : sorted.Pairwise fun first second => first.number < second.number)
    (above : ∀ part ∈ sorted, start < part.number)
    (present : ∀ number, start < number → number ≤ start + count →
      ∃ part ∈ sorted, part.number = number ∧ good part = true) :
    count ≤ ((((sorted.zipIdx start).takeWhile fun (part, index) =>
      decide (part.number = index + 1)).map Prod.fst).takeWhile good).length := by
  induction sorted generalizing start count with
  | nil =>
    cases count with
    | zero => exact Nat.zero_le _
    | succ count =>
      obtain ⟨_, member, _⟩ := present (start + 1) (by omega) (by omega)
      cases member
  | cons part rest ih =>
    cases count with
    | zero => exact Nat.zero_le _
    | succ count =>
      obtain ⟨later, fromPart⟩ := List.pairwise_cons.mp increases |>.symm
      obtain ⟨found, member, isNumber, isGood⟩ := present (start + 1) (by omega) (by omega)
      have isFirst : found = part := by
        rcases List.mem_cons.mp member with same | inRest
        · exact same
        · have least := above part List.mem_cons_self
          have beyond := fromPart found inRest
          omega
      subst isFirst
      have goesOn : count ≤ ((((rest.zipIdx (start + 1)).takeWhile fun (part, index) =>
          decide (part.number = index + 1)).map Prod.fst).takeWhile good).length := by
        apply ih (start + 1) count later
        · intro other inRest
          have beyond := fromPart other inRest
          omega
        · intro number beyond within
          obtain ⟨other, isOther, numbered, good⟩ := present number (by omega) (by omega)
          rcases List.mem_cons.mp isOther with rfl | inRest
          · omega
          · exact ⟨other, inRest, numbered, good⟩
      rw [List.zipIdx_cons, List.takeWhile_cons_of_pos (by simpa using isNumber), List.map_cons,
        List.takeWhile_cons_of_pos isGood, List.length_cons]
      omega

/-- The full parts that count. -/
def fullParts (parts : List UploadPart) : List UploadPart :=
  (inOrder parts).takeWhile fun part => part.size = partSize

theorem numbers_fullParts (parts : List UploadPart) :
    (fullParts parts).map UploadPart.number = List.range' 1 (fullParts parts).length := by
  have isPrefix : fullParts parts <+: inOrder parts := List.takeWhile_prefix _
  have numbered := isPrefix.map UploadPart.number
  rw [numbers_inOrder, List.prefix_iff_eq_take, List.length_map] at numbered
  exact numbered.trans (List.take_range'_of_length_ge isPrefix.length_le)

theorem contiguous_last (parts : List UploadPart) :
    (contiguous parts).last = (fullParts parts).length := by
  change ((fullParts parts).getLast?.map UploadPart.number).getD 0 = _
  rw [← List.getLast?_map, numbers_fullParts, List.getLast?_range']
  split_ifs with empty
  · exact empty.symm
  · change 1 + (fullParts parts).length - 1 = _
    omega

theorem contiguous_size (parts : List UploadPart) :
    (contiguous parts).size = (contiguous parts).last * partSize := by
  rw [contiguous_last]
  change ((fullParts parts).map UploadPart.size).sum = _
  have sizes : (fullParts parts).map UploadPart.size =
      List.replicate (fullParts parts).length partSize := by
    apply List.eq_replicate_iff.mpr
    constructor
    · exact List.length_map _
    · intro size member
      obtain ⟨part, inFull, rfl⟩ := List.mem_map.mp member
      simpa using List.mem_takeWhile_imp inFull
  rw [sizes]
  exact List.sum_replicate_nat

theorem full_of_le_contiguous {parts : List UploadPart} {number : Nat} (positive : 1 ≤ number)
    (within : number ≤ (contiguous parts).last) :
    ∃ part ∈ parts, part.number = number ∧ part.size = partSize := by
  rw [contiguous_last] at within
  have member : number ∈ (fullParts parts).map UploadPart.number := by
    rw [numbers_fullParts, List.mem_range'_1]
    omega
  obtain ⟨part, inFull, isNumber⟩ := List.mem_map.mp member
  have isFull : part.size = partSize := by simpa using List.mem_takeWhile_imp inFull
  exact ⟨part, mem_of_mem_inOrder ((List.takeWhile_prefix _).subset inFull), isNumber, isFull⟩

/-- Each part is listed once, with a number from one on. -/
structure Numbered (parts : List UploadPart) : Prop where
  distinct : (parts.map UploadPart.number).Nodup
  positive : ∀ part ∈ parts, 1 ≤ part.number

theorem Numbered.le_length (numbered : Numbered parts) (good : UploadPart → Bool) {count : Nat}
    (present : ∀ number, 1 ≤ number → number ≤ count →
      ∃ part ∈ parts, part.number = number ∧ good part = true) :
    count ≤ ((inOrder parts).takeWhile good).length := by
  have isPerm := List.mergeSort_perm parts fun first second => decide (first.number ≤ second.number)
  apply le_length_run good _ 0 count
  · have goesUp : (parts.mergeSort fun first second =>
        decide (first.number ≤ second.number)).Pairwise fun first second =>
          decide (first.number ≤ second.number) = true := by
      apply List.pairwise_mergeSort
      · intro first second third
        simp
        omega
      · intro first second
        simp
        omega
    have apart : (parts.mergeSort fun first second =>
        decide (first.number ≤ second.number)).Pairwise fun first second =>
          first.number ≠ second.number :=
      List.pairwise_map.mp ((isPerm.map UploadPart.number).nodup_iff.mpr numbered.distinct)
    apply (goesUp.and apart).imp
    rintro first second ⟨atMost, different⟩
    have atMost : first.number ≤ second.number := by simpa using atMost
    omega
  · intro part member
    exact numbered.positive part (isPerm.subset member)
  · intro number positive within
    obtain ⟨part, member, found⟩ := present number positive (by omega)
    exact ⟨part, isPerm.symm.subset member, found⟩

theorem Numbered.le_contiguous_last (numbered : Numbered parts) {count : Nat}
    (full : ∀ number, 1 ≤ number → number ≤ count →
      ∃ part ∈ parts, part.number = number ∧ part.size = partSize) :
    count ≤ (contiguous parts).last := by
  rw [contiguous_last]
  apply numbered.le_length fun part => part.size = partSize
  simpa using full

theorem Numbered.completed_numbers (numbered : Numbered parts) {last : Nat}
    (within : ∀ part ∈ parts, part.number ≤ last)
    (present : ∀ number, 1 ≤ number → number ≤ last → ∃ part ∈ parts, part.number = number) :
    (completed parts).map Prod.fst = List.range' 1 last := by
  have numbers : (completed parts).map Prod.fst = (inOrder parts).map UploadPart.number :=
    List.map_map
  have atLeast : last ≤ (inOrder parts).length := by
    apply le_trans _ (List.takeWhile_sublist fun _ => true).length_le
    apply numbered.le_length fun _ => true
    simpa using present
  have atMost : (inOrder parts).length ≤ last := by
    by_cases empty : (inOrder parts).length = 0
    · omega
    · have isLast : (inOrder parts).length ∈ (inOrder parts).map UploadPart.number := by
        rw [numbers_inOrder, List.mem_range'_1]
        omega
      obtain ⟨part, member, isNumber⟩ := List.mem_map.mp isLast
      rw [← isNumber]
      exact within part (mem_of_mem_inOrder member)
  rw [numbers, numbers_inOrder, Nat.le_antisymm atMost atLeast]

end Porthmos
