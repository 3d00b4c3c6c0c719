import Porthmos.CheckedNumbers
import Porthmos.S3Fs

/-!
# The ranges of a large copy

An object that is too large for one copy is copied in parts inside the store.  The ranges of the
parts are made by a loop over machine numbers, and the store numbers the parts and takes a limited
number of them.
-/

namespace Porthmos

namespace S3Fs

open Program

/-- The largest object of the store, five TiB. -/
def largestObject : Nat := 5 * 1024 * 1024 * 1024 * 1024

/-- Ranges of first and last bytes that a store takes as the parts of an object. -/
structure AreParts (size part : Nat) (ranges : List (Nat × Nat)) : Prop where
  begins : ranges.head?.map Prod.fst = some 0
  ends : ranges.getLast?.map Prod.snd = some (size - 1)
  follow : ranges.IsChain fun earlier later => later.1 = earlier.2 + 1
  notEmpty : ∀ range ∈ ranges, range.1 ≤ range.2
  short : ∀ range ∈ ranges, range.2 - range.1 + 1 ≤ part
  few : ranges.length ≤ maxParts

/-- A copied part has a number that the store has. -/
def hasNumber : {β : Type} → S3Request β → Prop
  | _, .copyPart _ _ _ _ number _ _ => 1 ≤ number ∧ number ≤ maxParts
  | _, _ => True

def anyAnswer : Program.Fits S3Request := fun _ _ => True

namespace Machine

open Checked

/-- The ranges that the loop of `copy_ranges` adds from a start on, if it ends within the rounds. -/
def copyRangesFrom (size part : Nat) : Nat → Nat → Checked (List (Nat × Nat))
  | 0, _ => nothing
  | rounds + 1, start =>
    if start < size then do
      let reach ← u64 (start + part)
      let last ← difference (min reach size) 1
      let next ← u64 (last + 1)
      let ranges ← copyRangesFrom size part rounds next
      pure ((start, last) :: ranges)
    else pure []

def copyRanges (rounds size part : Nat) : Checked (List (Nat × Nat)) :=
  copyRangesFrom size part rounds 0

end Machine

/-! ### The loop -/

def rangeAt (size part index : Nat) : Nat × Nat := (index * part, min ((index + 1) * part) size - 1)

theorem copyRangesFrom_step {size part start : Nat} (rounds : Nat) (begun : start < size)
    (fits : size + part < 2 ^ 64) (positive : 0 < part) :
    Machine.copyRangesFrom size part (rounds + 1) start = (do
      let ranges ← Machine.copyRangesFrom size part rounds (min (start + part) size)
      pure ((start, min (start + part) size - 1) :: ranges)) := by
  have reaches : Checked.u64 (start + part) = .value (start + part) :=
    Checked.unsigned_of (by omega)
  have last : Checked.difference (min (start + part) size) 1 =
      .value (min (start + part) size - 1) := Checked.difference_of (by omega)
  have next : Checked.u64 (min (start + part) size - 1 + 1) = .value (min (start + part) size) := by
    rw [Nat.sub_add_cancel (by omega)]
    exact Checked.unsigned_of (by omega)
  rw [Machine.copyRangesFrom, if_pos begun, reaches, Checked.value_bind, last, Checked.value_bind,
    next, Checked.value_bind]

theorem copyRangesFrom_eq {size part : Nat} (positive : 0 < part) (fits : size + part < 2 ^ 64)
    (count : Nat) {rounds index : Nat} (enough : count < rounds)
    (isCount : index + count = (size + part - 1) / part) :
    Machine.copyRangesFrom size part rounds (min (index * part) size) =
      .value ((List.range' index count).map (rangeAt size part)) := by
  induction count generalizing rounds index with
  | zero =>
    obtain ⟨rounds, rfl⟩ := Nat.exists_eq_succ_of_ne_zero (Nat.ne_of_gt enough)
    have isLast := Nat.lt_mul_div_succ (size + part - 1) positive
    have distributes := Nat.mul_add_one part index
    rw [← isCount, Nat.add_zero, Nat.mul_comm part] at isLast
    have ended : ¬ min (index * part) size < size := by
      rw [Nat.add_one_mul] at isLast
      omega
    rw [Machine.copyRangesFrom, if_neg ended]
    rfl
  | succ count ih =>
    obtain ⟨rounds, rfl⟩ := Nat.exists_eq_succ_of_ne_zero (Nat.ne_of_gt (Nat.zero_lt_of_lt enough))
    have isNext : (index + 1) * part ≤ size + part - 1 :=
      (Nat.le_div_iff_mul_le positive).mp (by omega)
    have further := Nat.add_one_mul index part
    have begun : index * part < size := by omega
    rw [Nat.min_eq_left begun.le, copyRangesFrom_step rounds begun fits positive, ← further,
      ih (by omega) (by omega), Checked.value_bind, List.range'_succ, List.map_cons]
    rfl

theorem machine_copyRanges_eq {size part rounds : Nat} (positive : 0 < part)
    (fits : size + part < 2 ^ 64) (enough : (size + part - 1) / part < rounds) :
    Machine.copyRanges rounds size part = .value (copyRanges size part) := by
  have loop := copyRangesFrom_eq positive fits _ enough (Nat.zero_add _ : 0 + _ = _)
  rw [Nat.zero_mul, Nat.zero_min, ← List.range_eq_range'] at loop
  exact loop

/-! ### The parts -/

variable {size part : Nat}

theorem length_copyRanges (size part : Nat) :
    (copyRanges size part).length = (size + part - 1) / part := by
  rw [copyRanges, List.length_map, List.length_range]

theorem length_copyRanges_le_iff (positive : 0 < part) (count : Nat) :
    (copyRanges size part).length ≤ count ↔ size ≤ count * part := by
  rw [length_copyRanges, Nat.div_le_iff_le_mul_add_pred positive, Nat.mul_comm part]
  omega

theorem getElem?_copyRanges (size part index : Nat) : (copyRanges size part)[index]? =
      if index < (size + part - 1) / part then some (rangeAt size part index) else none := by
  by_cases inside : index < (size + part - 1) / part
  · rw [if_pos inside, copyRanges, List.getElem?_map, List.getElem?_range inside]
    rfl
  · rw [if_neg inside, List.getElem?_eq_none]
    rw [length_copyRanges]
    exact not_lt.mp inside

theorem start_lt (positive : 0 < part) {index : Nat} (inside : index < (size + part - 1) / part) :
    index * part < size := by
  have further : (index + 1) * part ≤ size + part - 1 := (Nat.le_div_iff_mul_le positive).mp inside
  rw [Nat.add_one_mul] at further
  omega

theorem mem_copyRanges {range : Nat × Nat} (member : range ∈ copyRanges size part) :
    ∃ index < (size + part - 1) / part, rangeAt size part index = range := by
  obtain ⟨index, inside, isRange⟩ := List.mem_map.mp member
  exact ⟨index, List.mem_range.mp inside, isRange⟩

theorem areParts_copyRanges (notEmpty : 0 < size) (positive : 0 < part)
    (few : size ≤ maxParts * part) : AreParts size part (copyRanges size part) where
  begins := by
    have begun : 0 < (size + part - 1) / part := Nat.div_pos (by omega) positive
    rw [List.head?_eq_getElem?, getElem?_copyRanges, if_pos begun]
    simp [rangeAt]
  ends := by
    have begun : 0 < (size + part - 1) / part := Nat.div_pos (by omega) positive
    have whole : size ≤ (size + part - 1) / part * part := by
      rw [← length_copyRanges_le_iff positive, length_copyRanges]
    rw [List.getLast?_eq_getElem?, length_copyRanges, getElem?_copyRanges, if_pos (by omega)]
    simp only [rangeAt, Nat.sub_add_cancel begun, Nat.min_eq_right whole, Option.map_some]
  follow := by
    rw [List.isChain_iff_getElem]
    intro index inside
    rw [length_copyRanges] at inside
    have begun := start_lt positive inside
    have distributes := Nat.add_one_mul index part
    simp only [copyRanges, List.getElem_map, List.getElem_range]
    omega
  notEmpty := by
    intro range member
    obtain ⟨index, inside, rfl⟩ := mem_copyRanges member
    have begun := start_lt positive inside
    have distributes := Nat.add_one_mul index part
    simp only [rangeAt]
    omega
  short := by
    intro range member
    obtain ⟨index, inside, rfl⟩ := mem_copyRanges member
    have begun := start_lt positive inside
    have distributes := Nat.add_one_mul index part
    simp only [rangeAt]
    omega
  few := (length_copyRanges_le_iff positive maxParts).mpr few

theorem copyRangesOf_numbered {bucket source target id : String} {path : Path}
    (ranges : List ((Nat × Nat) × Nat)) (parts : List (Nat × String))
    (numbered : ∀ entry ∈ ranges, entry.2 + 1 ≤ maxParts) :
    (copyRangesOf bucket source target id path parts ranges).Meets hasNumber anyAnswer
      (onOk fun _ => True) := by
  induction ranges generalizing parts with
  | nil =>
    apply (meets_send trivial).andThen
    intro _ _
    exact (meets_send trivial).mono fun result _ => by cases result <;> trivial
  | cons entry ranges ih =>
    have isNumber := numbered entry List.mem_cons_self
    rw [copyRangesOf]
    apply Meets.andThen (meets_send ⟨Nat.le_add_left 1 _, isNumber⟩)
    intro etag _
    cases etag with
    | none => trivial
    | some etag => exact ih _ fun other member => numbered other (List.mem_cons_of_mem _ member)

theorem zipIdx_numbered {ranges : List (Nat × Nat)} (few : ranges.length ≤ maxParts) :
    ∀ entry ∈ ranges.zipIdx, entry.2 + 1 ≤ maxParts := by
  intro entry member
  have inside := List.snd_lt_of_mem_zipIdx member
  rw [Nat.add_zero] at inside
  exact Nat.le_trans inside few

theorem copyParts_numbered (bucket source target id : String) (path : Path)
    (few : (copyRanges size copyPartSize).length ≤ maxParts) :
    (copyParts bucket source target id size path).Meets hasNumber anyAnswer
      (onOk fun _ => True) := by
  rw [copyParts]
  exact copyRangesOf_numbered _ [] (zipIdx_numbered few)

theorem copyPartSize_pos : 0 < copyPartSize := by
  decide

theorem machine_copyRanges_stored (stored : size ≤ largestObject) {rounds : Nat}
    (enough : size < rounds) :
    Machine.copyRanges rounds size copyPartSize = .value (copyRanges size copyPartSize) := by
  apply machine_copyRanges_eq copyPartSize_pos
  · simp only [largestObject, copyPartSize] at *
    omega
  · apply Nat.lt_of_le_of_lt _ enough
    rw [← length_copyRanges, length_copyRanges_le_iff copyPartSize_pos]
    exact Nat.le_mul_of_pos_right size copyPartSize_pos

theorem le_of_areParts (stored : size ≤ largestObject) {ranges : List (Nat × Nat)}
    (isRanges : ∀ rounds, size < rounds →
      Machine.copyRanges rounds size copyPartSize = .value ranges)
    (areParts : AreParts size copyPartSize ranges) : size ≤ maxParts * copyPartSize := by
  have runs := machine_copyRanges_stored stored (Nat.lt_succ_self size)
  rw [isRanges _ (Nat.lt_succ_self size), Checked.value.injEq] at runs
  rw [← length_copyRanges_le_iff copyPartSize_pos, ← runs]
  exact areParts.few

/-- A large object that the store has is copied as the store takes it, if and only if the parts
that are allowed hold it. -/
theorem copyParts_withinLimits_iff (large : copyLimit < size) (stored : size ≤ largestObject) :
    ((∃ ranges, (∀ rounds, size < rounds →
          Machine.copyRanges rounds size copyPartSize = .value ranges) ∧
        AreParts size copyPartSize ranges) ∧
      ∀ bucket source target id path,
        (copyParts bucket source target id size path).Meets hasNumber anyAnswer
          (onOk fun _ => True)) ↔
      size ≤ maxParts * copyPartSize := by
  constructor
  · rintro ⟨⟨ranges, isRanges, areParts⟩, -⟩
    exact le_of_areParts stored isRanges areParts
  · intro few
    have areParts := areParts_copyRanges (Nat.zero_lt_of_lt large) copyPartSize_pos few
    exact ⟨⟨_, fun rounds enough => machine_copyRanges_stored stored enough, areParts⟩,
      fun bucket source target id path =>
        copyParts_numbered bucket source target id path areParts.few⟩

theorem copyParts_withinLimits_sixGiB :
    (∃ ranges, (∀ rounds, 6442450944 < rounds →
          Machine.copyRanges rounds 6442450944 copyPartSize = .value ranges) ∧
        AreParts 6442450944 copyPartSize ranges) ∧
      ∀ bucket source target id path,
        (copyParts bucket source target id 6442450944 path).Meets hasNumber anyAnswer
          (onOk fun _ => True) :=
  (copyParts_withinLimits_iff (by decide) (by decide)).mpr (by decide)

/-- The largest object has 240 parts too many. -/
theorem copyParts_beyondLimits : copyLimit < largestObject ∧ ¬ ∃ ranges,
    (∀ rounds, largestObject < rounds →
      Machine.copyRanges rounds largestObject copyPartSize = .value ranges) ∧
    AreParts largestObject copyPartSize ranges := by
  constructor
  · decide
  · rintro ⟨ranges, isRanges, areParts⟩
    exact absurd (le_of_areParts (le_refl largestObject) isRanges areParts) (by decide)

end S3Fs

end Porthmos
