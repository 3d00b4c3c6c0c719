import Mathlib.Algebra.BigOperators.Group.List.Basic
import Mathlib.Order.Lattice
import Mathlib.Algebra.GroupWithZero.Nat

/-!
# Finite maps listed in key order

A map is its list of entries in strictly increasing key order, and carries the
proof that it is.  Lookup determines the map, so that two maps are compared
key by key, while iteration reads the entry list directly.  Sums over the
entries change by one summand when one key changes.
-/

namespace OrderedMap

variable {κ α β : Type*} [LinearOrder κ]

/-- Insertion into an entry list that is sorted by key; an entry with the same
key is replaced. -/
def insertEntry (key : κ) (value : α) : List (κ × α) → List (κ × α)
  | [] => [(key, value)]
  | entry :: rest =>
    if key < entry.1 then (key, value) :: entry :: rest
    else if key = entry.1 then (key, value) :: rest
    else entry :: insertEntry key value rest

/-- The value of the first entry with this key. -/
def lookupEntry (key : κ) : List (κ × α) → Option α
  | [] => none
  | entry :: rest =>
    if key = entry.1 then some entry.2 else lookupEntry key rest

@[simp]
theorem insertEntry_nil (key : κ) (value : α) : insertEntry key value [] = [(key, value)] :=
  rfl

theorem insertEntry_cons (key : κ) (value : α) (entry : κ × α) (rest : List (κ × α)) :
    insertEntry key value (entry :: rest) =
      if key < entry.1 then (key, value) :: entry :: rest
      else if key = entry.1 then (key, value) :: rest
      else entry :: insertEntry key value rest :=
  rfl

@[simp]
theorem lookupEntry_nil (key : κ) : lookupEntry key ([] : List (κ × α)) = none :=
  rfl

theorem lookupEntry_cons (key : κ) (entry : κ × α) (rest : List (κ × α)) :
    lookupEntry key (entry :: rest) =
      if key = entry.1 then some entry.2 else lookupEntry key rest :=
  rfl

def Sorted (entries : List (κ × α)) : Prop :=
  entries.Pairwise fun first second => first.1 < second.1

theorem mem_insertEntry {key : κ} {value : α} {entry : κ × α} {entries : List (κ × α)}
    (member : entry ∈ insertEntry key value entries) :
    entry = (key, value) ∨ entry ∈ entries := by
  induction entries with
  | nil => simpa using member
  | cons head rest ih =>
    rw [insertEntry_cons] at member
    split_ifs at member with before same <;> grind

theorem sorted_insertEntry (key : κ) (value : α) {entries : List (κ × α)}
    (sorted : Sorted entries) : Sorted (insertEntry key value entries) := by
  induction entries with
  | nil => simp [Sorted]
  | cons head rest ih =>
    obtain ⟨headBefore, restSorted⟩ := List.pairwise_cons.mp sorted
    rw [insertEntry_cons]
    split_ifs with before same
    · refine List.pairwise_cons.mpr ⟨?_, sorted⟩
      intro entry member
      rcases List.mem_cons.mp member with rfl | later
      · exact before
      · exact before.trans (headBefore entry later)
    · refine List.pairwise_cons.mpr ⟨?_, restSorted⟩
      intro entry member
      exact same ▸ headBefore entry member
    · refine List.pairwise_cons.mpr ⟨?_, ih restSorted⟩
      intro entry member
      rcases mem_insertEntry member with rfl | later
      · exact lt_of_le_of_ne (not_lt.mp before) (Ne.symm same)
      · exact headBefore entry later

theorem lookupEntry_insertEntry (key other : κ) (value : α) (entries : List (κ × α)) :
    lookupEntry other (insertEntry key value entries) =
      if other = key then some value else lookupEntry other entries := by
  induction entries with
  | nil => simp [lookupEntry_cons]
  | cons head rest ih =>
    rw [insertEntry_cons]
    split_ifs with before same <;> grind [lookupEntry_cons]

theorem lookupEntry_eq_none {key : κ} {entries : List (κ × α)}
    (absent : ∀ entry ∈ entries, entry.1 ≠ key) : lookupEntry key entries = none := by
  induction entries with
  | nil => rfl
  | cons head rest ih => grind [lookupEntry_cons]

theorem lookupEntry_eq_some_iff {key : κ} {value : α} {entries : List (κ × α)}
    (sorted : Sorted entries) :
    lookupEntry key entries = some value ↔ (key, value) ∈ entries := by
  induction entries with
  | nil => simp
  | cons head rest ih =>
    obtain ⟨headBefore, restSorted⟩ := List.pairwise_cons.mp sorted
    rw [lookupEntry_cons, List.mem_cons]
    split_ifs with same
    · subst same
      constructor
      · rintro ⟨⟩
        exact Or.inl rfl
      · rintro (equal | later)
        · rw [← equal]
        · exact absurd (headBefore _ later) (lt_irrefl _)
    · rw [ih restSorted]
      constructor
      · exact Or.inr
      · rintro (equal | later)
        · exact absurd (congrArg Prod.fst equal) same
        · exact later

end OrderedMap

/-- A finite map with its entries in strictly increasing key order. -/
structure OrderedMap (κ α : Type*) [LinearOrder κ] where
  entries : List (κ × α)
  sorted : OrderedMap.Sorted entries

/-- A finite set listed in increasing order. -/
abbrev OrderedSet (κ : Type*) [LinearOrder κ] := OrderedMap κ Unit

namespace OrderedMap

variable {κ α β : Type*} [LinearOrder κ]

def empty : OrderedMap κ α := ⟨[], List.Pairwise.nil⟩

def get? (map : OrderedMap κ α) (key : κ) : Option α := lookupEntry key map.entries

def contains (map : OrderedMap κ α) (key : κ) : Bool := (map.get? key).isSome

def insert (map : OrderedMap κ α) (key : κ) (value : α) : OrderedMap κ α :=
  ⟨insertEntry key value map.entries, sorted_insertEntry key value map.sorted⟩

def erase (map : OrderedMap κ α) (key : κ) : OrderedMap κ α :=
  ⟨map.entries.filter fun entry => decide (entry.1 ≠ key), map.sorted.filter _⟩

/-- Change the value at one key in place. -/
def modify (map : OrderedMap κ α) (key : κ) (change : α → α) : OrderedMap κ α :=
  match map.get? key with
  | none => map
  | some value => map.insert key (change value)

def keys (map : OrderedMap κ α) : List κ := map.entries.map Prod.fst

def values (map : OrderedMap κ α) : List α := map.entries.map Prod.snd

/-- Keep the entries whose value has an image, under their own keys. -/
def filterMap (select : κ → α → Option β) (map : OrderedMap κ α) : OrderedMap κ β where
  entries := map.entries.filterMap fun entry =>
    (select entry.1 entry.2).map fun image => (entry.1, image)
  sorted := by
    refine map.sorted.filterMap _ ?_
    intro first second before firstImage firstMem secondImage secondMem
    simp only [Option.map_eq_some_iff] at firstMem secondMem
    obtain ⟨_, _, rfl⟩ := firstMem
    obtain ⟨_, _, rfl⟩ := secondMem
    exact before

/-- The sum of a weight over all entries. -/
def total (map : OrderedMap κ α) (weight : κ → α → Nat) : Nat :=
  (map.entries.map fun entry => weight entry.1 entry.2).sum

@[simp]
theorem get?_empty (key : κ) : (empty : OrderedMap κ α).get? key = none :=
  rfl

@[simp]
theorem get?_insert (map : OrderedMap κ α) (key other : κ) (value : α) :
    (map.insert key value).get? other = if other = key then some value else map.get? other :=
  lookupEntry_insertEntry key other value map.entries

theorem get?_insert_cases {map : OrderedMap κ α} {key other : κ} {value found : α}
    (isFound : (map.insert key value).get? other = some found) :
    other = key ∧ found = value ∨ other ≠ key ∧ map.get? other = some found := by
  rw [get?_insert] at isFound
  split_ifs at isFound with same
  · exact Or.inl ⟨same, (Option.some.inj isFound).symm⟩
  · exact Or.inr ⟨same, isFound⟩

theorem mem_entries_iff {map : OrderedMap κ α} {key : κ} {value : α} :
    (key, value) ∈ map.entries ↔ map.get? key = some value :=
  (lookupEntry_eq_some_iff map.sorted).symm

theorem ext_get? {first second : OrderedMap κ α}
    (same : ∀ key, first.get? key = second.get? key) : first = second := by
  obtain ⟨firstEntries, firstSorted⟩ := first
  obtain ⟨secondEntries, secondSorted⟩ := second
  have sameMembers : ∀ entry, entry ∈ firstEntries ↔ entry ∈ secondEntries := by
    rintro ⟨key, value⟩
    have lookups : lookupEntry key firstEntries = lookupEntry key secondEntries := same key
    rw [← lookupEntry_eq_some_iff firstSorted, ← lookupEntry_eq_some_iff secondSorted, lookups]
  have nodup {entries : List (κ × α)} (sorted : Sorted entries) : entries.Nodup :=
    sorted.imp fun before equal => absurd (equal ▸ before) (lt_irrefl _)
  have perm : firstEntries.Perm secondEntries :=
    (List.perm_ext_iff_of_nodup (nodup firstSorted) (nodup secondSorted)).mpr sameMembers
  have equal : firstEntries = secondEntries :=
    perm.eq_of_pairwise (fun a b _ _ before after => absurd (before.trans after) (lt_irrefl _))
      firstSorted secondSorted
  subst equal
  rfl

@[simp]
theorem get?_erase (map : OrderedMap κ α) (key other : κ) :
    (map.erase key).get? other = if other = key then none else map.get? other := by
  ext value
  rw [← mem_entries_iff]
  by_cases same : other = key
  · simp [erase, same]
  · simp [erase, same, mem_entries_iff]

@[simp]
theorem get?_modify (map : OrderedMap κ α) (key other : κ) (change : α → α) :
    (map.modify key change).get? other =
      if other = key then (map.get? key).map change else map.get? other := by
  unfold modify
  cases found : map.get? key with
  | none => by_cases same : other = key <;> simp [same, found]
  | some value => simp

@[simp]
theorem get?_filterMap (map : OrderedMap κ α) (select : κ → α → Option β) (key : κ) :
    (map.filterMap select).get? key = (map.get? key).bind (select key) := by
  ext image
  rw [← mem_entries_iff]
  simp only [filterMap, List.mem_filterMap, Option.map_eq_some_iff, Prod.mk.injEq, Prod.exists,
    Option.bind_eq_some_iff]
  constructor
  · rintro ⟨_, value, member, _, selected, rfl, rfl⟩
    exact ⟨value, mem_entries_iff.mp member, selected⟩
  · rintro ⟨value, found, selected⟩
    exact ⟨key, value, mem_entries_iff.mpr found, image, selected, rfl, rfl⟩

theorem contains_iff {map : OrderedMap κ α} {key : κ} :
    map.contains key = true ↔ ∃ value, map.get? key = some value := by
  rw [contains, Option.isSome_iff_exists]

theorem mem_keys_iff {map : OrderedMap κ α} {key : κ} :
    key ∈ map.keys ↔ ∃ value, map.get? key = some value := by
  simp only [keys, List.mem_map, Prod.exists, exists_and_right, exists_eq_right, mem_entries_iff]

theorem mem_values_iff {map : OrderedMap κ α} {value : α} :
    value ∈ map.values ↔ ∃ key, map.get? key = some value := by
  simp only [values, List.mem_map, Prod.exists, exists_eq_right, mem_entries_iff]

theorem keys_pairwise (map : OrderedMap κ α) : map.keys.Pairwise (· < ·) :=
  List.pairwise_map.mpr map.sorted

theorem nodup_keys (map : OrderedMap κ α) : map.keys.Nodup :=
  map.keys_pairwise.imp ne_of_lt

theorem eq_of_pairwise_lt {first second : List κ} (firstSorted : first.Pairwise (· < ·))
    (secondSorted : second.Pairwise (· < ·)) (same : ∀ key, key ∈ first ↔ key ∈ second) :
    first = second :=
  ((List.perm_ext_iff_of_nodup (firstSorted.imp ne_of_lt) (secondSorted.imp ne_of_lt)).mpr
    same).eq_of_pairwise (fun _ _ _ _ before after => absurd (before.trans after) (lt_irrefl _))
    firstSorted secondSorted

theorem entries_eq_of_keyed {map : OrderedMap κ α} {keyOf : α → κ}
    (keyed : ∀ key value, map.get? key = some value → keyOf value = key) :
    map.entries = map.values.map fun value => (keyOf value, value) := by
  rw [values, List.map_map]
  refine (List.map_id _).symm.trans (List.map_congr_left fun entry member => ?_)
  rw [Function.comp_apply, keyed entry.1 entry.2 (mem_entries_iff.mp member)]
  rfl

theorem values_filterMap (map : OrderedMap κ α) (select : κ → α → Option β) :
    (map.filterMap select).values = map.entries.filterMap fun entry => select entry.1 entry.2 := by
  rw [values, filterMap, List.map_filterMap]
  simp [Function.comp_def]

theorem keys_filterMap_of_keyed {map : OrderedMap κ α} {keyOf : α → κ}
    (keyed : ∀ key value, map.get? key = some value → keyOf value = key) (test : α → Prop)
    [DecidablePred test] (image : β) :
    (map.filterMap fun _ value => if test value then some image else none).keys =
      (map.values.filter fun value => decide (test value)).map keyOf := by
  simp only [keys, filterMap]
  rw [entries_eq_of_keyed keyed]
  induction map.values with
  | nil => rfl
  | cons value rest ih =>
    rw [List.map_cons, List.filterMap_cons]
    by_cases selected : test value <;> simp [selected, ← ih]

theorem keys_insert_of_lt (map : OrderedMap κ α) {key : κ} (value : α)
    (greatest : ∀ other ∈ map.keys, other < key) :
    (map.insert key value).keys = map.keys ++ [key] := by
  refine eq_of_pairwise_lt (keys_pairwise _) ?_ ?_
  · rw [List.pairwise_append]
    exact ⟨map.keys_pairwise, List.pairwise_singleton _ _, by simpa using greatest⟩
  · intro other
    simp only [mem_keys_iff, get?_insert, List.mem_append, List.mem_singleton]
    by_cases same : other = key <;> simp [same]

private theorem sum_insertEntry (weight : κ → α → Nat) (key : κ) (value : α)
    {entries : List (κ × α)} (sorted : Sorted entries) :
    ((insertEntry key value entries).map fun entry => weight entry.1 entry.2).sum +
        (lookupEntry key entries).elim 0 (weight key) =
      (entries.map fun entry => weight entry.1 entry.2).sum + weight key value := by
  induction entries with
  | nil => simp
  | cons head rest ih =>
    obtain ⟨headBefore, restSorted⟩ := List.pairwise_cons.mp sorted
    have step := ih restSorted
    rw [insertEntry_cons]
    rw [lookupEntry_cons]
    split_ifs with before same same
    · exact absurd (same ▸ before) (lt_irrefl _)
    · have absent : lookupEntry key rest = none :=
        lookupEntry_eq_none fun entry member equal =>
          absurd (before.trans (headBefore entry member)) (equal ▸ lt_irrefl _)
      simp [absent]
      omega
    · subst same
      simp
      omega
    · simp only [List.map_cons, List.sum_cons]
      omega

theorem total_insert (map : OrderedMap κ α) (weight : κ → α → Nat) (key : κ) (value : α) :
    (map.insert key value).total weight + (map.get? key).elim 0 (weight key) =
      map.total weight + weight key value :=
  sum_insertEntry weight key value map.sorted

private theorem sum_filter_ne (weight : κ → α → Nat) (key : κ)
    {entries : List (κ × α)} (sorted : Sorted entries) :
    (((entries.filter fun entry => decide (entry.1 ≠ key)).map
          fun entry => weight entry.1 entry.2).sum) +
        (lookupEntry key entries).elim 0 (weight key) =
      (entries.map fun entry => weight entry.1 entry.2).sum := by
  induction entries with
  | nil => simp
  | cons head rest ih =>
    obtain ⟨headBefore, restSorted⟩ := List.pairwise_cons.mp sorted
    have step := ih restSorted
    rw [lookupEntry_cons]
    by_cases same : key = head.1
    · subst same
      have absent : lookupEntry head.1 rest = none :=
        lookupEntry_eq_none fun entry member equal =>
          absurd (headBefore entry member) (equal ▸ lt_irrefl _)
      rw [absent] at step
      simp at step ⊢
      omega
    · simp [same, Ne.symm same] at step ⊢
      omega

theorem total_erase (map : OrderedMap κ α) (weight : κ → α → Nat) (key : κ) :
    (map.erase key).total weight + (map.get? key).elim 0 (weight key) = map.total weight :=
  sum_filter_ne weight key map.sorted

theorem total_eq_sum_values (map : OrderedMap κ α) (weight : α → Nat) :
    map.total (fun _ => weight) = (map.values.map weight).sum := by
  simp [total, values, Function.comp_def]

theorem total_eq_zero {map : OrderedMap κ α} {weight : κ → α → Nat}
    (none : ∀ key value, map.get? key = some value → weight key value = 0) :
    map.total weight = 0 := by
  refine List.sum_eq_zero fun summand member => ?_
  obtain ⟨⟨key, value⟩, entryMem, rfl⟩ := List.mem_map.mp member
  exact none key value (mem_entries_iff.mp entryMem)

theorem filterMap_insert_of_eq {map : OrderedMap κ α} {select : κ → α → Option β} {key : κ}
    {old new : α} (found : map.get? key = some old) (same : select key new = select key old) :
    (map.insert key new).filterMap select = map.filterMap select := by
  refine ext_get? fun other => ?_
  by_cases equal : other = key
  · subst equal
    simp [found, same]
  · simp [equal]

theorem total_insert_of_eq {map : OrderedMap κ α} {weight : κ → α → Nat} {key : κ}
    {old new : α} (found : map.get? key = some old) (same : weight key new = weight key old) :
    (map.insert key new).total weight = map.total weight := by
  have replaced := total_insert map weight key new
  rw [found, Option.elim_some] at replaced
  omega

theorem total_insert_new {map : OrderedMap κ α} {key : κ} (fresh : map.get? key = none)
    (weight : κ → α → Nat) (value : α) :
    (map.insert key value).total weight = map.total weight + weight key value := by
  simpa [fresh] using total_insert map weight key value

theorem total_erase_add {map : OrderedMap κ α} {key : κ} {value : α}
    (found : map.get? key = some value) (weight : κ → α → Nat) :
    (map.erase key).total weight + weight key value = map.total weight := by
  simpa [found] using total_erase map weight key

theorem insert_erase (map : OrderedMap κ α) (key : κ) (value : α) :
    (map.erase key).insert key value = map.insert key value := by
  refine ext_get? fun other => ?_
  by_cases equal : other = key <;> simp [equal]

theorem modify_eq_insert {map : OrderedMap κ α} {key : κ} {value : α}
    (found : map.get? key = some value) (change : α → α) :
    map.modify key change = map.insert key (change value) := by
  rw [modify, found]

theorem isEmpty_entries_iff {map : OrderedMap κ α} :
    map.entries.isEmpty = true ↔ ∀ key, map.get? key = none := by
  rw [List.isEmpty_iff]
  constructor
  · intro empty key
    rw [get?, empty]
    rfl
  · intro absent
    refine List.eq_nil_iff_forall_not_mem.mpr ?_
    rintro ⟨key, value⟩ member
    exact absurd (mem_entries_iff.mp member) (by simp [absent key])

theorem le_total {map : OrderedMap κ α} (weight : κ → α → Nat) {key : κ} {value : α}
    (found : map.get? key = some value) : weight key value ≤ map.total weight := by
  have removal := total_erase map weight key
  rw [found] at removal
  exact removal ▸ Nat.le_add_left _ _

end OrderedMap
