import Mathlib.Data.List.Induction
import Porthmos.OrderedMap

/-!
# Trees of paths

A tree keeps values under paths: each of its nodes has the values whose path ends there, a subtree
for each key that some path goes on with, in the order of the keys, and the number of values in it.
-/

/-- A node with the values that end at it, and how many values there are in all. -/
inductive PathTrie (κ β : Type) where
  | node (count : Nat) (values : List β) (groups : List (κ × PathTrie κ β))

namespace PathTrie

variable {κ β : Type}

def count : PathTrie κ β → Nat
  | .node count _ _ => count

def values : PathTrie κ β → List β
  | .node _ values _ => values

def groups : PathTrie κ β → List (κ × PathTrie κ β)
  | .node _ _ groups => groups

def empty : PathTrie κ β := .node 0 [] []

section Below

variable [DecidableEq κ]

/-- What is kept under paths that begin with a key, without it. -/
def itemsBelow (key : κ) (items : List (List κ × β)) : List (List κ × β) :=
  items.filterMap fun item =>
    match item.1 with
    | [] => none
    | head :: rest => if head = key then some (rest, item.2) else none

variable {key : κ} {items : List (List κ × β)} {path : List κ} {value : β}

theorem mem_itemsBelow : (path, value) ∈ itemsBelow key items ↔ (key :: path, value) ∈ items := by
  unfold itemsBelow
  rw [List.mem_filterMap]
  constructor
  · rintro ⟨⟨_ | ⟨head, rest⟩, _⟩, isIn, isBelow⟩
    · cases isBelow
    · dsimp only at isBelow
      split_ifs at isBelow with isKey
      cases isBelow
      rwa [isKey] at isIn
  · intro isIn
    exact ⟨_, isIn, by simp⟩

theorem itemsBelow_ne_nil : itemsBelow key items ≠ [] ↔ ∃ path value, (key :: path, value) ∈ items := by
  constructor
  · intro notEmpty
    obtain ⟨⟨path, value⟩, isIn⟩ := List.exists_mem_of_ne_nil _ notEmpty
    exact ⟨path, value, mem_itemsBelow.mp isIn⟩
  · rintro ⟨path, value, isIn⟩
    exact List.ne_nil_of_mem (mem_itemsBelow.mpr isIn)

/-- As many values have a path below a key as there are in its subtree. -/
theorem length_itemsBelow_filter (key : κ) (items : List (List κ × β)) (front : List κ) :
    ((itemsBelow key items).filter fun item => front <+: item.1).length =
      (items.filter fun item => key :: front <+: item.1).length := by
  induction items with
  | nil => rfl
  | cons item items ih =>
    obtain ⟨_ | ⟨head, rest⟩, value⟩ := item
    · simpa [itemsBelow] using ih
    · by_cases isKey : head = key
      · subst isKey
        have isBelow : itemsBelow head ((head :: rest, value) :: items) =
            (rest, value) :: itemsBelow head items := by simp [itemsBelow]
        rw [isBelow, List.filter_cons, List.filter_cons]
        by_cases isFront : front <+: rest
        · simpa [isFront] using ih
        · simpa [isFront] using ih
      · have isBelow : itemsBelow key ((head :: rest, value) :: items) = itemsBelow key items := by
          simp [itemsBelow, isKey]
        have notFront : ¬key :: front <+: head :: rest := by
          rw [List.cons_prefix_cons]
          exact fun same => isKey same.1.symm
        rw [isBelow, List.filter_cons, if_neg (by simpa using notFront)]
        exact ih

end Below

variable [LinearOrder κ]

/-- A value is added under a path. -/
def add (value : β) : List κ → PathTrie κ β → PathTrie κ β
  | [], tree => .node (tree.count + 1) (tree.values ++ [value]) tree.groups
  | key :: path, tree =>
    .node (tree.count + 1) tree.values (OrderedMap.insertEntry key
      (add value path ((OrderedMap.lookupEntry key tree.groups).getD empty)) tree.groups)

/-- A tree that keeps some values under their paths. -/
inductive Holds : List (List κ × β) → PathTrie κ β → Prop
  | node {items : List (List κ × β)} {count : Nat} {values : List β}
      {groups : List (κ × PathTrie κ β)} (isCount : count = items.length)
      (isValues : values = (items.filter fun item => item.1 = []).map Prod.snd)
      (sorted : OrderedMap.Sorted groups)
      (isGroup : ∀ key, (∃ child, (key, child) ∈ groups) ↔ itemsBelow key items ≠ [])
      (holds : ∀ entry ∈ groups, Holds (itemsBelow entry.1 items) entry.2) :
      Holds items (.node count values groups)

variable {items : List (List κ × β)} {tree : PathTrie κ β}

theorem holds_empty : Holds ([] : List (List κ × β)) empty := by
  apply Holds.node rfl rfl List.Pairwise.nil
  · intro key
    simp [itemsBelow]
  · intro entry isIn
    cases isIn

theorem Holds.add {path : List κ} {value : β} (holds : Holds items tree) :
    Holds (items ++ [(path, value)]) (tree.add value path) := by
  induction path generalizing items tree with
  | nil =>
    cases holds with
    | node isCount isValues sorted isGroup holds =>
      have same (key : κ) : itemsBelow key (items ++ [([], value)]) = itemsBelow key items := by
        simp [itemsBelow]
      apply Holds.node
      · simp [isCount, PathTrie.count]
      · simp [isValues, PathTrie.values]
      · exact sorted
      · intro key
        rw [same]
        exact isGroup key
      · intro entry isIn
        rw [same]
        exact holds entry isIn
  | cons key path ih =>
    cases holds with
    | @node items count values groups isCount isValues sorted isGroup holds =>
      have sameKey : itemsBelow key (items ++ [(key :: path, value)]) =
          itemsBelow key items ++ [(path, value)] := by simp [itemsBelow]
      have other {second : κ} (differs : second ≠ key) :
          itemsBelow second (items ++ [(key :: path, value)]) = itemsBelow second items := by
        simp [itemsBelow, differs.symm]
      have child : Holds (itemsBelow key items)
          ((OrderedMap.lookupEntry key groups).getD PathTrie.empty) := by
        cases isFound : OrderedMap.lookupEntry key groups with
        | none =>
          have isNil : itemsBelow key items = [] := by
            by_contra notEmpty
            obtain ⟨child, isIn⟩ := (isGroup key).mpr notEmpty
            rw [(OrderedMap.lookupEntry_eq_some_iff sorted).mpr isIn] at isFound
            cases isFound
          rw [isNil]
          exact holds_empty
        | some child => exact holds _ ((OrderedMap.lookupEntry_eq_some_iff sorted).mp isFound)
      have sortedAfter := OrderedMap.sorted_insertEntry key
        (PathTrie.add value path ((OrderedMap.lookupEntry key groups).getD PathTrie.empty)) sorted
      have isEntry (second : κ) (node : PathTrie κ β) : (second, node) ∈ OrderedMap.insertEntry key
          (PathTrie.add value path ((OrderedMap.lookupEntry key groups).getD PathTrie.empty))
            groups ↔ if second = key then node = PathTrie.add value path
              ((OrderedMap.lookupEntry key groups).getD PathTrie.empty)
            else (second, node) ∈ groups := by
        rw [← OrderedMap.lookupEntry_eq_some_iff sortedAfter, OrderedMap.lookupEntry_insertEntry]
        split_ifs with isKey
        · rw [Option.some_inj, eq_comm]
        · exact OrderedMap.lookupEntry_eq_some_iff sorted
      apply Holds.node
      · simp [isCount, PathTrie.count]
      · simp [isValues, PathTrie.values]
      · exact sortedAfter
      · intro second
        by_cases isKey : second = key
        · subst isKey
          rw [sameKey]
          simp only [PathTrie.groups, isEntry, if_true]
          simp
        · rw [other isKey]
          simp only [PathTrie.groups, isEntry, if_neg isKey]
          exact isGroup second
      · rintro ⟨second, node⟩ isIn
        rw [PathTrie.groups, isEntry] at isIn
        dsimp only
        split_ifs at isIn with isKey
        · rw [isKey, sameKey, isIn]
          exact ih child
        · rw [other isKey]
          exact holds _ isIn

theorem holds_foldl (items : List (List κ × β)) :
    Holds items (items.foldl (fun tree item => tree.add item.2 item.1) empty) := by
  induction items using List.reverseRecOn with
  | nil => exact holds_empty
  | append_singleton items item ih =>
    rw [List.foldl_append]
    exact ih.add

end PathTrie
