import Porthmos.ConnectionsTree

/-!
# What the tree of connections shows

The rows of a node are described by what the node holds: a row for each group some value is below,
and one for each value, as far as all groups on the way are open.
-/

namespace Porthmos

/-! ### Paths of groups -/

/-- A key that is made of a name, which is one segment of a path. -/
structure PlainKey (lowercase : String → String) (key : GroupKey) : Prop where
  isKey : key = nameKey lowercase key.name
  notEmpty : key.name ≠ ""
  noSlash : '/' ∉ key.name.toList

def joinKeys (keys : List GroupKey) : String := "/".intercalate (keys.map GroupKey.name)

section Keys

variable {lowercase : String → String} {keys above : List GroupKey} {key : GroupKey}

theorem joinKeys_ne_empty (plain : ∀ key ∈ keys, PlainKey lowercase key) (notNil : keys ≠ []) :
    joinKeys keys ≠ "" := by
  cases keys with
  | nil => exact absurd rfl notNil
  | cons first rest =>
    have notEmpty := (plain first List.mem_cons_self).notEmpty
    cases rest with
    | nil => simpa [joinKeys] using notEmpty
    | cons second rest =>
      intro isEmpty
      rw [joinKeys, List.map_cons, List.map_cons, String.intercalate_cons_cons] at isEmpty
      have lengths := congrArg (fun text => text.toList.length) isEmpty
      simp at lengths

theorem joinKeys_append_singleton (plain : ∀ key ∈ keys, PlainKey lowercase key) (key : GroupKey) :
    joinKeys (keys ++ [key]) = joinGroup (joinKeys keys) key.name := by
  unfold joinGroup
  by_cases isNil : keys = []
  · subst isNil
    simp [joinKeys]
  · rw [if_neg (joinKeys_ne_empty plain isNil), joinKeys, List.map_append,
      String.intercalate_append_of_ne_nil (by simpa using isNil) (by simp)]
    simp [joinKeys]

theorem joinKeys_inj {others : List GroupKey} (plain : ∀ key ∈ keys, PlainKey lowercase key)
    (plainToo : ∀ key ∈ others, PlainKey lowercase key) (same : joinKeys keys = joinKeys others) :
    keys = others := by
  have names {keys : List GroupKey} (plain : ∀ key ∈ keys, PlainKey lowercase key) :
      keys = (keys.map GroupKey.name).map (nameKey lowercase) := by
    rw [List.map_map]
    conv_lhs => rw [← List.map_id keys]
    apply List.map_congr_left
    intro key isIn
    exact (plain key isIn).isKey
  have noSlash {keys : List GroupKey} (plain : ∀ key ∈ keys, PlainKey lowercase key) :
      ∀ name ∈ keys.map GroupKey.name, '/' ∉ name.toList := by
    intro name isIn
    obtain ⟨key, isKey, rfl⟩ := List.mem_map.mp isIn
    exact (plain key isKey).noSlash
  by_cases isNil : keys = []
  · subst isNil
    by_contra differs
    exact joinKeys_ne_empty plainToo (Ne.symm differs) (by simpa [joinKeys] using same.symm)
  · have notNil : others ≠ [] := by
      rintro rfl
      exact joinKeys_ne_empty plain isNil (by simpa [joinKeys] using same)
    have isSplit {keys : List GroupKey} (plain : ∀ key ∈ keys, PlainKey lowercase key)
        (notNil : keys ≠ []) : splitAt '/' (joinKeys keys) = keys.map GroupKey.name :=
      splitAt_intercalate (by simpa using notNil) (noSlash plain)
    have sameNames : keys.map GroupKey.name = others.map GroupKey.name := by
      rw [← isSplit plain isNil, ← isSplit plainToo notNil, same]
    rw [names plain, names plainToo, sameNames]

end Keys

/-! ### Rows -/

/-- All groups on the way are open. -/
def OpenTo (isOpen : String → Bool) (above keys : List GroupKey) : Prop :=
  ∀ front, front <+: keys → front ≠ [] → isOpen (joinKeys (above ++ front)) = true

def groupRow (isOpen : String → Bool) (items : List (List GroupKey × Nat))
    (above keys : List GroupKey) (last : GroupKey) : TreeRow :=
  .group (joinKeys (above ++ keys ++ [last])) last.name (above.length + keys.length)
    (items.filter fun item => keys ++ [last] <+: item.1).length
    (isOpen (joinKeys (above ++ keys ++ [last])))

/-- The rows that show what a node holds. -/
inductive RowOf (isOpen : String → Bool) (items : List (List GroupKey × Nat))
    (above : List GroupKey) : TreeRow → Prop
  | group (keys : List GroupKey) (last : GroupKey) {item : List GroupKey × Nat} (isIn : item ∈ items)
      (isBelow : keys ++ [last] <+: item.1) (isOpenTo : OpenTo isOpen above keys) :
      RowOf isOpen items above (groupRow isOpen items above keys last)
  | connection {item : List GroupKey × Nat} (isIn : item ∈ items)
      (isOpenTo : OpenTo isOpen above item.1) :
      RowOf isOpen items above (.connection item.2 (above.length + item.1.length))

section Rows

variable {lowercase : String → String} {isOpen : String → Bool}
  {items : List (List GroupKey × Nat)} {above keys : List GroupKey} {key : GroupKey}
  {tree : PathTrie GroupKey Nat} {row : TreeRow}

theorem openTo_cons : OpenTo isOpen above (key :: keys) ↔
    isOpen (joinKeys (above ++ [key])) = true ∧ OpenTo isOpen (above ++ [key]) keys := by
  constructor
  · intro openTo
    constructor
    · exact openTo [key] (List.cons_prefix_cons.mpr ⟨rfl, List.nil_prefix⟩) (List.cons_ne_nil _ _)
    · intro front isFront notNil
      have isOpenFront := openTo (key :: front) (List.cons_prefix_cons.mpr ⟨rfl, isFront⟩)
        (List.cons_ne_nil _ _)
      rwa [List.append_assoc, List.singleton_append]
  · rintro ⟨isOpenKey, openTo⟩ front isFront notNil
    cases front with
    | nil => exact absurd rfl notNil
    | cons head front =>
      obtain ⟨rfl, isRest⟩ := List.cons_prefix_cons.mp isFront
      cases front with
      | nil => exact isOpenKey
      | cons second front =>
        have isOpenFront := openTo (second :: front) isRest (List.cons_ne_nil _ _)
        rwa [List.append_assoc, List.singleton_append] at isOpenFront

theorem openTo_nil : OpenTo isOpen above [] := by
  intro front isFront notNil
  exact absurd (List.prefix_nil.mp isFront) notNil

theorem groupRow_below (keys : List GroupKey) (last : GroupKey) :
    groupRow isOpen (PathTrie.itemsBelow key items) (above ++ [key]) keys last =
      groupRow isOpen items above (key :: keys) last := by
  simp only [groupRow, List.append_assoc, List.cons_append,
    List.length_append, List.length_cons, List.length_nil, PathTrie.length_itemsBelow_filter]
  congr 1
  omega

/-- What is shown below a key is what the subtree shows, if the group is open. -/
theorem rowOf_below : RowOf isOpen (PathTrie.itemsBelow key items) (above ++ [key]) row ∧
    isOpen (joinKeys (above ++ [key])) = true ↔
      (∃ keys last, ∃ item ∈ items, key :: keys ++ [last] <+: item.1 ∧
          OpenTo isOpen above (key :: keys) ∧ row = groupRow isOpen items above (key :: keys) last) ∨
        ∃ path index, (key :: path, index) ∈ items ∧ OpenTo isOpen above (key :: path) ∧
          row = .connection index (above.length + (key :: path).length) := by
  constructor
  · rintro ⟨isRow, isOpenKey⟩
    cases isRow with
    | @group keys last item isIn isBelow isOpenTo =>
      refine .inl ⟨keys, last, (key :: item.1, item.2), PathTrie.mem_itemsBelow.mp isIn, ?_,
        openTo_cons.mpr ⟨isOpenKey, isOpenTo⟩, groupRow_below keys last⟩
      exact List.cons_prefix_cons.mpr ⟨rfl, isBelow⟩
    | @connection item isIn isOpenTo =>
      refine .inr ⟨item.1, item.2, PathTrie.mem_itemsBelow.mp isIn,
        openTo_cons.mpr ⟨isOpenKey, isOpenTo⟩, ?_⟩
      simp only [List.length_append, List.length_cons, List.length_nil]
      congr 1
      omega
  · rintro (⟨keys, last, ⟨path, index⟩, isIn, isBelow, isOpenTo, rfl⟩ |
      ⟨path, index, isIn, isOpenTo, rfl⟩)
    · obtain ⟨isOpenKey, isOpenRest⟩ := openTo_cons.mp isOpenTo
      cases path with
      | nil => simp at isBelow
      | cons head path =>
        obtain ⟨rfl, isRest⟩ := List.cons_prefix_cons.mp isBelow
        rw [← groupRow_below]
        exact ⟨.group keys last (PathTrie.mem_itemsBelow.mpr isIn) isRest isOpenRest, isOpenKey⟩
    · obtain ⟨isOpenKey, isOpenRest⟩ := openTo_cons.mp isOpenTo
      have isRow : RowOf isOpen (PathTrie.itemsBelow key items) (above ++ [key])
          (.connection index ((above ++ [key]).length + path.length)) :=
        .connection (PathTrie.mem_itemsBelow.mpr isIn) isOpenRest
      have isDepth : above.length + (key :: path).length = (above ++ [key]).length + path.length := by
        simp only [List.length_append, List.length_cons, List.length_nil]
        omega
      rw [isDepth]
      exact ⟨isRow, isOpenKey⟩

/-- The rows of a group of a node, and those below it. -/
def groupBlock (isOpen : String → Bool) (above : String) (depth : Nat)
    (entry : GroupKey × PathTrie GroupKey Nat) : List TreeRow :=
  .group (joinGroup above entry.1.name) entry.1.name depth entry.2.count
      (isOpen (joinGroup above entry.1.name)) ::
    if isOpen (joinGroup above entry.1.name) then
      pushRows isOpen entry.2 (joinGroup above entry.1.name) (depth + 1)
    else []

theorem pushGroups_eq (groups : List (GroupKey × PathTrie GroupKey Nat)) (above : String)
    (depth : Nat) :
    pushGroups isOpen groups above depth = groups.flatMap (groupBlock isOpen above depth) := by
  induction groups with
  | nil => rw [pushGroups, List.flatMap_nil]
  | cons entry groups ih =>
    obtain ⟨key, child⟩ := entry
    rw [pushGroups, List.flatMap_cons, ih]
    rfl

/-- Every key on the path of an item is plain. -/
def PlainItems (lowercase : String → String) (items : List (List GroupKey × Nat)) : Prop :=
  ∀ item ∈ items, ∀ key ∈ item.1, PlainKey lowercase key

theorem PlainItems.below (plain : PlainItems lowercase items) (key : GroupKey) :
    PlainItems lowercase (PathTrie.itemsBelow key items) := by
  rintro ⟨path, index⟩ isIn other isKey
  exact plain _ (PathTrie.mem_itemsBelow.mp isIn) other (List.mem_cons_of_mem _ isKey)

theorem plain_of_group (plain : PlainItems lowercase items)
    (isGroup : PathTrie.itemsBelow key items ≠ []) : PlainKey lowercase key := by
  obtain ⟨path, index, isIn⟩ := PathTrie.itemsBelow_ne_nil.mp isGroup
  exact plain _ isIn key List.mem_cons_self

theorem plain_concat (plainAbove : ∀ key ∈ above, PlainKey lowercase key)
    (isPlain : PlainKey lowercase key) : ∀ other ∈ above ++ [key], PlainKey lowercase other := by
  intro other isIn
  rcases List.mem_append.mp isIn with isAbove | isKey
  · exact plainAbove other isAbove
  · exact List.mem_singleton.mp isKey ▸ isPlain

theorem count_of_holds (holds : PathTrie.Holds items tree) : tree.count = items.length := by
  cases holds with
  | node isCount => exact isCount

theorem groupRow_nil {child : PathTrie GroupKey Nat}
    (plainAbove : ∀ key ∈ above, PlainKey lowercase key)
    (holds : PathTrie.Holds (PathTrie.itemsBelow key items) child) :
    groupRow isOpen items above [] key = .group (joinGroup (joinKeys above) key.name) key.name
      above.length child.count (isOpen (joinGroup (joinKeys above) key.name)) := by
  have isCount := PathTrie.length_itemsBelow_filter key items []
  simp only [List.nil_prefix, decide_true, List.filter_true] at isCount
  rw [groupRow, List.append_nil, joinKeys_append_singleton plainAbove, List.nil_append, ← isCount,
    count_of_holds holds, List.length_nil, Nat.add_zero]

theorem mem_groupBlock {child : PathTrie GroupKey Nat}
    (plainAbove : ∀ key ∈ above, PlainKey lowercase key)
    (holds : PathTrie.Holds (PathTrie.itemsBelow key items) child)
    (isBelow : row ∈ pushRows isOpen child (joinKeys (above ++ [key])) (above ++ [key]).length ↔
      RowOf isOpen (PathTrie.itemsBelow key items) (above ++ [key]) row) :
    row ∈ groupBlock isOpen (joinKeys above) above.length (key, child) ↔
      row = groupRow isOpen items above [] key ∨
        RowOf isOpen (PathTrie.itemsBelow key items) (above ++ [key]) row ∧
          isOpen (joinKeys (above ++ [key])) = true := by
  rw [groupRow_nil plainAbove holds, ← isBelow, joinKeys_append_singleton plainAbove, groupBlock,
    List.mem_cons, List.length_append]
  by_cases isOpenKey : isOpen (joinGroup (joinKeys above) key.name) = true
  · simp [isOpenKey]
  · simp [isOpenKey]

/-- The rows of a node are those that show what it holds. -/
theorem mem_pushRows (holds : PathTrie.Holds items tree) (plain : PlainItems lowercase items)
    (plainAbove : ∀ key ∈ above, PlainKey lowercase key) :
    row ∈ pushRows isOpen tree (joinKeys above) above.length ↔ RowOf isOpen items above row := by
  induction holds generalizing above row with
  | @node items count values groups isCount isValues sorted isGroup holds ih =>
    have plainKey {key : GroupKey} {child : PathTrie GroupKey Nat} (isIn : (key, child) ∈ groups) :
        PlainKey lowercase key := plain_of_group plain ((isGroup key).mp ⟨child, isIn⟩)
    have inBlock {key : GroupKey} {child : PathTrie GroupKey Nat} (isIn : (key, child) ∈ groups) :
        row ∈ groupBlock isOpen (joinKeys above) above.length (key, child) ↔
          row = groupRow isOpen items above [] key ∨
            RowOf isOpen (PathTrie.itemsBelow key items) (above ++ [key]) row ∧
              isOpen (joinKeys (above ++ [key])) = true :=
      mem_groupBlock plainAbove (holds (key, child) isIn) (@ih (key, child) isIn (above ++ [key]) row
        (plain.below key) (plain_concat plainAbove (plainKey isIn)))
    rw [pushRows, pushGroups_eq, List.mem_append, List.mem_flatMap]
    constructor
    · rintro (⟨⟨key, child⟩, isIn, isRow⟩ | isConnection)
      · rcases (inBlock isIn).mp isRow with rfl | below
        · obtain ⟨path, index, isItem⟩ := PathTrie.itemsBelow_ne_nil.mp ((isGroup key).mp ⟨child, isIn⟩)
          exact .group [] key isItem (List.cons_prefix_cons.mpr ⟨rfl, List.nil_prefix⟩) openTo_nil
        · rcases rowOf_below.mp below with
            ⟨keys, last, item, isItem, isBelow, isOpenTo, rfl⟩ | ⟨path, index, isItem, isOpenTo, rfl⟩
          · exact .group (key :: keys) last isItem isBelow isOpenTo
          · exact .connection isItem isOpenTo
      · rw [isValues, List.map_map, List.mem_map] at isConnection
        obtain ⟨item, isItem, rfl⟩ := isConnection
        simp only [List.mem_filter, decide_eq_true_eq] at isItem
        have isRow : RowOf isOpen items above (.connection item.2 (above.length + item.1.length)) :=
          .connection isItem.1 (isItem.2 ▸ openTo_nil)
        simpa [isItem.2] using isRow
    · intro isRow
      cases isRow with
      | @group keys last item isItem isBelow isOpenTo =>
        left
        obtain ⟨path, index⟩ := item
        obtain ⟨rest, rfl⟩ := isBelow
        cases keys with
        | nil =>
          obtain ⟨child, isIn⟩ :=
            (isGroup last).mpr (PathTrie.itemsBelow_ne_nil.mpr ⟨rest, index, isItem⟩)
          exact ⟨(last, child), isIn, (inBlock isIn).mpr (.inl rfl)⟩
        | cons key keys =>
          obtain ⟨child, isIn⟩ := (isGroup key).mpr
            (PathTrie.itemsBelow_ne_nil.mpr ⟨keys ++ [last] ++ rest, index, isItem⟩)
          refine ⟨(key, child), isIn, (inBlock isIn).mpr (.inr (rowOf_below.mpr (.inl ?_)))⟩
          exact ⟨keys, last, _, isItem, List.prefix_append .., isOpenTo, rfl⟩
      | @connection item isItem isOpenTo =>
        obtain ⟨path, index⟩ := item
        cases path with
        | nil =>
          right
          rw [isValues, List.map_map]
          refine List.mem_map.mpr ⟨([], index), ?_, rfl⟩
          simpa using isItem
        | cons key path =>
          left
          obtain ⟨child, isIn⟩ :=
            (isGroup key).mpr (PathTrie.itemsBelow_ne_nil.mpr ⟨path, index, isItem⟩)
          refine ⟨(key, child), isIn, (inBlock isIn).mpr (.inr (rowOf_below.mpr (.inr ?_)))⟩
          exact ⟨path, index, isItem, isOpenTo, rfl⟩

/-! ### Nothing twice -/

theorem rowOf_groupPath {path : String} (plain : PlainItems lowercase items)
    (plainAbove : ∀ key ∈ above, PlainKey lowercase key) (isRow : RowOf isOpen items above row)
    (isPath : row.groupPath = some path) :
    ∃ rest, rest ≠ [] ∧ path = joinKeys (above ++ rest) ∧
      ∀ key ∈ above ++ rest, PlainKey lowercase key := by
  cases isRow with
  | @group keys last item isIn isBelow isOpenTo =>
    cases isPath
    refine ⟨keys ++ [last], by simp, by rw [List.append_assoc], ?_⟩
    intro key isKey
    rcases List.mem_append.mp isKey with isAbove | isRest
    · exact plainAbove key isAbove
    · exact plain item isIn key (isBelow.subset isRest)
  | connection isIn isOpenTo => cases isPath

theorem groupPaths_groupBlock (above : String) (depth : Nat)
    (entry : GroupKey × PathTrie GroupKey Nat) :
    (groupBlock isOpen above depth entry).filterMap TreeRow.groupPath =
      joinGroup above entry.1.name ::
        if isOpen (joinGroup above entry.1.name) then
          (pushRows isOpen entry.2 (joinGroup above entry.1.name) (depth + 1)).filterMap
            TreeRow.groupPath
        else [] := by
  unfold groupBlock
  split_ifs <;> simp [TreeRow.groupPath]

theorem indices_groupBlock (above : String) (depth : Nat)
    (entry : GroupKey × PathTrie GroupKey Nat) :
    (groupBlock isOpen above depth entry).filterMap TreeRow.index =
      if isOpen (joinGroup above entry.1.name) then
        (pushRows isOpen entry.2 (joinGroup above entry.1.name) (depth + 1)).filterMap TreeRow.index
      else [] := by
  unfold groupBlock
  split_ifs <;> simp [TreeRow.index, List.filterMap_cons]

theorem nodup_groupPaths (holds : PathTrie.Holds items tree) (plain : PlainItems lowercase items)
    (plainAbove : ∀ key ∈ above, PlainKey lowercase key) :
    ((pushRows isOpen tree (joinKeys above) above.length).filterMap TreeRow.groupPath).Nodup := by
  induction holds generalizing above with
  | @node items count values groups isCount isValues sorted isGroup holds ih =>
    have plainKey {entry : GroupKey × PathTrie GroupKey Nat} (isIn : entry ∈ groups) :
        PlainKey lowercase entry.1 := plain_of_group plain ((isGroup entry.1).mp ⟨entry.2, isIn⟩)
    have isPath {entry : GroupKey × PathTrie GroupKey Nat} (isIn : entry ∈ groups) {path : String}
        (isBelow : path ∈ (pushRows isOpen entry.2 (joinKeys (above ++ [entry.1]))
          (above ++ [entry.1]).length).filterMap TreeRow.groupPath) :
        ∃ rest, rest ≠ [] ∧ path = joinKeys (above ++ [entry.1] ++ rest) ∧
          ∀ key ∈ above ++ [entry.1] ++ rest, PlainKey lowercase key := by
      obtain ⟨row, isRow, isPath⟩ := List.mem_filterMap.mp isBelow
      have plainBelow := plain_concat plainAbove (plainKey isIn)
      have isRowOf := (mem_pushRows (holds entry isIn) (plain.below entry.1) plainBelow).mp isRow
      exact rowOf_groupPath (plain.below entry.1) plainBelow isRowOf isPath
    -- the paths of the rows of a group begin with its own
    have isBlock {entry : GroupKey × PathTrie GroupKey Nat} (isIn : entry ∈ groups) {path : String}
        (inBlock : path ∈ (groupBlock isOpen (joinKeys above) above.length entry).filterMap
          TreeRow.groupPath) : ∃ rest, path = joinKeys (above ++ [entry.1] ++ rest) ∧
            ∀ key ∈ above ++ [entry.1] ++ rest, PlainKey lowercase key := by
      rw [groupPaths_groupBlock, List.mem_cons] at inBlock
      rcases inBlock with rfl | below
      · rw [← joinKeys_append_singleton plainAbove]
        exact ⟨[], by rw [List.append_nil], by simpa using plain_concat plainAbove (plainKey isIn)⟩
      · rw [← joinKeys_append_singleton plainAbove] at below
        split_ifs at below
        · obtain ⟨rest, -, isJoin, plainRest⟩ := isPath isIn (by simpa using below)
          exact ⟨rest, isJoin, plainRest⟩
        · cases below
    have noPaths (connections : List Nat) : (connections.map fun index =>
        TreeRow.connection index above.length).filterMap TreeRow.groupPath = [] := by
      simp [List.filterMap_map, TreeRow.groupPath, Function.comp_def]
    rw [pushRows, pushGroups_eq, List.filterMap_append, noPaths, List.append_nil,
      List.filterMap_flatMap, List.nodup_flatMap]
    constructor
    · intro entry isIn
      rw [groupPaths_groupBlock, List.nodup_cons, ← joinKeys_append_singleton plainAbove]
      split_ifs with isOpenKey
      · have once := ih entry isIn (plain.below entry.1) (plain_concat plainAbove (plainKey isIn))
        rw [List.length_append] at once
        refine ⟨fun again => ?_, once⟩
        obtain ⟨rest, notNil, isJoin, plainRest⟩ := isPath isIn (by simpa using again)
        have same := joinKeys_inj (plain_concat plainAbove (plainKey isIn)) plainRest isJoin
        simp [notNil] at same
      · exact ⟨List.not_mem_nil, List.nodup_nil⟩
    · apply sorted.imp_of_mem
      intro first second isFirst isSecond before path inFirst inSecond
      obtain ⟨rest, isJoin, plainRest⟩ := isBlock isFirst inFirst
      obtain ⟨other, isJoinToo, plainOther⟩ := isBlock isSecond inSecond
      have same := joinKeys_inj plainRest plainOther (isJoin.symm.trans isJoinToo)
      simp only [List.append_assoc, List.append_cancel_left_eq, List.singleton_append,
        List.cons.injEq] at same
      exact absurd same.1 (ne_of_lt before)

theorem index_of_groupBlock {child : PathTrie GroupKey Nat} {index : Nat}
    (plain : PlainItems lowercase items) (plainAbove : ∀ key ∈ above, PlainKey lowercase key)
    (isPlain : PlainKey lowercase key)
    (holds : PathTrie.Holds (PathTrie.itemsBelow key items) child)
    (inBlock : index ∈ (groupBlock isOpen (joinKeys above) above.length (key, child)).filterMap
      TreeRow.index) : ∃ path, (key :: path, index) ∈ items := by
  rw [indices_groupBlock, ← joinKeys_append_singleton plainAbove] at inBlock
  split_ifs at inBlock
  · obtain ⟨row, isRow, isIndex⟩ := List.mem_filterMap.mp inBlock
    have plainBelow := plain_concat plainAbove isPlain
    have isRowOf := (mem_pushRows holds (plain.below key) plainBelow).mp (by simpa using isRow)
    cases isRowOf with
    | group keys last isIn isBelow isOpenTo => cases isIndex
    | @connection item isIn isOpenTo =>
      cases isIndex
      exact ⟨item.1, PathTrie.mem_itemsBelow.mp isIn⟩
  · cases inBlock

theorem nodup_itemsBelow (once : (items.map Prod.snd).Nodup) (key : GroupKey) :
    ((PathTrie.itemsBelow key items).map Prod.snd).Nodup := by
  have isSublist : ((PathTrie.itemsBelow key items).map Prod.snd).Sublist (items.map Prod.snd) := by
    induction items with
    | nil => exact List.Sublist.slnil
    | cons item items ih =>
      rw [List.map_cons, List.nodup_cons] at once
      have further := ih once.2
      obtain ⟨_ | ⟨head, path⟩, index⟩ := item
      · exact further.cons _
      · by_cases isKey : head = key
        · simpa [PathTrie.itemsBelow, isKey] using further
        · have isBelow : PathTrie.itemsBelow key ((head :: path, index) :: items) =
              PathTrie.itemsBelow key items := by simp [PathTrie.itemsBelow, isKey]
          rw [isBelow]
          exact further.cons _
  exact List.Nodup.sublist isSublist once

theorem nodup_indices (holds : PathTrie.Holds items tree) (plain : PlainItems lowercase items)
    (plainAbove : ∀ key ∈ above, PlainKey lowercase key) (once : (items.map Prod.snd).Nodup) :
    ((pushRows isOpen tree (joinKeys above) above.length).filterMap TreeRow.index).Nodup := by
  induction holds generalizing above with
  | @node items count values groups isCount isValues sorted isGroup holds ih =>
    have plainKey {entry : GroupKey × PathTrie GroupKey Nat} (isIn : entry ∈ groups) :
        PlainKey lowercase entry.1 := plain_of_group plain ((isGroup entry.1).mp ⟨entry.2, isIn⟩)
    have isBlock {entry : GroupKey × PathTrie GroupKey Nat} (isIn : entry ∈ groups) {index : Nat}
        (inBlock : index ∈ (groupBlock isOpen (joinKeys above) above.length entry).filterMap
          TreeRow.index) : ∃ path, (entry.1 :: path, index) ∈ items :=
      index_of_groupBlock plain plainAbove (plainKey isIn) (holds entry isIn) inBlock
    -- an item has one path
    have samePath {first second : List GroupKey} {index : Nat} (isFirst : (first, index) ∈ items)
        (isSecond : (second, index) ∈ items) : first = second :=
      congrArg Prod.fst (List.inj_on_of_nodup_map once isFirst isSecond rfl)
    have isIndices : (values.map fun index =>
        TreeRow.connection index above.length).filterMap TreeRow.index = values := by
      simp [List.filterMap_map, TreeRow.index, Function.comp_def]
    rw [pushRows, pushGroups_eq, List.filterMap_append, isIndices, List.filterMap_flatMap,
      List.nodup_append, List.nodup_flatMap]
    refine ⟨⟨?_, ?_⟩, ?_, ?_⟩
    · intro entry isIn
      rw [indices_groupBlock, ← joinKeys_append_singleton plainAbove]
      split_ifs
      · have below := ih entry isIn (plain.below entry.1) (plain_concat plainAbove (plainKey isIn))
          (nodup_itemsBelow once entry.1)
        simpa using below
      · exact List.nodup_nil
    · apply sorted.imp_of_mem
      intro first second isFirst isSecond before index inFirst inSecond
      obtain ⟨path, isItem⟩ := isBlock isFirst inFirst
      obtain ⟨other, isItemToo⟩ := isBlock isSecond inSecond
      have same := samePath isItem isItemToo
      exact absurd (List.cons_eq_cons.mp same).1 (ne_of_lt before)
    · rw [isValues]
      exact List.Nodup.sublist (List.filter_sublist.map _) once
    · rintro index isBelow _ isHere rfl
      obtain ⟨entry, isIn, inBlock⟩ := List.mem_flatMap.mp isBelow
      obtain ⟨path, isItem⟩ := isBlock isIn inBlock
      rw [isValues, List.mem_map] at isHere
      obtain ⟨⟨other, _⟩, isItemToo, rfl⟩ := isHere
      simp only [List.mem_filter, decide_eq_true_eq] at isItemToo
      have same := samePath isItem isItemToo.1
      rw [isItemToo.2] at same
      cases same

/-! ### Parents -/

/-- A row of a group, and one of a group or a connection right in it. -/
inductive ParentOf (isOpen : String → Bool) (items : List (List GroupKey × Nat))
    (above : List GroupKey) : TreeRow → TreeRow → Prop
  | group (keys : List GroupKey) (last next : GroupKey) {item : List GroupKey × Nat}
      (isIn : item ∈ items) (isBelow : keys ++ [last] ++ [next] <+: item.1) :
      ParentOf isOpen items above (groupRow isOpen items above keys last)
        (groupRow isOpen items above (keys ++ [last]) next)
  | connection (keys : List GroupKey) (last : GroupKey) {item : List GroupKey × Nat}
      (isIn : item ∈ items) (isPath : item.1 = keys ++ [last]) :
      ParentOf isOpen items above (groupRow isOpen items above keys last)
        (.connection item.2 (above.length + item.1.length))

theorem ParentOf.of_below {parent : TreeRow}
    (isParent : ParentOf isOpen (PathTrie.itemsBelow key items) (above ++ [key]) parent row) :
    ParentOf isOpen items above parent row := by
  cases isParent with
  | @group keys last next item isIn isBelow =>
    rw [groupRow_below, groupRow_below]
    exact .group (key :: keys) last next (PathTrie.mem_itemsBelow.mp isIn)
      (List.cons_prefix_cons.mpr ⟨rfl, isBelow⟩)
  | @connection keys last item isIn isPath =>
    rw [groupRow_below]
    have isDepth : (above ++ [key]).length + item.1.length =
        above.length + (key :: item.1).length := by
      simp only [List.length_append, List.length_cons, List.length_nil]
      omega
    rw [isDepth]
    exact @ParentOf.connection isOpen items above (key :: keys) last (key :: item.1, item.2)
      (PathTrie.mem_itemsBelow.mp isIn) (congrArg (key :: ·) isPath)

theorem RowOf.le_depth (isRow : RowOf isOpen items above row) : above.length ≤ row.depth := by
  cases isRow with
  | group => exact Nat.le_add_right ..
  | connection => exact Nat.le_add_right ..

theorem exists_split_flatMap {α β : Type} {xs : List α} {rows : α → List β}
    {before after : List β} {row : β}
    (split : xs.flatMap rows = before ++ row :: after) :
    ∃ x ∈ xs, ∃ front first rest, rows x = first ++ row :: rest ∧ before = front ++ first := by
  induction xs generalizing before with
  | nil => simp at split
  | cons x xs ih =>
    rw [List.flatMap_cons, List.append_eq_append_iff] at split
    rcases split with ⟨front, rfl, isRest⟩ | ⟨front, isHere, isRest⟩
    · obtain ⟨other, isIn, between, first, rest, isRows, rfl⟩ := ih isRest
      exact ⟨other, List.mem_cons_of_mem _ isIn, rows x ++ between, first, rest, isRows, by simp⟩
    · cases front with
      | nil =>
        obtain ⟨other, isIn, between, first, rest, isRows, isNil⟩ := @ih [] isRest.symm
        refine ⟨other, List.mem_cons_of_mem _ isIn, before ++ between, first, rest, isRows, ?_⟩
        rw [List.append_assoc, ← isNil, List.append_nil]
      | cons head front =>
        rw [List.cons_append, List.cons.injEq] at isRest
        exact ⟨x, List.mem_cons_self, [], before, front, by rw [isHere, isRest.1], rfl⟩

/-- Before a row that is not at the top stands the row of its group, and between them is nothing that
is not below that group. -/
theorem exists_parent (holds : PathTrie.Holds items tree) (plain : PlainItems lowercase items)
    (plainAbove : ∀ key ∈ above, PlainKey lowercase key) {before after : List TreeRow}
    (split : pushRows isOpen tree (joinKeys above) above.length = before ++ row :: after)
    (notTop : above.length < row.depth) :
    ∃ first parent between, before = first ++ parent :: between ∧
      ParentOf isOpen items above parent row ∧ ∀ other ∈ between, parent.depth < other.depth := by
  induction holds generalizing above before after with
  | @node items count values groups isCount isValues sorted isGroup holds ih =>
    have notConnection (isConnection : row ∈ values.map fun index =>
        TreeRow.connection index above.length) : False := by
      obtain ⟨index, -, rfl⟩ := List.mem_map.mp isConnection
      exact lt_irrefl _ notTop
    have inGroups : ∃ rest, groups.flatMap (groupBlock isOpen (joinKeys above) above.length) =
        before ++ row :: rest := by
      rw [pushRows, pushGroups_eq, List.append_eq_append_iff] at split
      rcases split with ⟨between, rfl, isRest⟩ | ⟨between, isGroups, isRest⟩
      · exact (notConnection (by simp [isRest])).elim
      · cases between with
        | nil =>
          rw [List.nil_append] at isRest
          exact (notConnection (isRest ▸ List.mem_cons_self)).elim
        | cons head between =>
          rw [List.cons_append, List.cons.injEq] at isRest
          exact ⟨between, by rw [isGroups, isRest.1]⟩
    obtain ⟨rest, inGroups⟩ := inGroups
    obtain ⟨⟨key, child⟩, isIn, front, first, after, isBlock, rfl⟩ := exists_split_flatMap inGroups
    have isPlain : PlainKey lowercase key := plain_of_group plain ((isGroup key).mp ⟨child, isIn⟩)
    have plainBelow := plain_concat plainAbove isPlain
    have isHead : groupRow isOpen items above [] key = _ :=
      groupRow_nil plainAbove (holds (key, child) isIn)
    have inChild (other : TreeRow) := @mem_pushRows lowercase isOpen _ (above ++ [key]) child other
      (holds (key, child) isIn) (plain.below key) plainBelow
    rw [groupBlock, ← isHead, ← joinKeys_append_singleton plainAbove] at isBlock
    cases first with
    | nil =>
      rw [List.nil_append, List.cons.injEq] at isBlock
      rw [← isBlock.1] at notTop
      exact absurd notTop (lt_irrefl _)
    | cons head first =>
      rw [List.cons_append, List.cons.injEq] at isBlock
      obtain ⟨rfl, isBlock⟩ := isBlock
      split_ifs at isBlock with isOpenKey
      · have isLength : (above ++ [key]).length = above.length + 1 := by simp
        rw [← isLength] at isBlock
        have isRow : RowOf isOpen (PathTrie.itemsBelow key items) (above ++ [key]) row :=
          (inChild row).mp (isBlock ▸ List.mem_append_right _ List.mem_cons_self)
        by_cases isDeep : (above ++ [key]).length < row.depth
        · obtain ⟨start, parent, between, rfl, isParent, isBetween⟩ :=
            ih (key, child) isIn (plain.below key) plainBelow isBlock isDeep
          exact ⟨front ++ groupRow isOpen items above [] key :: start, parent, between, by simp,
            isParent.of_below, isBetween⟩
        · -- the group itself is the parent of what is right below it
          have isDepth : row.depth = above.length + 1 := by
            have low := isRow.le_depth
            omega
          refine ⟨front, groupRow isOpen items above [] key, first, rfl, ?_, ?_⟩
          · rcases rowOf_below.mp ⟨isRow, isOpenKey⟩ with
              ⟨keys, last, item, isItem, isBelow, -, rfl⟩ | ⟨path, index, isItem, -, rfl⟩
            · have isNil : keys = [] := by
                simpa [groupRow, TreeRow.depth] using isDepth
              subst isNil
              exact .group [] key last isItem isBelow
            · have isNil : path = [] := by
                simpa [TreeRow.depth] using isDepth
              subst isNil
              exact .connection [] key isItem rfl
          · intro other isOther
            have isRowOf := (inChild other).mp (isBlock ▸ List.mem_append_left _ isOther)
            have low := isRowOf.le_depth
            rw [isLength] at low
            exact low
      · simp at isBlock

end Rows

/-! ### The tree of some entries -/

section Entries

variable (lowercase : String → String) (entries : List ConnectionEntry) (expanded : List String)
  (filter : Option String)

/-- What the tree holds: the numbers of the entries under the keys of their groups. -/
def treeItems : List (List GroupKey × Nat) :=
  (shownEntries lowercase entries filter).map fun entry =>
    ((groupNames entry.1).map (nameKey lowercase), entry.2)

/-- The entries that a group has at it or below it. -/
def entriesBelow (names : List String) : List ConnectionEntry :=
  entries.filter fun entry => entryShown lowercase filter entry && decide (names <+: groupNames entry)

/-- All groups on the way are open. -/
def WayOpen (names : List String) : Prop :=
  ∀ way, way <+: names → way ≠ [] → groupOpen expanded filter ("/".intercalate way) = true

/-- A row is right below the row of a group. -/
def RightBelow (parent : TreeRow) : TreeRow → Prop
  | .group path name depth _ _ => parent.depth + 1 = depth ∧
      ∃ above, parent.groupPath = some above ∧ path = above ++ "/" ++ name
  | .connection index depth => parent.depth + 1 = depth ∧
      ∃ entry group, entries[index]? = some entry ∧ entry.group = some group ∧
        parent.groupPath = some group

/-- Rows that show the groups with their counts and the entries once, as far as the groups are open,
and each of them below its group. -/
structure ShowsTree (rows : List TreeRow) : Prop where
  pathsOnce : (rows.filterMap TreeRow.groupPath).Nodup
  indicesOnce : (rows.filterMap TreeRow.index).Nodup
  groups : ∀ path name depth count isExpanded, .group path name depth count isExpanded ∈ rows ↔
    ∃ above, path = "/".intercalate (above ++ [name]) ∧ depth = above.length ∧
      count = (entriesBelow lowercase entries filter (above ++ [name])).length ∧ 0 < count ∧
      isExpanded = groupOpen expanded filter path ∧ WayOpen expanded filter above
  connections : ∀ index depth, .connection index depth ∈ rows ↔
    ∃ entry, entries[index]? = some entry ∧ entryShown lowercase filter entry = true ∧
      depth = (groupNames entry).length ∧ WayOpen expanded filter (groupNames entry)
  parents : ∀ before row after, rows = before ++ row :: after → 0 < row.depth →
    ∃ first parent between, before = first ++ parent :: between ∧ RightBelow entries parent row ∧
      ∀ other ∈ between, parent.depth < other.depth

variable {lowercase entries expanded filter}

theorem holds_connectionTree : PathTrie.Holds (treeItems lowercase entries filter)
    (connectionTree lowercase entries filter) := by
  have holds := PathTrie.holds_foldl (treeItems lowercase entries filter)
  rwa [treeItems, List.foldl_map] at holds

theorem mem_treeItems {keys : List GroupKey} {index : Nat} :
    (keys, index) ∈ treeItems lowercase entries filter ↔
      ∃ entry, entries[index]? = some entry ∧ entryShown lowercase filter entry = true ∧
        keys = (groupNames entry).map (nameKey lowercase) := by
  unfold treeItems shownEntries
  rw [List.mem_map]
  constructor
  · rintro ⟨⟨entry, _⟩, isIn, ⟨⟩⟩
    obtain ⟨isEntry, isShown⟩ := List.mem_filter.mp isIn
    exact ⟨entry, List.mk_mem_zipIdx_iff_getElem?.mp isEntry, isShown, rfl⟩
  · rintro ⟨entry, isEntry, isShown, rfl⟩
    have isPlace := List.mk_mem_zipIdx_iff_getElem?.mpr isEntry
    exact ⟨(entry, index), List.mem_filter.mpr ⟨isPlace, isShown⟩, rfl⟩

theorem nameKey_injective : Function.Injective (nameKey lowercase) := by
  intro first second same
  exact congrArg GroupKey.name same

theorem joinKeys_map (lowercase : String → String) (names : List String) :
    joinKeys (names.map (nameKey lowercase)) = "/".intercalate names := by
  have isName : GroupKey.name ∘ nameKey lowercase = id := rfl
  rw [joinKeys, List.map_map, isName, List.map_id]

theorem wayOpen_iff {names : List String} :
    OpenTo (groupOpen expanded filter) [] (names.map (nameKey lowercase)) ↔
      WayOpen expanded filter names := by
  constructor
  · intro openTo way isWay notNil
    rw [← joinKeys_map lowercase]
    exact openTo _ (isWay.map _) (by simpa using notNil)
  · intro wayOpen front isFront notNil
    obtain ⟨way, isWay, rfl⟩ := List.prefix_map_iff.mp isFront
    rw [List.nil_append, joinKeys_map]
    exact wayOpen way isWay (by simpa using notNil)

/-- The row of a group counts the entries at it and below it. -/
theorem groupRow_treeItems (above : List String) (name : String) :
    groupRow (groupOpen expanded filter) (treeItems lowercase entries filter) []
        (above.map (nameKey lowercase)) (nameKey lowercase name) =
      .group ("/".intercalate (above ++ [name])) name above.length
        (entriesBelow lowercase entries filter (above ++ [name])).length
        (groupOpen expanded filter ("/".intercalate (above ++ [name]))) := by
  have isPath : [] ++ above.map (nameKey lowercase) ++ [nameKey lowercase name] =
      (above ++ [name]).map (nameKey lowercase) := by simp
  have isCount : ((treeItems lowercase entries filter).filter fun item =>
      above.map (nameKey lowercase) ++ [nameKey lowercase name] <+: item.1).length =
        (entriesBelow lowercase entries filter (above ++ [name])).length := by
    have isKeys : above.map (nameKey lowercase) ++ [nameKey lowercase name] =
        (above ++ [name]).map (nameKey lowercase) := by simp
    have isEntries : entries = entries.zipIdx.map Prod.fst := (List.zipIdx_map_fst 0 entries).symm
    unfold entriesBelow
    conv_rhs => rw [isEntries, List.filter_map, List.length_map]
    rw [isKeys, treeItems, List.filter_map, List.length_map, shownEntries, List.filter_filter]
    congr 2
    funext entry
    simp only [Function.comp_apply, List.prefix_map_iff_of_injective nameKey_injective]
    exact Bool.and_comm ..
  rw [groupRow, isPath, joinKeys_map, isCount, List.length_nil, List.length_map, Nat.zero_add]
  rfl

theorem mem_entriesBelow {names : List String} {entry : ConnectionEntry} :
    entry ∈ entriesBelow lowercase entries filter names ↔
      entry ∈ entries ∧ entryShown lowercase filter entry = true ∧ names <+: groupNames entry := by
  simp [entriesBelow]

theorem intercalate_splitAt {group : String} (normalised : normalizeGroup group = some group) :
    "/".intercalate (splitAt '/' group) = group ∧
      ∀ segment ∈ splitAt '/' group, segment ≠ "" ∧ '/' ∉ segment.toList := by
  obtain ⟨segments, notNil, isJoin, clean⟩ := normalizeGroup_segments normalised
  have isSplit : splitAt '/' group = segments := by
    rw [isJoin]
    exact splitAt_intercalate notNil fun segment isSegment => (clean segment isSegment).2.2
  rw [isSplit]
  exact ⟨isJoin.symm, fun segment isSegment =>
    ⟨(clean segment isSegment).1, (clean segment isSegment).2.2⟩⟩

theorem plainItems_treeItems (normalised : ∀ entry ∈ entries, ∀ group ∈ entry.group,
    normalizeGroup group = some group) :
    PlainItems lowercase (treeItems lowercase entries filter) := by
  rintro ⟨keys, index⟩ isItem key isKey
  obtain ⟨entry, isEntry, -, rfl⟩ := mem_treeItems.mp isItem
  obtain ⟨name, isName, rfl⟩ := List.mem_map.mp isKey
  unfold groupNames at isName
  cases isGroup : entry.group with
  | none => simp [isGroup] at isName
  | some group =>
    simp only [isGroup] at isName
    have isNormalised := normalised entry (List.mem_of_getElem? isEntry) group isGroup
    obtain ⟨notEmpty, noSlash⟩ := (intercalate_splitAt isNormalised).2 name isName
    exact ⟨rfl, notEmpty, noSlash⟩

theorem rowOf_group_iff {path name : String} {depth count : Nat} {isExpanded : Bool} :
    RowOf (groupOpen expanded filter) (treeItems lowercase entries filter) []
        (.group path name depth count isExpanded) ↔
      ∃ above, path = "/".intercalate (above ++ [name]) ∧ depth = above.length ∧
        count = (entriesBelow lowercase entries filter (above ++ [name])).length ∧ 0 < count ∧
        isExpanded = groupOpen expanded filter path ∧ WayOpen expanded filter above := by
  constructor
  · intro isRow
    generalize isGroup : TreeRow.group path name depth count isExpanded = row at isRow
    cases isRow with
    | @group keys last item isIn isBelow isOpenTo =>
      obtain ⟨entry, isEntry, isShown, isKeys⟩ := mem_treeItems.mp isIn
      rw [isKeys] at isBelow
      obtain ⟨names, isNames, sameKeys⟩ := List.prefix_map_iff.mp isBelow
      obtain ⟨above, rest, rfl, rfl, isLast⟩ := List.map_eq_append_iff.mp sameKeys.symm
      obtain ⟨other, rfl, rfl⟩ := List.map_eq_singleton_iff.mp isLast
      rw [groupRow_treeItems] at isGroup
      cases isGroup
      refine ⟨above, rfl, rfl, rfl, ?_, rfl, wayOpen_iff.mp isOpenTo⟩
      exact List.length_pos_of_mem
        (mem_entriesBelow.mpr ⟨List.mem_of_getElem? isEntry, isShown, isNames⟩)
    | connection => cases isGroup
  · rintro ⟨above, rfl, rfl, rfl, isSome, rfl, wayOpen⟩
    obtain ⟨entry, isBelow⟩ := List.exists_mem_of_length_pos isSome
    obtain ⟨isIn, isShown, isNames⟩ := mem_entriesBelow.mp isBelow
    obtain ⟨index, isEntry⟩ := List.mem_iff_getElem?.mp isIn
    rw [← groupRow_treeItems]
    have isItem := mem_treeItems.mpr ⟨entry, isEntry, isShown, rfl⟩
    have isKeys := isNames.map (nameKey lowercase)
    rw [List.map_append] at isKeys
    exact .group _ _ isItem isKeys (wayOpen_iff.mpr wayOpen)

theorem rowOf_connection_iff {index depth : Nat} :
    RowOf (groupOpen expanded filter) (treeItems lowercase entries filter) []
        (.connection index depth) ↔
      ∃ entry, entries[index]? = some entry ∧ entryShown lowercase filter entry = true ∧
        depth = (groupNames entry).length ∧ WayOpen expanded filter (groupNames entry) := by
  constructor
  · intro isRow
    generalize isConnection : TreeRow.connection index depth = row at isRow
    cases isRow with
    | group => cases isConnection
    | @connection item isIn isOpenTo =>
      obtain ⟨keys, other⟩ := item
      obtain ⟨entry, isEntry, isShown, rfl⟩ := mem_treeItems.mp isIn
      cases isConnection
      exact ⟨entry, isEntry, isShown, by simp, wayOpen_iff.mp isOpenTo⟩
  · rintro ⟨entry, isEntry, isShown, rfl, wayOpen⟩
    have isRow : RowOf (groupOpen expanded filter) (treeItems lowercase entries filter) []
        (.connection index (([] : List GroupKey).length +
          ((groupNames entry).map (nameKey lowercase)).length)) :=
      .connection (mem_treeItems.mpr ⟨entry, isEntry, isShown, rfl⟩) (wayOpen_iff.mpr wayOpen)
    simpa using isRow

/-- A row below another one, as the entries have it. -/
theorem rightBelow_of_parentOf (plain : PlainItems lowercase (treeItems lowercase entries filter))
    (normalised : ∀ entry ∈ entries, ∀ group ∈ entry.group, normalizeGroup group = some group)
    {parent row : TreeRow}
    (isParent : ParentOf (groupOpen expanded filter) (treeItems lowercase entries filter) []
      parent row) : RightBelow entries parent row := by
  cases isParent with
  | @group keys last next item isIn isBelow =>
    have isPlain : ∀ key ∈ keys ++ [last], PlainKey lowercase key := fun key isKey =>
      plain item isIn key (isBelow.subset (List.mem_append_left _ isKey))
    have notEmpty := joinKeys_ne_empty isPlain (by simp)
    refine ⟨by simp [groupRow, TreeRow.depth], joinKeys (keys ++ [last]), rfl, ?_⟩
    rw [List.nil_append, joinKeys_append_singleton isPlain, joinGroup, if_neg notEmpty]
  | @connection keys last item isIn isPath =>
    obtain ⟨path, index⟩ := item
    obtain ⟨entry, isEntry, -, isKeys⟩ := mem_treeItems.mp isIn
    dsimp only at isPath
    refine ⟨by simp [groupRow, TreeRow.depth, isPath], entry, ?_⟩
    have notNil : groupNames entry ≠ [] := by
      rintro isNil
      rw [isPath, isNil] at isKeys
      simp at isKeys
    unfold groupNames at isKeys notNil
    cases isGroup : entry.group with
    | none => simp [isGroup] at notNil
    | some group =>
      refine ⟨group, isEntry, rfl, ?_⟩
      simp only [isGroup] at isKeys
      have isJoin : joinKeys (keys ++ [last]) = group := by
        rw [← isPath, isKeys, joinKeys_map]
        exact (intercalate_splitAt (normalised entry (List.mem_of_getElem? isEntry) group isGroup)).1
      rw [groupRow, TreeRow.groupPath, List.nil_append, isJoin]

end Entries

/-- A connection with a name, in a group or in none. -/
def sampleConnection (name : String) (group : Option String) : ConnectionEntry :=
  ⟨name, "ssh", name ++ ".example", 22, "", none, [], group, [], false, [], .profile⟩

end Porthmos
