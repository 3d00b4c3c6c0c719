import Porthmos.ConnectionLabels
import Porthmos.PathTrie

/-!
# The tree of connections

Connections are shown below the groups that they are in, and only as far as the groups are expanded,
unless a filter is active.  Groups are put together by their names, and ordered without regard to
case first.
-/

namespace Porthmos

/-- `TreeRow` -/
inductive TreeRow
  | group (path name : String) (depth count : Nat) (expanded : Bool)
  | connection (index depth : Nat)
  deriving DecidableEq, Repr

namespace TreeRow

def depth : TreeRow → Nat
  | group _ _ depth _ _ => depth
  | connection _ depth => depth

def groupPath : TreeRow → Option String
  | group path _ _ _ _ => some path
  | connection _ _ => none

def index : TreeRow → Option Nat
  | group _ _ _ _ _ => none
  | connection index _ => some index

end TreeRow

/-! ### Filters -/

section Filters

variable (lowercase : String → String)

/-- `str::contains` -/
def containsText (text needle : String) : Bool := decide (needle.toList <:+: text.toList)

/-- `matches` -/
def entryMatches (entry : ConnectionEntry) (filter : String) : Bool :=
  let filter := trim filter
  if filter.toList.head? = some '#' then
    let tag := trim (stripStart '#' filter)
    tag = "" ∨ entry.tags.any fun kept => lowercase kept = lowercase tag
  else
    let needle := lowercase filter
    containsText (lowercase entry.name) needle || containsText (lowercase entry.host) needle ||
      (entry.group.any fun group => containsText (lowercase group) needle) ||
      entry.tags.any fun tag => containsText (lowercase tag) needle

/-- `str::trim_start_matches` of one character -/
def trimStartChar (char : Char) (text : String) : String :=
  String.ofList (text.toList.dropWhile fun other => other = char)

/-- `active_filter` -/
def activeFilter (filter : Option String) : Option String :=
  filter.filter fun text => trim (trimStartChar '#' (trim text)) ≠ ""

/-- An entry that a filter leaves in, if it is active. -/
def entryShown (filter : Option String) (entry : ConnectionEntry) : Bool :=
  (activeFilter filter).all (entryMatches lowercase entry)

end Filters

/-! ### Rows -/

/-- The names of groups in their order: in lower case, and as they are. -/
abbrev GroupKey := String ×ₗ String

def nameKey (lowercase : String → String) (name : String) : GroupKey := toLex (lowercase name, name)

def GroupKey.name (key : GroupKey) : String := (ofLex key).2

/-- The names of the groups that an entry is in. -/
def groupNames (entry : ConnectionEntry) : List String :=
  match entry.group with
  | some group => splitAt '/' group
  | none => []

/-- The path of a group below another one. -/
def joinGroup (above name : String) : String := if above = "" then name else above ++ "/" ++ name

section Rows

variable (isOpen : String → Bool)

mutual

/-- `push_rows` -/
def pushRows : PathTrie GroupKey Nat → String → Nat → List TreeRow
  | .node _ connections groups, above, depth =>
    pushGroups groups above depth ++ connections.map fun index => .connection index depth

/-- The loop of `push_rows` over the groups. -/
def pushGroups : List (GroupKey × PathTrie GroupKey Nat) → String → Nat → List TreeRow
  | [], _, _ => []
  | (key, child) :: groups, above, depth =>
    let path := joinGroup above key.name
    .group path key.name depth child.count (isOpen path) ::
      (if isOpen path then pushRows child path (depth + 1) else []) ++ pushGroups groups above depth

end

end Rows

section Tree

variable (lowercase : String → String) (entries : List ConnectionEntry) (expanded : List String)
  (filter : Option String)

/-- The entries that are left in, with their numbers. -/
def shownEntries : List (ConnectionEntry × Nat) :=
  entries.zipIdx.filter fun entry => entryShown lowercase filter entry.1

def connectionTree : PathTrie GroupKey Nat :=
  (shownEntries lowercase entries filter).foldl
    (fun root entry => root.add entry.2 ((groupNames entry.1).map (nameKey lowercase))) .empty

/-- Whether the rows below a group are shown. -/
def groupOpen (path : String) : Bool := (activeFilter filter).isSome || expanded.contains path

/-- `rows` -/
def treeRows : List TreeRow :=
  pushRows (groupOpen expanded filter) (connectionTree lowercase entries filter) "" 0

end Tree

end Porthmos
