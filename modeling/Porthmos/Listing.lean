import Mathlib.Data.List.Sort
import Mathlib.Data.String.Basic
import Porthmos.FileSystem
import Mathlib.Data.List.Infix

/-!
# Listings

The rows of a panel: the entries of a folder without the hidden ones and without those
that the filter leaves out, sorted, after a row for the parent folder.  How a text is
turned to lower case is a parameter.
-/

namespace Porthmos

/-! ### Filters -/

/-- The loop of `match_from`, if it ends within so many rounds.  `star` is the last star and
the first character of the name that is not matched by it. -/
def matchRounds (pattern name : List Char) : Nat → Nat → Nat → Option (Nat × Nat) → Bool
  | 0, _, _, _ => false
  | rounds + 1, position, matched, star =>
    if matched < name.length then
      if pattern[position]? = some '?' ∨
          (position < pattern.length ∧ pattern[position]? = name[matched]?) then
        matchRounds pattern name rounds (position + 1) (matched + 1) star
      else if pattern[position]? = some '*' then
        matchRounds pattern name rounds (position + 1) matched (some (position, matched))
      else
        match star with
        | some (starred, first) =>
          matchRounds pattern name rounds (starred + 1) (first + 1) (some (starred, first + 1))
        | none => false
    else (pattern.drop position).all fun char => decide (char = '*')

/-- Every time the loop goes back to a star, the star matches one character more. -/
def matchFrom (pattern name : List Char) : Bool :=
  matchRounds pattern name ((name.length + 1) * (name.length + pattern.length + 1) + 1) 0 0 none

def globMatch (lower : String → String) (pattern name : String) : Bool :=
  matchFrom (lower pattern).toList (lower name).toList

def nameMatches (lower : String → String) (filter name : String) : Bool :=
  if filter.toList.any fun char => decide (char = '*' ∨ char = '?') then
    globMatch lower filter name
  else decide ((lower filter).toList <:+: (lower name).toList)

/-! ### Sorting -/

inductive SortKey
  | name
  | size
  deriving DecidableEq, Repr

inductive SortOrder
  | ascending
  | descending
  deriving DecidableEq, Repr

structure SortSpec where
  key : SortKey
  order : SortOrder
  deriving DecidableEq, Repr

def SortSpec.default : SortSpec := ⟨.name, .ascending⟩

def SortSpec.cycled : SortSpec → SortSpec
  | ⟨.name, .ascending⟩ => ⟨.name, .descending⟩
  | ⟨.name, .descending⟩ => ⟨.size, .ascending⟩
  | ⟨.size, .ascending⟩ => ⟨.size, .descending⟩
  | ⟨.size, .descending⟩ => ⟨.name, .ascending⟩

def compareBy (lower : String → String) (spec : SortSpec) (first second : Entry) : Ordering :=
  let primary := match spec.key with
    | .name => compare (lower first.name) (lower second.name)
    | .size => compare first.size second.size
  let primary := match spec.order with
    | .ascending => primary
    | .descending => primary.swap
  primary.then (compare (lower first.name) (lower second.name))

/-- Folders stand before files. -/
def sortEntries (lower : String → String) (spec : SortSpec) (entries : List Entry) : List Entry :=
  entries.insertionSort fun first second =>
    ((compare second.isDir first.isDir).then (compareBy lower spec first second)).isLE = true

/-! ### Rows -/

inductive Row
  | parent
  | entry (entry : Entry)
  deriving DecidableEq, Repr

structure Listing where
  path : Path
  entries : List Entry
  rows : List Row
  sortSpec : SortSpec
  showHidden : Bool
  filter : Option String
  shown : Nat
  deriving DecidableEq, Repr

namespace Listing

def recomputeRows (lower : String → String) (listing : Listing) : Listing :=
  let shown := listing.entries.filter fun entry =>
    listing.showHidden || !decide (entry.name.toList.head? = some '.')
  let visible := shown.filter fun entry =>
    listing.filter.all fun filter => nameMatches lower filter entry.name
  let above := if listing.path.parent.isSome then [Row.parent] else []
  { listing with
    shown := shown.length
    rows := above ++ (sortEntries lower listing.sortSpec visible).map .entry }

def new (lower : String → String) (path : Path) (entries : List Entry) (sortSpec : SortSpec)
    (showHidden : Bool) : Listing :=
  recomputeRows lower ⟨path, entries, [], sortSpec, showHidden, none, 0⟩

/-- Paths are equal when their components are. -/
def samePlace (listing : Listing) (path : Path) : Bool :=
  decide (path.components = listing.path.components)

def replace (lower : String → String) (listing : Listing) (path : Path) (entries : List Entry) :
    Listing :=
  recomputeRows lower { listing with
    filter := if listing.samePlace path then listing.filter else none
    path := path
    entries := entries }

def toggleHidden (lower : String → String) (listing : Listing) : Listing :=
  recomputeRows lower { listing with showHidden := !listing.showHidden }

def cycleSort (lower : String → String) (listing : Listing) : Listing :=
  recomputeRows lower { listing with sortSpec := listing.sortSpec.cycled }

/-- An empty filter is none. -/
def setFilter (lower : String → String) (listing : Listing) (filter : Option String) : Listing :=
  recomputeRows lower { listing with filter := filter.filter fun text => decide (text ≠ "") }

end Listing

end Porthmos
