import Porthmos.EngineTransfers
import Porthmos.Listing

/-!
# Panels and sessions

A panel shows the rows of a listing with a cursor and a selection.  The sessions each have a
panel, and one of them is the active one.
-/

namespace Porthmos

inductive ActivePanel
  | «local»
  | remote
  deriving DecidableEq, Repr

def ActivePanel.toggle : ActivePanel → ActivePanel
  | .local => .remote
  | .remote => .local

inductive Anchor
  | parent
  | entry (path : Path)
  deriving DecidableEq, Repr

structure PanelView where
  listing : Listing
  cursor : Nat
  /-- The set of the selected paths. -/
  selected : List Path
  editingFilter : Bool
  anchor : Option (Anchor × Nat)
  deriving DecidableEq, Repr

namespace PanelView

def new (lower : String → String) (path : Path) (sortSpec : SortSpec) (showHidden : Bool) :
    PanelView :=
  ⟨.new lower path [] sortSpec showHidden, 0, [], false, none⟩

def path (panel : PanelView) : Path := panel.listing.path

def rows (panel : PanelView) : List Row := panel.listing.rows

def filter (panel : PanelView) : Option String := panel.listing.filter

def clampCursor (panel : PanelView) : PanelView :=
  { panel with cursor := min panel.cursor (panel.rows.length - 1) }

def replaceListing (lower : String → String) (panel : PanelView) (path : Path)
    (entries : List Entry) : PanelView :=
  clampCursor { panel with
    editingFilter := panel.editingFilter && panel.listing.samePlace path
    listing := panel.listing.replace lower path entries
    anchor := none
    selected := [] }

def fromListing (lower : String → String) (path : Path) (entries : List Entry) : PanelView :=
  (new lower ⟨""⟩ .default false).replaceListing lower path entries

def toggleHidden (lower : String → String) (panel : PanelView) : PanelView :=
  clampCursor { panel with listing := panel.listing.toggleHidden lower }

def cycleSort (lower : String → String) (panel : PanelView) : PanelView :=
  clampCursor { panel with listing := panel.listing.cycleSort lower }

/-! ### The row at the cursor -/

def currentRow (panel : PanelView) : Option Row := panel.rows[panel.cursor]?

def currentEntry (panel : PanelView) : Option Entry :=
  match panel.currentRow with
  | some (.entry entry) => some entry
  | _ => none

def currentEntryName (panel : PanelView) : Option String := panel.currentEntry.map Entry.name

def targetPathForOpen (panel : PanelView) : Option Path :=
  match panel.currentRow with
  | some .parent => panel.path.parent
  | some (.entry entry) => if entry.isDir then some entry.path else none
  | none => none

/-- Whether a path is selected; equal paths have equal components. -/
def isSelected (panel : PanelView) (path : Path) : Bool :=
  panel.selected.any fun other => decide (other.components = path.components)

def toggleSelection (panel : PanelView) : PanelView :=
  match panel.currentEntry with
  | none => panel
  | some entry =>
    if panel.isSelected entry.path then
      { panel with
        selected := panel.selected.filter fun other =>
          decide (other.components ≠ entry.path.components) }
    else { panel with selected := entry.path :: panel.selected }

def visibleSelected (panel : PanelView) : List Entry :=
  panel.rows.filterMap fun
    | .entry entry => if panel.isSelected entry.path then some entry else none
    | .parent => none

def targetEntries (panel : PanelView) : List Entry :=
  match panel.visibleSelected with
  | [] => panel.currentEntry.toList
  | selected => selected

def targets (panel : PanelView) : List Path := panel.targetEntries.map Entry.path

/-- The cursor moves by one row. -/
def moveCursor (panel : PanelView) (down : Bool) : PanelView :=
  if panel.rows = [] then panel
  else
    let next := if down then panel.cursor + 1 else panel.cursor - 1
    { panel with cursor := min next (panel.rows.length - 1) }

/-! ### The filter line -/

def anchorAtCursor (panel : PanelView) : Option Anchor :=
  panel.currentRow.map fun
    | .parent => .parent
    | .entry entry => .entry entry.path

def positionOf (panel : PanelView) (anchor : Anchor) : Option Nat :=
  panel.rows.findIdx? fun row =>
    match row, anchor with
    | .parent, .parent => true
    | .entry entry, .entry path => decide (entry.path.components = path.components)
    | _, _ => false

def firstMatch (panel : PanelView) : Option Nat :=
  panel.rows.findIdx? fun row => decide (row ≠ .parent)

/-- The cursor stays at its row, if that is still there. -/
def applyFilter (lower : String → String) (panel : PanelView) (text : Option String) : PanelView :=
  let anchor := match panel.anchor with
    | some (anchor, placed) => if placed = panel.cursor then some anchor else panel.anchorAtCursor
    | none => panel.anchorAtCursor
  let panel := { panel with listing := panel.listing.setFilter lower text }
  let kept := (anchor.filter fun anchor => panel.filter.isNone || decide (anchor ≠ .parent)).bind
    panel.positionOf
  let cursor := (kept.or panel.firstMatch).getD 0
  { panel with cursor := cursor, anchor := anchor.map fun anchor => (anchor, cursor) }

def startFilter (panel : PanelView) : PanelView := { panel with editingFilter := true }

def finishFilter (panel : PanelView) : PanelView := { panel with editingFilter := false }

def typeFilter (lower : String → String) (panel : PanelView) (character : Char) : PanelView :=
  panel.applyFilter lower (some ((panel.filter.getD "").push character))

def eraseFilter (lower : String → String) (panel : PanelView) : PanelView :=
  panel.applyFilter lower (some (String.ofList (panel.filter.getD "").toList.dropLast))

def clearFilter (lower : String → String) (panel : PanelView) : PanelView :=
  { panel.finishFilter.applyFilter lower none with anchor := none }

end PanelView

/-! ### Sessions -/

structure Session where
  id : Nat
  name : String
  shellAvailable : Bool
  panel : PanelView
  preservesTimes : Bool
  listed : Bool
  deriving DecidableEq, Repr

structure Sessions where
  items : List Session
  activeIndex : Option Nat
  deriving DecidableEq, Repr

namespace Sessions

def new : Sessions := ⟨[], none⟩

def active (sessions : Sessions) : Option Session :=
  sessions.activeIndex.bind fun index => sessions.items[index]?

def activeId (sessions : Sessions) : Option Nat := sessions.active.map Session.id

def byId (sessions : Sessions) (id : Nat) : Option Session :=
  sessions.items.find? fun session => decide (session.id = id)

def byName (sessions : Sessions) (name : String) : Option Session :=
  sessions.items.find? fun session => decide (session.name = name)

def position (sessions : Sessions) (id : Nat) : Option Nat :=
  sessions.items.findIdx? fun session => decide (session.id = id)

/-- A change of the first session of an id. -/
def modify (sessions : Sessions) (id : Nat) (change : Session → Session) : Sessions :=
  match sessions.position id with
  | none => sessions
  | some index => { sessions with items := sessions.items.modify index change }

def modifyActive (sessions : Sessions) (change : Session → Session) : Sessions :=
  match sessions.activeIndex with
  | none => sessions
  | some index => { sessions with items := sessions.items.modify index change }

def insert (sessions : Sessions) (id : Nat) (name : String) (shellAvailable : Bool)
    (panel : PanelView) : Sessions where
  items := sessions.items ++ [⟨id, name, shellAvailable, panel, false, false⟩]
  activeIndex := some sessions.items.length

def setPreservesTimes (sessions : Sessions) (id : Nat) (preservesTimes : Bool) : Sessions :=
  sessions.modify id fun session => { session with preservesTimes }

/-- The active session stays the active one; if it is removed, the next one is active, or the
last one. -/
def remove (sessions : Sessions) (id : Nat) : Sessions :=
  match sessions.position id with
  | none => sessions
  | some index =>
    let items := sessions.items.eraseIdx index
    { items := items
      activeIndex := match sessions.activeIndex with
        | none => none
        | some active =>
          if active = index then if items = [] then none else some (min active (items.length - 1))
          else if index < active then some (active - 1)
          else some active }

def cycle (sessions : Sessions) : Sessions :=
  if sessions.items.length < 2 then sessions
  else { sessions with
    activeIndex := some ((sessions.activeIndex.getD 0 + 1) % sessions.items.length) }

/-- Whether there is such a session, which is then the active one. -/
def activate (sessions : Sessions) (id : Nat) : Option Sessions :=
  (sessions.position id).map fun index => { sessions with activeIndex := some index }

end Sessions

end Porthmos
