import Porthmos.PanelView

/-!
# The anchor of a filter

While a filter narrows a panel down, the panel remembers the row that its cursor was on and where
the cursor was put, and goes back to that row once the filter is gone.  The cursor is always at a
row; whether it comes back depends on what is remembered when the filter begins.
-/

namespace Porthmos

/-! ### Rows -/

/-- What tells a row from the others. -/
def Row.key : Row → Option (List Component)
  | .parent => none
  | .entry shown => some shown.path.components

def Anchor.key : Anchor → Option (List Component)
  | .parent => none
  | .entry path => some path.components

namespace Listing

variable {lower : String → String} {listing : Listing}

@[simp]
theorem setFilter_setFilter (first second : Option String) :
    (listing.setFilter lower first).setFilter lower second = listing.setFilter lower second := rfl

theorem setFilter_none (noFilter : listing.filter = none) :
    listing.setFilter lower none = listing.recomputeRows lower := by
  cases listing
  cases noFilter
  rfl

theorem rows_setFilter (filter : Option String) : ∃ above visible,
    (above = [] ∨ above = [Row.parent]) ∧ visible.Sublist listing.entries ∧
      ∃ shown : List Entry, shown.Perm visible ∧
        (listing.setFilter lower filter).rows = above ++ shown.map Row.entry := by
  refine ⟨_, _, ?_, ?_, _, List.perm_insertionSort _ _, rfl⟩
  · split_ifs
    · exact .inr rfl
    · exact .inl rfl
  · exact List.filter_sublist.trans List.filter_sublist

theorem nodup_keys (distinct : (listing.entries.map fun entry => entry.path.components).Nodup)
    (filter : Option String) : ((listing.setFilter lower filter).rows.map Row.key).Nodup := by
  obtain ⟨above, visible, isAbove, sublist, shown, perm, rows⟩ := @rows_setFilter lower listing filter
  have shownDistinct : (shown.map fun entry => entry.path.components).Nodup :=
    (perm.map _).nodup_iff.mpr (distinct.sublist (sublist.map _))
  have entryKeys : ((shown.map Row.entry).map Row.key).Nodup := by
    rw [List.map_map]
    have keys : Row.key ∘ Row.entry = some ∘ fun entry : Entry => entry.path.components := rfl
    rw [keys, ← List.map_map]
    exact shownDistinct.map (Option.some_injective _)
  rw [rows, List.map_append]
  rcases isAbove with rfl | rfl
  · exact entryKeys
  · simp only [List.map_cons, List.map_nil, List.cons_append, List.nil_append, List.nodup_cons]
    exact ⟨by simp [Row.key], entryKeys⟩

theorem rows_setFilter_eq_nil (noRows : (listing.setFilter lower none).rows = [])
    (filter : Option String) : (listing.setFilter lower filter).rows = [] := by
  simp only [setFilter, recomputeRows, sortEntries, List.append_eq_nil_iff, List.map_eq_nil_iff,
    Option.filter_none, Option.all_none, List.filter_true] at noRows ⊢
  obtain ⟨noParent, noEntries⟩ := noRows
  have shown := (List.perm_insertionSort _ _).symm.trans (List.Perm.of_eq noEntries)
  refine ⟨noParent, ?_⟩
  rw [shown.eq_nil, List.filter_nil, List.insertionSort_nil]

end Listing

namespace PanelView

variable {lower : String → String} {panel : PanelView}

/-- `move_cursor` -/
def moveCursorBy (panel : PanelView) (delta : Int) : PanelView :=
  if panel.rows = [] then panel
  else
    let next := max 0 (min ((panel.cursor : Int) + delta) (panel.rows.length - 1))
    { panel with cursor := next.toNat }

/-! ### Where an anchor leads -/

/-- `apply_filter` goes back to an anchor that is shown, or else to the first entry. -/
def leads (panel : PanelView) (anchor : Option Anchor) : Nat :=
  ((anchor.bind panel.positionOf).or panel.firstMatch).getD 0

/-- The anchor that `apply_filter` goes on with: the remembered one, unless the cursor has moved. -/
def usedAnchor (panel : PanelView) : Option Anchor :=
  match panel.anchor with
  | some (anchor, placed) => if placed = panel.cursor then some anchor else panel.anchorAtCursor
  | none => panel.anchorAtCursor

def CursorValid (panel : PanelView) : Prop :=
  panel.cursor < panel.rows.length ∨ panel.rows = [] ∧ panel.cursor = 0

theorem positionOf_eq (panel : PanelView) (anchor : Anchor) :
    panel.positionOf anchor = panel.rows.findIdx? fun row => decide (row.key = anchor.key) := by
  unfold positionOf
  congr 1
  funext row
  cases row <;> cases anchor <;> simp [Row.key, Anchor.key]

theorem leads_valid (panel : PanelView) (anchor : Option Anchor) :
    panel.leads anchor < panel.rows.length ∨ panel.rows = [] ∧ panel.leads anchor = 0 := by
  cases found : (anchor.bind panel.positionOf).or panel.firstMatch with
  | none =>
    rw [leads, found, Option.getD_none]
    rcases List.eq_nil_or_concat panel.rows with noRows | ⟨rows, row, isRows⟩
    · exact .inr ⟨noRows, rfl⟩
    · left
      simp [isRows]
  | some index =>
    left
    rw [leads, found, Option.getD_some]
    rcases Option.or_eq_some_iff.mp found with kept | ⟨-, first⟩
    · obtain ⟨anchor, -, position⟩ := Option.bind_eq_some_iff.mp kept
      exact (List.findIdx?_eq_some_iff_findIdx_eq.mp position).1
    · exact (List.findIdx?_eq_some_iff_findIdx_eq.mp first).1

/-- The row at the cursor is found there again, since no two rows are the same. -/
theorem leads_anchorAtCursor (distinct : (panel.rows.map Row.key).Nodup)
    (valid : panel.CursorValid) : panel.leads panel.anchorAtCursor = panel.cursor := by
  rcases valid with inside | ⟨noRows, isZero⟩
  · have isRow : panel.currentRow = some panel.rows[panel.cursor] := List.getElem?_eq_getElem inside
    have position : (panel.anchorAtCursor.bind panel.positionOf) = some panel.cursor := by
      obtain ⟨anchor, isAnchor, key⟩ : ∃ anchor, panel.anchorAtCursor = some anchor ∧
          anchor.key = panel.rows[panel.cursor].key := by
        unfold anchorAtCursor
        rw [isRow]
        cases panel.rows[panel.cursor] with
        | parent => exact ⟨.parent, rfl, rfl⟩
        | entry entry => exact ⟨.entry entry.path, rfl, rfl⟩
      rw [isAnchor, Option.bind_some, positionOf_eq, List.findIdx?_eq_some_iff_getElem]
      refine ⟨inside, decide_eq_true key.symm, ?_⟩
      intro index before
      rw [Bool.not_eq_true, decide_eq_false_iff_not, key]
      intro same
      apply List.nodup_iff_getElem?_ne_getElem?.mp distinct index panel.cursor before
      · rw [List.length_map]
        exact inside
      · rw [List.getElem?_map, List.getElem?_map, List.getElem?_eq_getElem inside,
          List.getElem?_eq_getElem (before.trans inside), Option.map_some, Option.map_some, same]
    rw [leads, position, Option.some_or, Option.getD_some]
  · rw [isZero]
    rcases panel.leads_valid panel.anchorAtCursor with inside | ⟨-, zero⟩
    · rw [noRows] at inside
      exact absurd inside (Nat.not_lt_zero _)
    · exact zero

/-! ### Filtering -/

theorem applyFilter_spec (lower : String → String) (panel : PanelView) (text : Option String) :
    let after := panel.applyFilter lower text
    after.listing = panel.listing.setFilter lower text ∧
      after.anchor = panel.usedAnchor.map (fun anchor => (anchor, after.cursor)) ∧
      after.CursorValid ∧
      (after.filter = none → after.cursor = after.leads panel.usedAnchor) := by
  refine ⟨rfl, rfl, ?_, ?_⟩
  · exact leads_valid { panel with listing := panel.listing.setFilter lower text } _
  · intro noFilter
    have noText : (panel.listing.setFilter lower text).filter = none := noFilter
    have kept : (panel.usedAnchor.filter fun anchor =>
        (panel.listing.setFilter lower text).filter.isNone || decide (anchor ≠ .parent)) =
        panel.usedAnchor := by
      rw [noText]
      cases panel.usedAnchor <;> rfl
    show leads { panel with listing := panel.listing.setFilter lower text }
      (panel.usedAnchor.filter fun anchor =>
        (panel.listing.setFilter lower text).filter.isNone || decide (anchor ≠ .parent)) = _
    rw [kept]
    rfl

end PanelView

/-! ### Steps -/

inductive PanelStep
  | replaceListing (path : Path) (entries : List Entry)
  | toggleHidden
  | cycleSort
  | startFilter
  | typeFilter (character : Char)
  | eraseFilter
  | finishFilter
  | clearFilter
  | moveCursor (delta : Int)
  | toggleSelection

namespace PanelStep

def apply (lower : String → String) (panel : PanelView) : PanelStep → PanelView
  | replaceListing path entries => panel.replaceListing lower path entries
  | toggleHidden => panel.toggleHidden lower
  | cycleSort => panel.cycleSort lower
  | startFilter => panel.startFilter
  | typeFilter character => panel.typeFilter lower character
  | eraseFilter => panel.eraseFilter lower
  | finishFilter => panel.finishFilter
  | clearFilter => panel.clearFilter lower
  | moveCursor delta => panel.moveCursorBy delta
  | toggleSelection => panel.toggleSelection

/-- The entries of a listing have distinct paths. -/
def Lists : PanelStep → Prop
  | replaceListing _ entries => (entries.map fun entry => entry.path.components).Nodup
  | _ => True

/-- A step that neither moves the cursor nor ends the filter, and keeps the listing. -/
def Narrows : PanelStep → Prop
  | startFilter | typeFilter _ | eraseFilter | finishFilter | toggleSelection => True
  | _ => False

end PanelStep

namespace PanelView

variable {lower : String → String} {panel : PanelView}

def after (lower : String → String) (panel : PanelView) (steps : List PanelStep) : PanelView :=
  steps.foldl (PanelStep.apply lower) panel

/-- Whatever is typed and erased, clearing the filter puts the cursor back on its row. -/
def Returns (lower : String → String) (panel : PanelView) : Prop :=
  ∀ steps : List PanelStep, (∀ step ∈ steps, step.Narrows) →
    ((panel.after lower steps).clearFilter lower).rows = panel.rows ∧
      ((panel.after lower steps).clearFilter lower).cursor = panel.cursor

/-- The panel between two steps. -/
structure Sound (lower : String → String) (panel : PanelView) : Prop where
  rows : panel.listing.recomputeRows lower = panel.listing
  text : panel.filter ≠ some ""
  distinct : (panel.listing.entries.map fun entry => entry.path.components).Nodup
  cursor : panel.CursorValid

theorem cursorValid_clamp (panel : PanelView) : panel.clampCursor.CursorValid := by
  rcases List.eq_nil_or_concat panel.rows with noRows | ⟨rows, row, isRows⟩
  · right
    have noRows' : panel.clampCursor.rows = [] := noRows
    refine ⟨noRows', ?_⟩
    simp [clampCursor, noRows]
  · left
    have sameRows : panel.clampCursor.rows = panel.rows := rfl
    rw [sameRows, isRows]
    simp only [clampCursor, isRows, List.concat_eq_append, List.length_append, List.length_cons,
      List.length_nil]
    omega

theorem filter_setFilter_ne (listing : Listing) (text : Option String) :
    (listing.setFilter lower text).filter ≠ some "" := by
  intro isEmpty
  exact of_decide_eq_true (Option.filter_eq_some_iff.mp isEmpty).2 rfl

theorem toggleSelection_eq (panel : PanelView) :
    ∃ selected, panel.toggleSelection = { panel with selected } := by
  unfold toggleSelection
  split
  · exact ⟨panel.selected, rfl⟩
  · split_ifs
    · exact ⟨_, rfl⟩
    · exact ⟨_, rfl⟩

namespace Sound

theorem new (path : Path) (sortSpec : SortSpec) (showHidden : Bool) :
    (PanelView.new lower path sortSpec showHidden).Sound lower where
  rows := rfl
  text := nofun
  distinct := List.nodup_nil
  cursor := by
    rcases List.eq_nil_or_concat (PanelView.new lower path sortSpec showHidden).rows with
      noRows | ⟨rows, row, isRows⟩
    · exact .inr ⟨noRows, rfl⟩
    · left
      rw [isRows, List.length_concat]
      exact Nat.succ_pos _

theorem applyFilter (sound : panel.Sound lower) (text : Option String) :
    (panel.applyFilter lower text).Sound lower where
  rows := rfl
  text := filter_setFilter_ne panel.listing text
  distinct := sound.distinct
  cursor := (panel.applyFilter_spec lower text).2.2.1

theorem step (sound : panel.Sound lower) {step : PanelStep} (lists : step.Lists) :
    (step.apply lower panel).Sound lower := by
  cases step with
  | replaceListing path entries =>
    refine ⟨rfl, ?_, lists, cursorValid_clamp _⟩
    show (if panel.listing.samePlace path then panel.filter else none) ≠ some ""
    split_ifs
    · exact sound.text
    · nofun
  | toggleHidden => exact ⟨rfl, sound.text, sound.distinct, cursorValid_clamp _⟩
  | cycleSort => exact ⟨rfl, sound.text, sound.distinct, cursorValid_clamp _⟩
  | startFilter => exact ⟨sound.rows, sound.text, sound.distinct, sound.cursor⟩
  | typeFilter character => exact sound.applyFilter _
  | eraseFilter => exact sound.applyFilter _
  | finishFilter => exact ⟨sound.rows, sound.text, sound.distinct, sound.cursor⟩
  | clearFilter =>
    have filtered := (show panel.finishFilter.Sound lower from
      ⟨sound.rows, sound.text, sound.distinct, sound.cursor⟩).applyFilter none
    exact ⟨filtered.rows, filtered.text, filtered.distinct, filtered.cursor⟩
  | moveCursor delta =>
    simp only [PanelStep.apply, moveCursorBy]
    split_ifs with noRows
    · exact sound
    · refine ⟨sound.rows, sound.text, sound.distinct, .inl ?_⟩
      have some_rows := List.length_pos_iff.mpr noRows
      show (max 0 (min ((panel.cursor : Int) + delta) (panel.rows.length - 1))).toNat <
        panel.rows.length
      omega
  | toggleSelection =>
    obtain ⟨selected, isSelected⟩ := panel.toggleSelection_eq
    rw [PanelStep.apply, isSelected]
    exact ⟨sound.rows, sound.text, sound.distinct, sound.cursor⟩

theorem after (sound : panel.Sound lower) (steps : List PanelStep)
    (lists : ∀ step ∈ steps, step.Lists) : (panel.after lower steps).Sound lower := by
  induction steps generalizing panel with
  | nil => exact sound
  | cons step steps ih =>
    exact ih (sound.step (lists step List.mem_cons_self)) fun other member =>
      lists other (List.mem_cons_of_mem _ member)

end Sound

/-! ### Narrowing -/

/-- While a filter is typed the listing stays the same but for its filter, and so does the anchor
that the next filter uses. -/
structure Narrowed (lower : String → String) (before panel : PanelView) : Prop where
  listing : ∃ text, panel.listing = before.listing.setFilter lower text
  anchor : panel.usedAnchor = before.usedAnchor

theorem leads_congr {first second : PanelView} (sameRows : first.rows = second.rows)
    (anchor : Option Anchor) : first.leads anchor = second.leads anchor := by
  have samePlaces : first.positionOf = second.positionOf := by
    funext anchor
    rw [positionOf_eq, positionOf_eq, sameRows]
  rw [leads, leads, samePlaces, firstMatch, firstMatch, sameRows]

theorem rows_eq_nil_of_usedAnchor (valid : panel.CursorValid) (noAnchor : panel.usedAnchor = none) :
    panel.rows = [] := by
  have noRow : panel.anchorAtCursor = none := by
    unfold usedAnchor at noAnchor
    split at noAnchor
    · split_ifs at noAnchor
      exact noAnchor
    · exact noAnchor
  rcases valid with inside | ⟨noRows, -⟩
  · rw [anchorAtCursor, Option.map_eq_none_iff, currentRow, List.getElem?_eq_none_iff] at noRow
    omega
  · exact noRows

namespace Narrowed

variable {before : PanelView}

theorem applyFilter (sound : before.Sound lower) (noFilter : before.filter = none)
    (narrowed : Narrowed lower before panel) (text : Option String) :
    Narrowed lower before (panel.applyFilter lower text) := by
  obtain ⟨listing, anchor, -, -⟩ := panel.applyFilter_spec lower text
  obtain ⟨earlier, isListing⟩ := narrowed.listing
  rw [isListing, Listing.setFilter_setFilter] at listing
  refine ⟨⟨text, listing⟩, ?_⟩
  cases used : before.usedAnchor with
  | some kept =>
    rw [narrowed.anchor, used, Option.map_some] at anchor
    simp [usedAnchor, anchor]
  | none =>
    rw [narrowed.anchor, used, Option.map_none] at anchor
    have noRows : (before.listing.setFilter lower none).rows = [] := by
      rw [Listing.setFilter_none noFilter, sound.rows]
      exact rows_eq_nil_of_usedAnchor sound.cursor used
    have stillNone : (panel.applyFilter lower text).rows = [] := by
      rw [rows, listing]
      exact Listing.rows_setFilter_eq_nil noRows text
    simp [usedAnchor, anchor, anchorAtCursor, currentRow, stillNone]

theorem step (sound : before.Sound lower) (noFilter : before.filter = none)
    (narrowed : Narrowed lower before panel) {step : PanelStep} (narrows : step.Narrows) :
    Narrowed lower before (step.apply lower panel) := by
  cases step with
  | startFilter => exact ⟨narrowed.listing, narrowed.anchor⟩
  | finishFilter => exact ⟨narrowed.listing, narrowed.anchor⟩
  | typeFilter character => exact narrowed.applyFilter sound noFilter _
  | eraseFilter => exact narrowed.applyFilter sound noFilter _
  | toggleSelection =>
    obtain ⟨selected, isSelected⟩ := panel.toggleSelection_eq
    rw [PanelStep.apply, isSelected]
    exact ⟨narrowed.listing, narrowed.anchor⟩
  | replaceListing _ _ => exact narrows.elim
  | toggleHidden => exact narrows.elim
  | cycleSort => exact narrows.elim
  | clearFilter => exact narrows.elim
  | moveCursor _ => exact narrows.elim

theorem after (sound : before.Sound lower) (noFilter : before.filter = none)
    (steps : List PanelStep) (narrow : ∀ step ∈ steps, step.Narrows)
    (narrowed : Narrowed lower before panel) :
    Narrowed lower before (panel.after lower steps) := by
  induction steps generalizing panel with
  | nil => exact narrowed
  | cons step steps ih =>
    apply ih fun other member => narrow other (List.mem_cons_of_mem _ member)
    exact narrowed.step sound noFilter (narrow step List.mem_cons_self)

theorem clearFilter (sound : before.Sound lower) (noFilter : before.filter = none)
    (narrowed : Narrowed lower before panel) :
    (panel.clearFilter lower).rows = before.rows ∧
      (panel.clearFilter lower).cursor = before.leads before.usedAnchor := by
  obtain ⟨earlier, isListing⟩ := narrowed.listing
  have listing : (panel.clearFilter lower).listing = before.listing := by
    show panel.listing.setFilter lower none = _
    rw [isListing, Listing.setFilter_setFilter, Listing.setFilter_none noFilter, sound.rows]
  have sameRows : (panel.clearFilter lower).rows = before.rows := by
    rw [rows, listing]
    rfl
  have leads := (panel.finishFilter.applyFilter_spec lower none).2.2.2 rfl
  refine ⟨sameRows, ?_⟩
  rw [← leads_congr sameRows, ← narrowed.anchor]
  exact leads

end Narrowed

/-! ### Anchors that hold -/

/-- An anchor that is remembered for the cursor's place is the row there, or it is not shown and
the cursor is at the first entry. -/
def AnchorHolds (panel : PanelView) : Prop :=
  ∀ anchor, panel.anchor = some (anchor, panel.cursor) → panel.leads (some anchor) = panel.cursor

theorem returns_iff (sound : panel.Sound lower) (noFilter : panel.filter = none) :
    panel.Returns lower ↔ panel.AnchorHolds := by
  have unfiltered : panel.listing.setFilter lower none = panel.listing :=
    (Listing.setFilter_none noFilter).trans sound.rows
  have here : Narrowed lower panel panel := ⟨⟨none, unfiltered.symm⟩, rfl⟩
  have distinct : (panel.rows.map Row.key).Nodup := by
    rw [rows, ← unfiltered]
    exact Listing.nodup_keys sound.distinct none
  have comesTo (steps : List PanelStep) (narrow : ∀ step ∈ steps, step.Narrows) :=
    (here.after sound noFilter steps narrow).clearFilter sound noFilter
  have used_iff : panel.leads panel.usedAnchor = panel.cursor ↔ panel.AnchorHolds := by
    unfold usedAnchor AnchorHolds
    split
    next anchor placed isAnchor =>
      rw [isAnchor]
      split_ifs with atCursor
      · simp [atCursor]
      · simp [leads_anchorAtCursor distinct sound.cursor, atCursor]
    next noAnchor =>
      rw [noAnchor]
      simp [leads_anchorAtCursor distinct sound.cursor]
  constructor
  · intro returns
    have nothing : ∀ step ∈ ([] : List PanelStep), step.Narrows := nofun
    exact used_iff.mp ((comesTo [] nothing).2.symm.trans (returns [] nothing).2)
  · intro holds steps narrow
    obtain ⟨sameRows, cursor⟩ := comesTo steps narrow
    exact ⟨sameRows, cursor.trans (used_iff.mpr holds)⟩

/-- What is remembered without a filter leads to the place that is remembered with it. -/
def Settled (panel : PanelView) : Prop :=
  panel.filter = none → ∀ anchor placed, panel.anchor = some (anchor, placed) →
    panel.leads (some anchor) = placed

/-- Where the row of the remembered anchor stands among the rows of a listing. -/
def anchorStays (panel : PanelView) (listing : Listing) : Prop :=
  ∀ anchor placed, panel.anchor = some (anchor, placed) →
    leads { panel with listing } (some anchor) = placed

end PanelView

namespace PanelStep

/-- Rows are sorted anew, hidden or shown only where a filter is active or the remembered row
keeps its place. -/
def Careful (lower : String → String) (panel : PanelView) : PanelStep → Prop
  | toggleHidden => panel.filter = none → panel.anchorStays (panel.listing.toggleHidden lower)
  | cycleSort => panel.filter = none → panel.anchorStays (panel.listing.cycleSort lower)
  | _ => True

end PanelStep

namespace PanelView

variable {lower : String → String} {panel : PanelView}

def CarefulRun (lower : String → String) (panel : PanelView) : List PanelStep → Prop
  | [] => True
  | step :: steps => step.Careful lower panel ∧ CarefulRun lower (step.apply lower panel) steps

theorem settled_applyFilter (panel : PanelView) (text : Option String) :
    (panel.applyFilter lower text).Settled := by
  intro noFilter anchor placed isAnchor
  obtain ⟨-, anchors, -, leads⟩ := panel.applyFilter_spec lower text
  rw [anchors, Option.map_eq_some_iff] at isAnchor
  obtain ⟨used, isUsed, same⟩ := isAnchor
  rw [Prod.mk.injEq] at same
  rw [← same.2, leads noFilter, isUsed, same.1]

theorem Settled.step (settled : panel.Settled) {step : PanelStep}
    (careful : step.Careful lower panel) : (step.apply lower panel).Settled := by
  cases step with
  | replaceListing path entries => exact fun _ _ _ isAnchor => nomatch isAnchor
  | toggleHidden => exact fun noFilter => careful noFilter
  | cycleSort => exact fun noFilter => careful noFilter
  | startFilter => exact settled
  | typeFilter character => exact settled_applyFilter _ _
  | eraseFilter => exact settled_applyFilter _ _
  | finishFilter => exact settled
  | clearFilter => exact fun _ _ _ isAnchor => nomatch isAnchor
  | moveCursor delta =>
    simp only [PanelStep.apply, moveCursorBy]
    split_ifs
    · exact settled
    · exact settled
  | toggleSelection =>
    obtain ⟨selected, isSelected⟩ := panel.toggleSelection_eq
    rw [PanelStep.apply, isSelected]
    exact settled

theorem Settled.after (settled : panel.Settled) (steps : List PanelStep)
    (careful : panel.CarefulRun lower steps) : (panel.after lower steps).Settled := by
  induction steps generalizing panel with
  | nil => exact settled
  | cons step steps ih => exact ih (settled.step careful.1) careful.2

/-- The cursor is always at a row.  Clearing a filter puts it back on its row if and only if the
anchor of the panel holds, as it does in every run of careful steps. -/
theorem cursor_returns_iff (path : Path) (sortSpec : SortSpec) (showHidden : Bool)
    (steps : List PanelStep) (lists : ∀ step ∈ steps, step.Lists) :
    let start := PanelView.new lower path sortSpec showHidden
    let panel := start.after lower steps
    panel.CursorValid ∧
      (panel.filter = none → (panel.Returns lower ↔ panel.AnchorHolds)) ∧
      (start.CarefulRun lower steps → panel.filter = none → panel.Returns lower) := by
  intro start panel
  have sound : panel.Sound lower := (Sound.new path sortSpec showHidden).after steps lists
  refine ⟨sound.cursor, returns_iff sound, ?_⟩
  intro careful noFilter
  have settled : panel.Settled := by
    apply Settled.after _ steps careful
    exact fun _ _ _ isAnchor => nomatch isAnchor
  exact (returns_iff sound noFilter).mpr fun anchor isAnchor =>
    settled noFilter anchor panel.cursor isAnchor

def twoFiles : List Entry := [⟨"a", ⟨"/a"⟩, false, 1⟩, ⟨"b", ⟨"/b"⟩, false, 2⟩]

theorem cursor_returns_twoFiles :
    let start := PanelView.new id ⟨"/"⟩ .default false
    let panel := start.after id [.replaceListing ⟨"/"⟩ twoFiles, .moveCursor 1]
    panel.CursorValid ∧ (panel.filter = none → (panel.Returns id ↔ panel.AnchorHolds)) ∧
      (start.CarefulRun id [.replaceListing ⟨"/"⟩ twoFiles, .moveCursor 1] →
        panel.filter = none → panel.Returns id) :=
  cursor_returns_iff ⟨"/"⟩ .default false _ (by simp [PanelStep.Lists, twoFiles]; decide)

/-- The rows are turned around under an anchor of an erased filter. -/
theorem cursor_strays :
    let start := PanelView.new id ⟨"/"⟩ .default false
    let panel := start.after id
      [.replaceListing ⟨"/"⟩ twoFiles, .typeFilter 'x', .eraseFilter, .cycleSort]
    panel.filter = none ∧ panel.currentEntryName = some "b" ∧
      ((panel.after id [.typeFilter 'x']).clearFilter id).currentEntryName = some "a" ∧
      ¬ panel.Returns id := by
  refine ⟨by decide, by decide, by decide, ?_⟩
  intro returns
  have narrow : ∀ step ∈ [PanelStep.typeFilter 'x'], step.Narrows := by
    intro step member
    rw [List.mem_singleton.mp member]
    trivial
  exact absurd (returns _ narrow).2 (by decide)

end PanelView

end Porthmos
