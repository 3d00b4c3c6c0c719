import Mathlib.Algebra.GroupWithZero.Nat
import Mathlib.Data.List.Nodup
import Mathlib.Data.List.Pairwise

/-!
# Walks through folders

A walk lists a place, and goes down into the folders that it finds there, the last one first, down
to some number of levels.  Where nothing is found in two places, a walk finds nothing twice.
-/

namespace FolderWalk

section Walk

variable {place item : Type} (list : place → Option (List item)) (inside : item → Option place)

/-- What a place is seen to hold; nothing, if it cannot be listed. -/
def Lists (here : place) (thing : item) : Prop := ∃ things, list here = some things ∧ thing ∈ things

/-- The places that a walk comes to, with the number of levels it has gone down. -/
inductive Down (start : place) : Nat → place → Prop
  | here : Down start 0 start
  | step {levels : Nat} {parent below : place} {thing : item} : Down start levels parent →
      Lists list parent thing → inside thing = some below → Down start (levels + 1) below

/-- Everything that a walk of some levels finds, in its order. -/
def visit : Nat → place → List item
  | 0, _ => []
  | levels + 1, here =>
    match list here with
    | none => []
    | some things => things ++ (things.filterMap inside).reverse.flatMap (visit levels)

/-- A bound for the number of places that a walk of some levels goes on to. -/
def cost : Nat → place → Nat
  | 0, _ => 0
  | levels + 1, here =>
    match list here with
    | none => 0
    | some things => ((things.filterMap inside).map fun below => cost levels below + 1).sum

variable {list inside} {start here parent other below : place} {thing second : item}
  {levels further : Nat}

theorem Down.trans (first : Down list inside start levels here)
    (later : Down list inside here further below) :
    Down list inside start (levels + further) below := by
  induction later with
  | here => exact first
  | step _ isListed isInside ih => exact ih.step isListed isInside

theorem down_succ : Down list inside start (levels + 1) below ↔
    ∃ parent, Down list inside start levels parent ∧
      ∃ thing, Lists list parent thing ∧ inside thing = some below := by
  constructor
  · rintro (_ | ⟨down, isListed, isInside⟩)
    exact ⟨_, down, _, isListed, isInside⟩
  · rintro ⟨parent, down, thing, isListed, isInside⟩
    exact down.step isListed isInside

theorem down_succ_front : Down list inside start (levels + 1) below ↔
    ∃ thing, Lists list start thing ∧ ∃ middle, inside thing = some middle ∧
      Down list inside middle levels below := by
  constructor
  · intro down
    induction levels generalizing below with
    | zero =>
      obtain ⟨parent, ⟨⟩, thing, isListed, isInside⟩ := down_succ.mp down
      exact ⟨thing, isListed, below, isInside, .here⟩
    | succ levels ih =>
      obtain ⟨parent, further, thing, isListed, isInside⟩ := down_succ.mp down
      obtain ⟨first, isFirst, middle, isMiddle, rest⟩ := ih further
      exact ⟨first, isFirst, middle, isMiddle, rest.step isListed isInside⟩
  · rintro ⟨thing, isListed, middle, isInside, down⟩
    have first : Down list inside start 1 middle := Down.here.step isListed isInside
    rw [Nat.add_comm]
    exact first.trans down

/-- A walk finds what is listed where it comes to. -/
theorem mem_visit : thing ∈ visit list inside levels start ↔
    ∃ depth < levels, ∃ here, Down list inside start depth here ∧ Lists list here thing := by
  induction levels generalizing start with
  | zero => simp [visit]
  | succ levels ih =>
    unfold visit
    constructor
    · intro found
      cases isList : list start with
      | none => simp [isList] at found
      | some things =>
        simp only [isList, List.mem_append, List.mem_flatMap, List.mem_reverse,
          List.mem_filterMap] at found
        rcases found with isHere | ⟨middle, ⟨folder, isIn, isInside⟩, later⟩
        · exact ⟨0, Nat.succ_pos levels, start, .here, things, isList, isHere⟩
        · obtain ⟨depth, short, here, down, isListed⟩ := ih.mp later
          refine ⟨depth + 1, Nat.succ_lt_succ short, here, ?_, isListed⟩
          exact down_succ_front.mpr ⟨folder, ⟨things, isList, isIn⟩, middle, isInside, down⟩
    · rintro ⟨depth, short, here, down, isListed⟩
      cases depth with
      | zero =>
        cases down
        obtain ⟨things, isList, isIn⟩ := isListed
        simp [isList, isIn]
      | succ depth =>
        obtain ⟨folder, ⟨things, isList, isIn⟩, middle, isInside, rest⟩ :=
          down_succ_front.mp down
        simp only [isList, List.mem_append, List.mem_flatMap, List.mem_reverse, List.mem_filterMap]
        exact .inr ⟨middle, ⟨folder, isIn, isInside⟩,
          ih.mpr ⟨depth, Nat.lt_of_succ_lt_succ short, here, rest, isListed⟩⟩

end Walk

/-! ### Nothing twice -/

section Distinct

variable {place item name : Type} {list : place → Option (List item)}
  {inside : item → Option place}

/-- What is found on the way down from a place has names of its own. -/
structure Distinct (list : place → Option (List item)) (inside : item → Option place)
    (named : item → name) (start : place) : Prop where
  once : ∀ levels here, Down list inside start levels here →
    ∀ things, list here = some things → (things.map named).Nodup
  apart : ∀ levels here, Down list inside start levels here →
    ∀ further there, Down list inside start further there →
    ∀ thing, Lists list here thing → ∀ second, Lists list there second →
      named thing = named second → here = there
  ofPlace : ∀ thing second below, inside thing = some below → inside second = some below →
    named thing = named second
  notStart : ∀ levels here, Down list inside start levels here →
    ∀ thing, Lists list here thing → inside thing ≠ some start

namespace Distinct

variable {named : item → name} {start here there below : place} {levels further : Nat}

theorem parent_eq (distinct : Distinct list inside named start) {thing second : item}
    (down : Down list inside start levels here) (isListed : Lists list here thing)
    (isInside : inside thing = some below) (downToo : Down list inside start further there)
    (isListedToo : Lists list there second) (isInsideToo : inside second = some below) :
    here = there :=
  distinct.apart levels here down further there downToo thing isListed second isListedToo
    (distinct.ofPlace thing second below isInside isInsideToo)

theorem levels_eq (distinct : Distinct list inside named start)
    (down : Down list inside start levels below) (downToo : Down list inside start further below) :
    levels = further := by
  induction levels generalizing further below with
  | zero =>
    cases down
    cases downToo with
    | here => rfl
    | step down isListed isInside => exact absurd isInside (distinct.notStart _ _ down _ isListed)
  | succ levels ih =>
    obtain ⟨parent, further', thing, isListed, isInside⟩ := down_succ.mp down
    cases downToo with
    | here => exact absurd isInside (distinct.notStart _ _ further' _ isListed)
    | step down' isListed' isInside' =>
      have same := distinct.parent_eq further' isListed isInside down' isListed' isInside'
      subst same
      rw [ih further' down']

theorem start_eq (distinct : Distinct list inside named start) {first second : place}
    {depth : Nat} (toFirst : Down list inside start levels first)
    (toSecond : Down list inside start further second) (down : Down list inside first depth below)
    (downToo : Down list inside second depth below) : first = second := by
  induction depth generalizing below with
  | zero =>
    cases down
    cases downToo
    rfl
  | succ depth ih =>
    obtain ⟨parent, down, thing, isListed, isInside⟩ := down_succ.mp down
    obtain ⟨other, downToo, another, isListedToo, isInsideToo⟩ := down_succ.mp downToo
    have same := distinct.parent_eq (toFirst.trans down) isListed isInside
      (toSecond.trans downToo) isListedToo isInsideToo
    subst same
    exact ih down downToo

theorem depth_eq (distinct : Distinct list inside named start) {first second : place}
    {depth deeper : Nat} {thing another : item} (toFirst : Down list inside start levels first)
    (toSecond : Down list inside start further second) (down : Down list inside first depth here)
    (isListed : Lists list here thing) (downToo : Down list inside second deeper there)
    (isListedToo : Lists list there another) (same : named thing = named another) :
    here = there ∧ levels + depth = further + deeper := by
  have samePlace := distinct.apart _ _ (toFirst.trans down) _ _ (toSecond.trans downToo) _ isListed _
    isListedToo same
  subst samePlace
  exact ⟨rfl, distinct.levels_eq (toFirst.trans down) (toSecond.trans downToo)⟩

theorem nodup_visit (distinct : Distinct list inside named start) (count : Nat)
    (toHere : Down list inside start levels here) :
    ((visit list inside count here).map named).Nodup := by
  induction count generalizing levels here with
  | zero => exact List.nodup_nil
  | succ count ih =>
    unfold visit
    cases isList : list here with
    | none => exact List.nodup_nil
    | some things =>
      have once := distinct.once levels here toHere things isList
      have toFolder (folder : place) (isFolder : folder ∈ (things.filterMap inside).reverse) :
          Down list inside start (levels + 1) folder := by
        rw [List.mem_reverse, List.mem_filterMap] at isFolder
        obtain ⟨thing, isIn, isInside⟩ := isFolder
        exact toHere.step ⟨things, isList, isIn⟩ isInside
      dsimp only
      rw [List.map_append, List.map_flatMap, List.nodup_append]
      refine ⟨once, ?_, ?_⟩
      · rw [List.nodup_flatMap]
        refine ⟨fun folder isFolder => ih (toFolder folder isFolder), ?_⟩
        have foldersOnce : (things.filterMap inside).reverse.Nodup := by
          rw [List.nodup_reverse]
          have apart := List.pairwise_map.mp once
          apply apart.filterMap
          rintro thing second differs folder isInside _ isInsideToo rfl
          exact differs (distinct.ofPlace thing second folder isInside isInsideToo)
        apply foldersOnce.imp_of_mem
        intro first second isFirst isSecond differs name inFirst inSecond
        obtain ⟨thing, isThing, rfl⟩ := List.mem_map.mp inFirst
        obtain ⟨another, isAnother, same⟩ := List.mem_map.mp inSecond
        obtain ⟨depth, -, spot, down, isListed⟩ := mem_visit.mp isThing
        obtain ⟨deeper, -, other, downToo, isListedToo⟩ := mem_visit.mp isAnother
        obtain ⟨rfl, sameDepth⟩ := distinct.depth_eq (toFolder first isFirst)
          (toFolder second isSecond) down isListed downToo isListedToo same.symm
        obtain rfl : depth = deeper := by omega
        exact differs (distinct.start_eq (toFolder first isFirst) (toFolder second isSecond)
          down downToo)
      · rintro name isHere _ isBelow rfl
        obtain ⟨thing, isIn, rfl⟩ := List.mem_map.mp isHere
        obtain ⟨folder, isFolder, isName⟩ := List.mem_flatMap.mp isBelow
        obtain ⟨another, isAnother, same⟩ := List.mem_map.mp isName
        obtain ⟨deeper, -, other, downToo, isListedToo⟩ := mem_visit.mp isAnother
        have sameDepth := (distinct.depth_eq toHere (toFolder folder isFolder) .here
          ⟨things, isList, isIn⟩ downToo isListedToo same.symm).2
        omega

end Distinct

end Distinct

end FolderWalk
