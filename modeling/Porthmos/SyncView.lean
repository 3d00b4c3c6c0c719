import Porthmos.SyncConvergence

/-!
# The sync screen

The screen keeps a tick and an action for every item of a plan, and shows those that a
filter lets through.  The choices it hands over name items by their ids, which have 32
bits: a plan with more items gives one id to several of them.
-/

namespace Porthmos

open Sync

structure SyncView where
  plan : Option SyncPlan
  ticked : List Bool
  actions : List SyncAction
  visible : List Nat
  filter : Option String
  editingFilter : Bool
  cursor : Nat
  deriving DecidableEq, Repr

namespace SyncView

def new : SyncView := ⟨none, [], [], [], none, false, 0⟩

def current (view : SyncView) : Option Nat := view.visible[view.cursor]?

def isTicked (view : SyncView) (index : Nat) : Bool := view.ticked.getD index false

def actionAt (view : SyncView) (index : Nat) : SyncAction := view.actions.getD index .skip

def setTicked (view : SyncView) (index : Nat) (isTicked : Bool) : SyncView :=
  { view with ticked := view.ticked.set index isTicked }

def setAction (view : SyncView) (index : Nat) (action : SyncAction) : SyncView :=
  { view with actions := view.actions.set index action }

section Filter

-- `passes item text` stands for `matches`: which items a filter text lets through.
variable (passes : SyncItem → String → Bool)

def visibleItems (view : SyncView) : List Nat :=
  match view.plan with
  | none => []
  | some plan =>
    (List.range plan.items.length).filter fun index =>
      match view.filter, plan.items[index]? with
      | some text, some item => passes item text
      | _, _ => true

def refilter (view : SyncView) (keep : Option Nat) : SyncView :=
  let visible := visibleItems passes view
  let kept := keep.bind fun index => visible.findIdx? (· = index)
  { view with
    visible := visible
    cursor := kept.getD (min view.cursor (visible.length - 1)) }

def load (view : SyncView) (plan : SyncPlan) : SyncView :=
  refilter passes
    { view with
      ticked := plan.items.map SyncItem.ticked
      actions := plan.items.map SyncItem.action
      plan := some plan
      filter := none
      editingFilter := false
      cursor := 0 } none

def setFilter (view : SyncView) (text : Option String) : SyncView :=
  refilter passes { view with filter := text.filter fun text => text ≠ "" } view.current

def typeFilter (view : SyncView) (character : Char) : SyncView :=
  setFilter passes view (some ((view.filter.getD "").push character))

def eraseFilter (view : SyncView) : SyncView :=
  setFilter passes view (some (String.ofList (view.filter.getD "").toList.dropLast))

def clearFilter (view : SyncView) : SyncView :=
  setFilter passes { view with editingFilter := false } none

end Filter

def clear (_ : SyncView) : SyncView := new

def flipAt (view : SyncView) (index : Nat) : SyncView :=
  match view.plan.bind fun plan => (plan.items[index]?).map fun item => (plan, item) with
  | none => view
  | some (plan, item) =>
    if !item.flippable then view
    else
      let next := item.actionAfter (view.actionAt index) plan.options.direction
      (view.setAction index next).setTicked index (decide (next ≠ .skip))

def toggle (view : SyncView) : SyncView :=
  match view.current with
  | none => view
  | some index =>
    if view.isTicked index then view.setTicked index false
    else if view.actionAt index ≠ .skip then view.setTicked index true
    else view.flipAt index

def flip (view : SyncView) : SyncView :=
  match view.current with
  | none => view
  | some index => view.flipAt index

/-- One round of `tick_all`. -/
def tickOne (plan : SyncPlan) (view : SyncView) (index : Nat) : SyncView :=
  match plan.items[index]? with
  | none => view
  | some item =>
    if item.action ≠ .skip then (view.setAction index item.action).setTicked index true
    else view

def tickAll (view : SyncView) : SyncView :=
  match view.plan with
  | none => view
  | some plan => view.visible.foldl (tickOne plan) view

def untickAll (view : SyncView) : SyncView :=
  view.visible.foldl (fun view index => view.setTicked index false) view

def startFilter (view : SyncView) : SyncView := { view with editingFilter := true }

def finishFilter (view : SyncView) : SyncView := { view with editingFilter := false }

def moveCursor (view : SyncView) (delta : Int) : SyncView :=
  if view.visible = [] then view
  else
    let last : Int := (view.visible.length : Int) - 1
    { view with cursor := (max 0 (min (view.cursor + delta) last)).toNat }

/-- Whether an item is handed over for copying. -/
def chooses (view : SyncView) (index : Nat) : Bool :=
  view.isTicked index && decide (view.actionAt index ≠ .skip)

/-- What the screen hands to `run_sync`. -/
def visibleChoices (view : SyncView) : List (Nat × SyncAction) :=
  match view.plan with
  | none => []
  | some plan =>
    (view.visible.filter view.chooses).map fun index =>
      (((plan.items[index]?).map SyncItem.id).getD 0, view.actionAt index)

end SyncView

inductive ViewOp
  | load (plan : SyncPlan)
  | clear
  | toggle
  | flip
  | tickAll
  | untickAll
  | startFilter
  | finishFilter
  | typeFilter (character : Char)
  | eraseFilter
  | clearFilter
  | moveCursor (delta : Int)

def ViewOp.apply (passes : SyncItem → String → Bool) (view : SyncView) : ViewOp → SyncView
  | .load plan => view.load passes plan
  | .clear => view.clear
  | .toggle => view.toggle
  | .flip => view.flip
  | .tickAll => view.tickAll
  | .untickAll => view.untickAll
  | .startFilter => view.startFilter
  | .finishFilter => view.finishFilter
  | .typeFilter character => view.typeFilter passes character
  | .eraseFilter => view.eraseFilter passes
  | .clearFilter => view.clearFilter passes
  | .moveCursor delta => view.moveCursor delta

/-- The screen after some operations. -/
def SyncView.after (passes : SyncItem → String → Bool) (ops : List ViewOp) : SyncView :=
  ops.foldl (ViewOp.apply passes) .new

end Porthmos
