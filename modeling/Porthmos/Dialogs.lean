import Porthmos.Conflicts

/-!
# Dialogs

One dialog at a time lies over the screen and takes every key.  What a dialog makes of a key
is its outcome.  The fields of a form are not modelled: what a form makes of a key is given
with the key.
-/

namespace Porthmos

inductive KeyCode
  | char (char : Char)
  | f (number : Nat)
  | enter
  | esc
  | up
  | down
  | left
  | right
  | home
  | «end»
  | backspace
  | delete
  | tab
  | other
  deriving DecidableEq, Repr

structure KeyEvent where
  code : KeyCode
  control : Bool
  alt : Bool
  shift : Bool
  deriving DecidableEq, Repr

/-- A key without modifiers. -/
def KeyCode.plain (code : KeyCode) : KeyEvent := ⟨code, false, false, false⟩

/-- What a form makes of a key. -/
inductive FormOutcome
  | pending
  | submitted (values : List (String × String))
  | choiceChanged
  | cancelled
  deriving DecidableEq, Repr

inductive DialogOutcome
  | pending
  | confirmed
  | cancelled
  | submitted (value : String)
  | selected (index : Nat)
  | removed (index : Nat)
  | formSubmitted (values : List (String × String))
  | formChoiceChanged
  | resolved (resolution : Option Resolution) (applyToRest : Bool)
  deriving DecidableEq, Repr

/-! ### The kinds of dialogs -/

inductive ConfirmFocus
  | yes
  | no
  deriving DecidableEq, Repr

structure ConfirmDialog where
  message : String
  focus : ConfirmFocus
  deriving DecidableEq, Repr

namespace ConfirmDialog

def new (message : String) : ConfirmDialog := ⟨message, .no⟩

def outcome (dialog : ConfirmDialog) (key : KeyEvent) : DialogOutcome :=
  match key.code with
  | .char 'y' | .char 'Y' => .confirmed
  | .char 'n' | .char 'N' | .esc => .cancelled
  | .enter => if dialog.focus = .yes then .confirmed else .cancelled
  | _ => .pending

def handleKey (dialog : ConfirmDialog) (key : KeyEvent) : ConfirmDialog :=
  match key.code with
  | .tab | .left | .right =>
    { dialog with focus := if dialog.focus = .yes then .no else .yes }
  | _ => dialog

end ConfirmDialog

structure TextInputDialog where
  title : String
  value : String
  cursor : Nat
  deriving DecidableEq, Repr

namespace TextInputDialog

def new (title value : String) : TextInputDialog := ⟨title, value, value.toList.length⟩

def removeCharAt (dialog : TextInputDialog) (index : Nat) : TextInputDialog :=
  { dialog with value := String.ofList (dialog.value.toList.eraseIdx index) }

def insertCharAt (dialog : TextInputDialog) (index : Nat) (char : Char) : TextInputDialog :=
  { dialog with value := String.ofList (dialog.value.toList.insertIdx index char) }

def outcome (dialog : TextInputDialog) (key : KeyEvent) : DialogOutcome :=
  match key.code with
  | .enter => .submitted dialog.value
  | .esc => .cancelled
  | _ => .pending

def handleKey (dialog : TextInputDialog) (key : KeyEvent) : TextInputDialog :=
  let length := dialog.value.toList.length
  match key.code with
  | .left => { dialog with cursor := dialog.cursor - 1 }
  | .right => { dialog with cursor := min (dialog.cursor + 1) length }
  | .home => { dialog with cursor := 0 }
  | .end => { dialog with cursor := length }
  | .backspace =>
    if 0 < dialog.cursor then
      { dialog.removeCharAt (dialog.cursor - 1) with cursor := dialog.cursor - 1 }
    else dialog
  | .delete => if dialog.cursor < length then dialog.removeCharAt dialog.cursor else dialog
  | .char char => { dialog.insertCharAt dialog.cursor char with cursor := dialog.cursor + 1 }
  | _ => dialog

end TextInputDialog

structure ListDialog where
  title : String
  items : List String
  cursor : Nat
  removable : Bool
  deriving DecidableEq, Repr

namespace ListDialog

def new (title : String) (items : List String) : ListDialog := ⟨title, items, 0, false⟩

def outcome (dialog : ListDialog) (key : KeyEvent) : DialogOutcome :=
  match key.code with
  | .enter => if dialog.items = [] then .pending else .selected dialog.cursor
  | .f 8 =>
    if dialog.removable && decide (dialog.items ≠ []) then .removed dialog.cursor else .pending
  | .esc => .cancelled
  | _ => .pending

def handleKey (dialog : ListDialog) (key : KeyEvent) : ListDialog :=
  match key.code with
  | .up => { dialog with cursor := dialog.cursor - 1 }
  | .down =>
    if dialog.cursor + 1 < dialog.items.length then { dialog with cursor := dialog.cursor + 1 }
    else dialog
  | _ => dialog

/-- The row is taken away, and the cursor stays inside. -/
def removeRow (dialog : ListDialog) (index : Nat) : ListDialog :=
  let items := dialog.items.eraseIdx index
  { dialog with
    items := items
    cursor := if items.length ≤ dialog.cursor then items.length - 1 else dialog.cursor }

end ListDialog

structure ConflictDialog where
  fileName : String
  existing : Option ExistingFile
  partialFile : Option ExistingFile
  newSize : Nat
  newModified : Option Nat
  index : Nat
  total : Nat
  applyToRest : Bool
  deriving DecidableEq, Repr

namespace ConflictDialog

def existingIsDir (dialog : ConflictDialog) : Bool := dialog.existing.any ExistingFile.isDir

def offersResume (dialog : ConflictDialog) : Bool :=
  dialog.partialFile.isSome && !dialog.existingIsDir

def remainingAfterThis (dialog : ConflictDialog) : Nat := dialog.total - (dialog.index + 1)

def outcome (dialog : ConflictDialog) (key : KeyEvent) : DialogOutcome :=
  let answer (resolution : Resolution) : DialogOutcome :=
    .resolved (some resolution) dialog.applyToRest
  match key.code with
  | .char 'c' | .char 'C' | .esc => .resolved none false
  | code =>
    if key.control || key.alt then .pending
    else match code with
      | .char 'u' | .char 'U' => if dialog.offersResume then answer .resume else .pending
      | .char 'o' | .char 'O' => if dialog.existingIsDir then .pending else answer .overwrite
      | .char 's' | .char 'S' => answer .skip
      | .char 'r' | .char 'R' => if dialog.existing.isSome then answer .rename else .pending
      | _ => .pending

/-- The mark at "same answer for the rest" is all that a key changes. -/
def handleKey (dialog : ConflictDialog) (key : KeyEvent) : ConflictDialog :=
  match key.code with
  | .char 'a' | .char 'A' =>
    if !(key.control || key.alt) && decide (0 < dialog.remainingAfterThis) then
      { dialog with applyToRest := !dialog.applyToRest }
    else dialog
  | _ => dialog

end ConflictDialog

structure MessageDialog where
  title : String
  message : String
  deriving DecidableEq, Repr

def MessageDialog.outcome (key : KeyEvent) : DialogOutcome :=
  match key.code with
  | .enter | .esc => .cancelled
  | _ => .pending

/-! ### The dialog -/

inductive Dialog
  | confirm (dialog : ConfirmDialog)
  | textInput (dialog : TextInputDialog)
  | list (dialog : ListDialog)
  | form (title : String)
  | conflict (dialog : ConflictDialog)
  | message (dialog : MessageDialog)
  deriving DecidableEq, Repr

namespace Dialog

/-- The outcome of `handle_key`. -/
def outcome (form : FormOutcome) (dialog : Dialog) (key : KeyEvent) : DialogOutcome :=
  match dialog with
  | .confirm dialog => dialog.outcome key
  | .textInput dialog => dialog.outcome key
  | .list dialog => dialog.outcome key
  | .form _ =>
    match form with
    | .pending => .pending
    | .submitted values => .formSubmitted values
    | .choiceChanged => .formChoiceChanged
    | .cancelled => .cancelled
  | .conflict dialog => dialog.outcome key
  | .message _ => MessageDialog.outcome key

/-- The dialog after `handle_key`. -/
def handleKey (dialog : Dialog) (key : KeyEvent) : Dialog :=
  match dialog with
  | .confirm dialog => .confirm (dialog.handleKey key)
  | .textInput dialog => .textInput (dialog.handleKey key)
  | .list dialog => .list (dialog.handleKey key)
  | .form title => .form title
  | .conflict dialog => .conflict (dialog.handleKey key)
  | .message dialog => .message dialog

end Dialog

end Porthmos
