import Porthmos.ProtocolSwitches

/-!
# Switching the protocol and back

A dialog that was switched to other protocols and back to its own submits the draft that it would
have submitted before, unless something was cleared that is taken for untouched, or another protocol
on the way has an option of the same key that cannot hold the text.
-/

namespace Porthmos

namespace ConnectionDialog

/-! ### All switches -/

section Runs

variable {protocols : List ProtocolInfo} {dialog : FormDialog} {id : String}

/-- One switch after the other. -/
def switchAll (protocols : List ProtocolInfo) (path : List String) (dialog : FormDialog) :
    FormDialog :=
  path.foldl (fun dialog id => switchTo protocols id dialog) dialog

/-- What is remembered under a key when a protocol was passed: what its option of that key makes
of what was remembered before. -/
def passOn (protocols : List ProtocolInfo) (dialog : FormDialog) (key : String)
    (remembered : Option String) (id : String) : Option String :=
  match (formFor protocols id).option key with
  | none => remembered
  | some field => keptText (shows field (decide (key ∈ restored dialog id)) remembered)

theorem recalled_rebuildFor (layout : AtProtocol protocols dialog id)
    (plain : PlainKeys (formFor protocols id)) {key : String} (notCommon : key ∉ commonKeys)
    (other : String) : recalled (rebuildFor protocols dialog other) key =
      passOn protocols dialog key (recalled dialog key) other := by
  rw [recalled, value_option_rebuildFor layout plain notCommon,
    remembered_rebuildFor layout plain notCommon, passOn]
  cases (formFor protocols other).option key with
  | none => rfl
  | some field => rfl

theorem portUntouched_rebuildFor (other : String) :
    portUntouched (rebuildFor protocols dialog other) = portUntouched dialog := by
  have isPort := @typedPort_rebuildFor protocols dialog other
  have isPrefilled : (rebuildFor protocols dialog other).prefilled =
      if portUntouched dialog then insertOption dialog.prefilled "port"
        (if portUntouched dialog then (formFor protocols other).port.default.repr
          else typedPort dialog)
      else dialog.prefilled.filter fun known => known.1 ≠ "port" := rfl
  conv_lhs => rw [portUntouched, isPort, isPrefilled]
  cases isUntouched : portUntouched dialog with
  | true => simp [trim_repr, lookup_insertOption]
  | false =>
    have gone := lookup_filter dialog.prefilled (fun known => decide (known ≠ "port")) "port"
    simp only [ne_eq, not_true_eq_false, decide_false, Bool.false_eq_true, if_false] at gone
    have notBlank : trim (typedPort dialog) ≠ "" := by
      intro isBlank
      rw [portUntouched] at isUntouched
      simp [isBlank] at isUntouched
    simp only [Bool.false_eq_true, if_false, notBlank, false_or, ne_eq, decide_eq_false_iff_not]
    rw [gone]
    exact (Option.some_ne_none _).symm

theorem getD_filter_kept (text : String) :
    ((some text).filter fun value => value ≠ keptSecret).getD "" =
      if text = keptSecret then "" else text := by
  rw [Option.filter_some]
  by_cases isKept : text = keptSecret
  · simp [isKept]
  · simp [isKept]

theorem typedPassword_rebuildFor (other : String) :
    typedPassword (rebuildFor protocols dialog other) = typedPassword dialog := by
  have notKept : typedPassword dialog ≠ keptSecret := by
    unfold typedPassword
    cases value dialog "password" with
    | none => decide
    | some text =>
      rw [getD_filter_kept]
      split_ifs with isKept
      · decide
      · exact isKept
  conv_lhs => rw [typedPassword, value_password_rebuildFor, getD_filter_kept]
  by_cases isSaved : typedPassword dialog = "" ∧ "password" ∈ restored dialog other
  · rw [if_pos isSaved, if_pos rfl, isSaved.1]
  · rw [if_neg isSaved, if_neg notKept]

/-- What is the same in every dialog that another one was switched to. -/
structure SwitchedFrom (protocols : List ProtocolInfo) (start : FormDialog) (path : List String)
    (dialog : FormDialog) : Prop where
  layout : ∃ id, AtProtocol protocols dialog id
  choices : choicesOf dialog = choicesOf start
  saved : dialog.savedSecrets = start.savedSecrets
  texts : ∀ key ∈ ["name", "group", "tags", "host", "username", "remote_path"],
    (value dialog key).getD "" = (value start key).getD ""
  untouched : portUntouched dialog = portUntouched start
  port : portUntouched start = false → typedPort dialog = typedPort start
  password : typedPassword dialog = typedPassword start
  recalled : ∀ key ∉ commonKeys,
    recalled dialog key = path.foldl (passOn protocols start key) (recalled start key)

theorem restored_congr {first second : FormDialog} (same : first.savedSecrets = second.savedSecrets)
    (id : String) : restored first id = restored second id := by
  rw [restored, restored, same]

theorem SwitchedFrom.step (plain : ∀ info ∈ protocols, PlainKeys info.form) {start : FormDialog}
    {path : List String} (switched : SwitchedFrom protocols start path dialog) {other : String}
    (offered : other ∈ (choicesOf start).map Prod.fst) :
    SwitchedFrom protocols start (path ++ [other]) (rebuildFor protocols dialog other) := by
  obtain ⟨id, layout⟩ := switched.layout
  rw [← switched.choices] at offered
  refine ⟨⟨other, atProtocol_rebuildFor layout offered⟩, ?_, switched.saved, ?_, ?_, ?_, ?_, ?_⟩
  · rw [choicesOf_rebuildFor layout, switched.choices]
  · intro key isText
    rw [value_rebuildFor_text isText, Option.getD_some, switched.texts key isText]
  · rw [portUntouched_rebuildFor, switched.untouched]
  · intro isTouched
    rw [typedPort_rebuildFor, switched.untouched, isTouched, ← switched.port isTouched]
    rfl
  · rw [typedPassword_rebuildFor, switched.password]
  · intro key notCommon
    rw [recalled_rebuildFor layout (plainKeys_formFor plain id) notCommon, List.foldl_append,
      switched.recalled key notCommon, List.foldl_cons, List.foldl_nil, passOn, passOn,
      restored_congr switched.saved]

theorem switchedFrom_switchAll (plain : ∀ info ∈ protocols, PlainKeys info.form)
    (layout : AtProtocol protocols dialog id) (path : List String)
    (offered : ∀ other ∈ path, other ∈ (choicesOf dialog).map Prod.fst) :
    SwitchedFrom protocols dialog path (switchAll protocols path dialog) := by
  induction path using List.reverseRecOn with
  | nil => exact ⟨⟨id, layout⟩, rfl, rfl, fun _ _ => rfl, rfl, fun _ => rfl, rfl, fun _ _ => rfl⟩
  | append_singleton path other ih =>
    have switched := ih fun before isIn => offered before (List.mem_append_left _ isIn)
    obtain ⟨former, formerLayout⟩ := switched.layout
    have isOffered := offered other (List.mem_append_right _ (List.mem_singleton_self _))
    have isSwitch : switchAll protocols (path ++ [other]) dialog =
        rebuildFor protocols (switchAll protocols path dialog) other := by
      rw [switchAll, List.foldl_append]
      exact switchTo_eq formerLayout (switched.choices ▸ isOffered)
    rw [isSwitch]
    exact switched.step plain isOffered

end Runs

/-! ### Drafts -/

section Drafts

variable {protocols : List ProtocolInfo} {dialog first second : FormDialog} {id : String}

/-- The text that is submitted under a key. -/
def textOf (dialog : FormDialog) (key : String) : String := (value dialog key).getD ""

theorem submitted_eq_map {fields : List FormField} (distinct : (fields.map FormField.key).Nodup) :
    (fields.map fun field => (field.key, field.submittedValue)) =
      (fields.map FormField.key).map fun key => (key, ((fields.find? fun field =>
        field.key = key).map FormField.submittedValue).getD "") := by
  induction fields with
  | nil => rfl
  | cons field fields ih =>
    obtain ⟨isNew, distinct⟩ := List.nodup_cons.mp distinct
    rw [List.map_cons, List.map_cons, List.map_cons, ih distinct, List.find?_cons_of_pos (by simp)]
    congr 1
    apply List.map_congr_left
    intro key isIn
    rw [List.find?_cons_of_neg]
    intro same
    exact isNew (of_decide_eq_true same ▸ isIn)

/-- What is submitted for the options of a form. -/
def optionTexts (dialog : FormDialog) (form : ConnectionForm) : List (String × String) :=
  form.options.map fun field => (field.key, textOf dialog field.key)

theorem submitted_eq (layout : AtProtocol protocols dialog id)
    (plain : PlainKeys (formFor protocols id)) : submitted dialog =
      (commonKeys.map fun key => (key, textOf dialog key)) ++
        optionTexts dialog (formFor protocols id) := by
  have isMap := submitted_eq_map (layout.distinct plain)
  rw [layout.keys, List.map_append, List.map_map] at isMap
  exact isMap

/-- The part of a draft that does not depend on the protocol. -/
def commonPart (dialog : FormDialog) : ProfileDraft where
  protocol := textOf dialog "protocol"
  name := textOf dialog "name"
  host := textOf dialog "host"
  port := textOf dialog "port"
  username := textOf dialog "username"
  password := secretEdit (textOf dialog "password")
  remotePath := textOf dialog "remote_path"
  group := textOf dialog "group"
  tags := textOf dialog "tags"
  options := []
  secretOptions := []

theorem draftNow_eq (layout : AtProtocol protocols dialog id)
    (plain : PlainKeys (formFor protocols id)) : draftNow protocols dialog =
      (optionTexts dialog (formFor protocols id)).foldl (addValue (secretKeys protocols id))
        (commonPart dialog) := by
  have isProtocol : textOf dialog "protocol" = id := by
    rw [textOf, layout.chosen]
    rfl
  have notSecret : ∀ key ∈ commonKeys, key ∉ secretKeys protocols id := by
    intro key isCommon isSecret
    obtain ⟨field, isField, rfl⟩ := List.mem_map.mp isSecret
    exact plain.not_common (List.mem_filter.mp isField).1 isCommon
  simp only [commonKeys, List.forall_mem_cons] at notSecret
  obtain ⟨protocol, name, group, tags, host, port, username, password, remotePath, _⟩ := notSecret
  have isId : ((submitted dialog).lookup "protocol").getD "" = id := by
    rw [submitted_eq layout plain, commonKeys, List.map_cons, List.cons_append, lookup_cons,
      if_pos rfl, isProtocol]
    rfl
  rw [draftNow, submittedDraft, isId, submitted_eq layout plain, draft, List.foldl_append]
  congr 1
  simp only [commonKeys, List.map_cons, List.map_nil, List.foldl_cons, List.foldl_nil, addValue,
    protocol, name, group, tags, host, port, username, password, remotePath, if_false]
  rfl

theorem secretEdit_injective {first second : String} (same : secretEdit first = secretEdit second) :
    first = second := by
  unfold secretEdit at same
  by_cases isKept : first = keptSecret
  · rw [if_pos isKept] at same
    split_ifs at same with isOther
    rw [isKept, isOther]
  · rw [if_neg isKept] at same
    by_cases isEmpty : first = ""
    · rw [if_pos isEmpty] at same
      split_ifs at same with isOther isOther
      rw [isEmpty, isOther]
    · rw [if_neg isEmpty] at same
      split_ifs at same
      exact SecretEdit.replace.inj same

/-- What a draft has of each option. -/
theorem exists_options (dialog : FormDialog) (plain : PlainKeys (formFor protocols id)) :
    ∃ options secretOptions,
      (optionTexts dialog (formFor protocols id)).foldl (addValue (secretKeys protocols id))
        (commonPart dialog) =
          { commonPart dialog with options := options, secretOptions := secretOptions } ∧
      ∀ field ∈ (formFor protocols id).options,
        if field.key ∈ secretKeys protocols id then
          secretOptions.lookup field.key = some (secretEdit (textOf dialog field.key))
        else options.lookup field.key = some (textOf dialog field.key) := by
  obtain ⟨options, secretOptions, isDraft, isPlain, isSecret⟩ := foldl_addValue
    (secretKeys protocols id) plain.distinct
    (fun _ isIn => ConnectionForm.not_reserved plain.noCollision isIn)
    (fun field => textOf dialog field.key) (commonPart dialog)
  refine ⟨options, secretOptions, isDraft, ?_⟩
  intro field isIn
  have found := find?_key plain.distinct isIn
  split_ifs with isKey
  · rw [isSecret, if_pos isKey, found]
    rfl
  · rw [isPlain, if_neg isKey, found]
    rfl

theorem draftNow_eq_iff (firstLayout : AtProtocol protocols first id)
    (secondLayout : AtProtocol protocols second id) (plain : PlainKeys (formFor protocols id)) :
    draftNow protocols first = draftNow protocols second ↔
      (∀ key ∈ commonKeys, textOf first key = textOf second key) ∧
        ∀ field ∈ (formFor protocols id).options,
          textOf first field.key = textOf second field.key := by
  rw [draftNow_eq firstLayout plain, draftNow_eq secondLayout plain]
  constructor
  · intro same
    obtain ⟨options, secretOptions, isFirst, firstOptions⟩ := exists_options first plain
    obtain ⟨others, secretOthers, isSecond, secondOptions⟩ := exists_options second plain
    rw [isFirst, isSecond] at same
    simp only [commonPart, ProfileDraft.mk.injEq] at same
    obtain ⟨protocol, name, host, port, username, password, remotePath, group, tags, rfl, rfl⟩ :=
      same
    constructor
    · simp only [commonKeys, List.forall_mem_cons]
      exact ⟨protocol, name, group, tags, host, port, username, secretEdit_injective password,
        remotePath, nofun⟩
    · intro field isIn
      have isFirstOption := firstOptions field isIn
      have isSecondOption := secondOptions field isIn
      split_ifs at isFirstOption isSecondOption with isSecret
      · rw [isFirstOption] at isSecondOption
        exact secretEdit_injective (Option.some_inj.mp isSecondOption)
      · rw [isFirstOption] at isSecondOption
        exact Option.some_inj.mp isSecondOption
  · rintro ⟨sameCommon, sameOptions⟩
    have isCommon : commonPart first = commonPart second := by
      simp only [commonKeys, List.forall_mem_cons] at sameCommon
      obtain ⟨protocol, name, group, tags, host, port, username, password, remotePath, _⟩ :=
        sameCommon
      simp only [commonPart, protocol, name, group, tags, host, port, username, password,
        remotePath]
    have isOptions : optionTexts first (formFor protocols id) =
        optionTexts second (formFor protocols id) := by
      apply List.map_congr_left
      intro field isIn
      rw [sameOptions field isIn]
    rw [isCommon, isOptions]

end Drafts

/-! ### There and back -/

section Back

variable {protocols : List ProtocolInfo} {dialog : FormDialog} {id : String} {path : List String}

/-- When nothing is lost on the way to other protocols and back: the text of the port is not taken
for an untouched one, no saved secret was cleared, and every option of the protocol shows its text
again for what is remembered after the options of its key that are on the way. -/
structure Survives (protocols : List ProtocolInfo) (dialog : FormDialog) (id : String)
    (path : List String) : Prop where
  port : portUntouched dialog = true →
    typedPort dialog = (formFor protocols id).port.default.repr
  cleared : textOf dialog "password" = "" → "password" ∉ restored dialog id
  kept : textOf dialog "password" = keptSecret → "password" ∈ restored dialog id
  options : ∀ field ∈ (formFor protocols id).options,
    shows field (decide (field.key ∈ restored dialog id))
      (path.foldl (passOn protocols dialog field.key) (keptText (textOf dialog field.key))) =
        textOf dialog field.key

theorem AtProtocol.value_eq (layout : AtProtocol protocols dialog id) {key : String}
    (isKey : key ∈ commonKeys ++ (formFor protocols id).options.map OptionField.key) :
    value dialog key = some (textOf dialog key) := by
  rw [← layout.keys] at isKey
  obtain ⟨field, isIn, rfl⟩ := List.mem_map.mp isKey
  have isFound : ∃ text, value dialog field.key = some text := by
    unfold value
    cases found : dialog.fields.find? fun other => other.key = field.key with
    | none => exact absurd (decide_eq_true rfl) (List.find?_eq_none.mp found field isIn)
    | some other => exact ⟨_, rfl⟩
  obtain ⟨text, isText⟩ := isFound
  rw [textOf, isText, Option.getD_some]

theorem password_back (layout : AtProtocol protocols dialog id) {between : FormDialog}
    (same : typedPassword between = typedPassword dialog)
    (saved : between.savedSecrets = dialog.savedSecrets) :
    textOf (rebuildFor protocols between id) "password" = textOf dialog "password" ↔
      (textOf dialog "password" = "" → "password" ∉ restored dialog id) ∧
        (textOf dialog "password" = keptSecret → "password" ∈ restored dialog id) := by
  have isText := layout.value_eq (List.mem_append_left _ (by decide : "password" ∈ commonKeys))
  have isTyped : typedPassword dialog =
      if textOf dialog "password" = keptSecret then "" else textOf dialog "password" := by
    rw [typedPassword, isText, getD_filter_kept]
  have isBack : textOf (rebuildFor protocols between id) "password" =
      if typedPassword dialog = "" ∧ "password" ∈ restored dialog id then keptSecret
      else typedPassword dialog := by
    conv_lhs => rw [textOf, value_password_rebuildFor, Option.getD_some, same, restored_congr saved]
  rw [isBack, isTyped]
  by_cases isKept : textOf dialog "password" = keptSecret
  · have notEmpty : ¬keptSecret = "" := by decide
    by_cases isSaved : "password" ∈ restored dialog id
    · simp [isKept, isSaved, notEmpty]
    · simp [isKept, isSaved, notEmpty, eq_comm]
  · by_cases isEmpty : textOf dialog "password" = ""
    · have notKept : ¬"" = keptSecret := by decide
      have notEmpty : ¬keptSecret = "" := by decide
      by_cases isSaved : "password" ∈ restored dialog id
      · simp [isEmpty, isSaved, notKept, notEmpty]
      · simp [isEmpty, isSaved, notKept]
    · simp [isKept, isEmpty]

theorem option_back (plain : ∀ info ∈ protocols, PlainKeys info.form)
    (layout : AtProtocol protocols dialog id) {between : FormDialog}
    (switched : SwitchedFrom protocols dialog path between) {field : OptionField}
    (isIn : field ∈ (formFor protocols id).options) :
    textOf (rebuildFor protocols between id) field.key =
      shows field (decide (field.key ∈ restored dialog id))
        (path.foldl (passOn protocols dialog field.key) (keptText (textOf dialog field.key))) := by
  obtain ⟨former, formerLayout⟩ := switched.layout
  have plainForm := plainKeys_formFor plain id
  have notCommon := plainForm.not_common isIn
  have isText := layout.value_eq (List.mem_append_right commonKeys (List.mem_map_of_mem isIn))
  have isStart : recalled dialog field.key = keptText (textOf dialog field.key) := by
    rw [recalled, isText]
  rw [textOf, value_option_rebuildFor formerLayout (plainKeys_formFor plain former) notCommon,
    plainForm.option_eq_some isIn, switched.recalled field.key notCommon, isStart,
    restored_congr switched.saved]
  rfl

end Back

/-! ### Dialogs that lose something -/

def replaceField (dialog : FormDialog) (index : Nat) (after : FormField) : FormDialog :=
  { dialog with fields := dialog.fields.take index ++ after :: dialog.fields.drop (index + 1) }

theorem reached_replaceField {protocols : List ProtocolInfo} {dialog : FormDialog}
    (reached : Reached protocols dialog) {index : Nat} (before : FormField) {after : FormField}
    (isField : dialog.fields[index]? = some before) (notProtocol : before.key ≠ "protocol")
    (edit : FieldEdit before after) : Reached protocols (replaceField dialog index after) := by
  obtain ⟨inside, isField⟩ := List.getElem?_eq_some_iff.mp isField
  apply Reached.edited dialog _ _ before after reached _ notProtocol edit
  rw [← isField, List.getElem_cons_drop, List.take_append_drop]

/-- A connection with a saved password. -/
def savedConnection : ConnectionEntry where
  name := "web"
  protocol := "sftp"
  host := "box"
  port := 2222
  username := "ann"
  password := none
  options := []
  group := none
  tags := []
  savedPassword := true
  inKeyring := ["password"]
  source := .profile

/-- The saved password is deleted. -/
def clearedPassword : FormDialog :=
  replaceField (buildEdit builtinProtocols "Edit connection" savedConnection) 7
    (.masked "password" "Password" "")

/-- The port is deleted. -/
def emptiedPort : FormDialog :=
  replaceField (buildEdit builtinProtocols "Edit connection" savedConnection) 5
    (.text "port" "Port" "")

/-- Plain HTTP is chosen for WebDAV. -/
def plainHttp : FormDialog :=
  replaceField (switchTo builtinProtocols "webdav"
    (buildEdit builtinProtocols "Edit connection" savedConnection)) 9
    ⟨"security", "Security", "", 0,
      .choice [("https", "HTTPS"), ("http", "HTTP (unencrypted)")] 1⟩

theorem plainKeys_builtin : ∀ info ∈ builtinProtocols, PlainKeys info.form := by
  intro info isIn
  have proper := proper_of_builtin info isIn
  exact ⟨proper.distinct, proper.noCollision⟩

theorem reached_clearedPassword : Reached builtinProtocols clearedPassword :=
  reached_replaceField (.edit _ _) (.savedSecret "password" "Password") (by decide)
    (by decide) (.replaced ..)

theorem reached_emptiedPort : Reached builtinProtocols emptiedPort :=
  reached_replaceField (.edit _ _) (.text "port" "Port" "2222") (by decide) (by decide) (.typed ..)

theorem reached_plainHttp : Reached builtinProtocols plainHttp := by
  have reached : Reached builtinProtocols (switchTo builtinProtocols "webdav"
      (buildEdit builtinProtocols "Edit connection" savedConnection)) :=
    .switched _ _ (.edit _ _) (by decide)
  exact reached_replaceField reached (.choice "security" "Security"
    [("https", "HTTPS"), ("http", "HTTP (unencrypted)")] "https") (by decide) (by decide)
    (.chosen _ _ _ _ _ _ _ (by decide))

/-- What a dialog submits is not the same after a way to other protocols and back. -/
structure Loses (dialog : FormDialog) (id : String) (path : List String) : Prop where
  reached : Reached builtinProtocols dialog
  isAt : value dialog "protocol" = some id
  offered : ∀ other ∈ path, other ∈ (choicesOf dialog).map Prod.fst
  differs : draftNow builtinProtocols (switchAll builtinProtocols (path ++ [id]) dialog) ≠
    draftNow builtinProtocols dialog

theorem loses_clearedPassword : Loses clearedPassword "sftp" ["ftp"] where
  reached := reached_clearedPassword
  isAt := by decide
  offered := by decide
  differs := by decide

theorem loses_emptiedPort : Loses emptiedPort "sftp" ["ftp"] where
  reached := reached_emptiedPort
  isAt := by decide
  offered := by decide
  differs := by decide

theorem loses_plainHttp : Loses plainHttp "webdav" ["ftp"] where
  reached := reached_plainHttp
  isAt := by decide
  offered := by decide
  differs := by decide

end ConnectionDialog

end Porthmos
