import Porthmos.ConnectionUntouched

/-!
# Another protocol in an open dialog

When another protocol is chosen, the fields are built anew from its form.  What was typed into the
options of the former protocol is remembered under their keys, and a saved secret comes back with
the protocol that it was saved for.
-/

namespace Porthmos

namespace ConnectionDialog

/-! ### The dialog and its edits -/

/-- `COMMON_KEYS` -/
def commonKeys : List String :=
  ["protocol", "name", "group", "tags", "host", "port", "username", "password", "remote_path"]

/-- `FormDialog::value` -/
def value (dialog : FormDialog) (key : String) : Option String :=
  (dialog.fields.find? fun field => field.key = key).map FormField.submittedValue

section Rebuilding

variable (protocols : List ProtocolInfo)

/-- `build` for a new connection; there is no dialog without a protocol. -/
def buildNew (title : String) : Option FormDialog :=
  protocols.head?.map fun first =>
    { title := title
      fields := fields protocols first.id none
        ⟨"", "", "", "", first.form.port.default.repr, "", "", false, ""⟩ [] []
      savedSecrets := none
      remembered := []
      prefilled := [("port", first.form.port.default.repr)] }

/-- The choices of the first field. -/
def choicesOf (dialog : FormDialog) : List (String × String) :=
  match dialog.fields with
  | ⟨_, _, _, _, .choice choices _⟩ :: _ => choices
  | _ => []

def unavailableChoice (dialog : FormDialog) : Option String :=
  ((choicesOf dialog).map Prod.fst).find? fun id => !protocols.any fun info => info.id = id

/-- What is kept of a field of the former protocol. -/
def remember (remembered : List (String × String)) (field : FormField) : List (String × String) :=
  if field.submittedValue = keptSecret then remembered.filter fun known => known.1 ≠ field.key
  else insertOption remembered field.key field.submittedValue

def typedPort (dialog : FormDialog) : String := (value dialog "port").getD ""

def portUntouched (dialog : FormDialog) : Bool :=
  trim (typedPort dialog) = "" ∨ dialog.prefilled.lookup "port" = some (trim (typedPort dialog))

def typedPassword (dialog : FormDialog) : String :=
  ((value dialog "password").filter fun value => value ≠ keptSecret).getD ""

/-- `restored`: the markers of secrets that are saved for the protocol. -/
def restored (dialog : FormDialog) (protocol : String) : List String :=
  match dialog.savedSecrets with
  | some (saved, markers) => if saved = protocol then markers else []
  | none => []

/-- The rest of `rebuild_for_protocol`, where the protocol is known. -/
def rebuildFor (dialog : FormDialog) (protocol : String) : FormDialog :=
  let form := formFor protocols protocol
  let port := if portUntouched dialog then form.port.default.repr else typedPort dialog
  let markers := restored dialog protocol
  let common : Common :=
    { name := (value dialog "name").getD ""
      group := (value dialog "group").getD ""
      tags := (value dialog "tags").getD ""
      host := (value dialog "host").getD ""
      port := port
      username := (value dialog "username").getD ""
      savedPassword := typedPassword dialog = "" ∧ markers.any fun marker => marker = "password"
      password := typedPassword dialog
      remotePath := (value dialog "remote_path").getD "" }
  let remembered := (dialog.fields.filter fun field => !commonKeys.contains field.key).foldl
    remember dialog.remembered
  { dialog with
    fields := fields protocols protocol (unavailableChoice protocols dialog) common remembered
      (markers.filter fun key => (remembered.lookup key).all fun value => value = "")
    remembered := remembered
    prefilled :=
      if portUntouched dialog then insertOption dialog.prefilled "port" port
      else dialog.prefilled.filter fun known => known.1 ≠ "port" }

def rebuildForProtocol (dialog : FormDialog) : FormDialog :=
  match value dialog "protocol" with
  | none => dialog
  | some protocol => rebuildFor protocols dialog protocol

/-- Another choice in the first field. -/
def selectProtocol (id : String) (dialog : FormDialog) : FormDialog :=
  match dialog.fields with
  | ⟨key, label, text, cursor, .choice choices selected⟩ :: rest =>
    { dialog with
      fields := ⟨key, label, text, cursor, .choice choices
        ((choices.findIdx? fun choice => choice.1 = id).getD selected)⟩ :: rest }
  | _ => dialog

/-- The protocol is chosen, and the dialog built for it. -/
def switchTo (id : String) (dialog : FormDialog) : FormDialog :=
  rebuildForProtocol protocols (selectProtocol id dialog)

/-- The draft that would be sent now. -/
def draftNow (dialog : FormDialog) : ProfileDraft := submittedDraft protocols (submitted dialog)

end Rebuilding

/-- What the keys do to a field that they can edit; the text that stands for a saved secret gives
way to what is typed. -/
inductive FieldEdit : FormField → FormField → Prop
  | typed (key label before after : String) (cursor next : Nat) :
      FieldEdit ⟨key, label, before, cursor, .text⟩ ⟨key, label, after, next, .text⟩
  | masked (key label before after : String) (cursor next : Nat) :
      FieldEdit ⟨key, label, before, cursor, .masked⟩ ⟨key, label, after, next, .masked⟩
  | replaced (key label before after : String) (cursor next : Nat) :
      FieldEdit ⟨key, label, before, cursor, .savedSecret⟩ ⟨key, label, after, next, .masked⟩
  | chosen (key label text : String) (cursor : Nat) (choices : List (String × String))
      (before after : Nat) (inside : after < choices.length) :
      FieldEdit ⟨key, label, text, cursor, .choice choices before⟩
        ⟨key, label, text, cursor, .choice choices after⟩

/-- A dialog that was opened, edited and switched. -/
inductive Reached (protocols : List ProtocolInfo) : FormDialog → Prop
  | new (title : String) (dialog : FormDialog) (built : buildNew protocols title = some dialog) :
      Reached protocols dialog
  | edit (title : String) (entry : ConnectionEntry) :
      Reached protocols (buildEdit protocols title entry)
  | edited (dialog : FormDialog) (front back : List FormField) (before after : FormField)
      (reached : Reached protocols dialog) (isFields : dialog.fields = front ++ before :: back)
      (notProtocol : before.key ≠ "protocol") (edit : FieldEdit before after) :
      Reached protocols { dialog with fields := front ++ after :: back }
  | switched (dialog : FormDialog) (id : String) (reached : Reached protocols dialog)
      (offered : id ∈ (choicesOf dialog).map Prod.fst) : Reached protocols (switchTo protocols id dialog)

/-! ### Dialogs of a protocol -/

section Layout

variable {protocols : List ProtocolInfo} {dialog : FormDialog} {id : String}

/-- The fields are those of the protocol, and the first one offers the protocols. -/
structure AtProtocol (protocols : List ProtocolInfo) (dialog : FormDialog) (id : String) :
    Prop where
  keys : dialog.fields.map FormField.key =
    commonKeys ++ (formFor protocols id).options.map OptionField.key
  chosen : value dialog "protocol" = some id
  offered : id ∈ (choicesOf dialog).map Prod.fst
  first : ∃ label text cursor unavailable selected rest, dialog.fields =
    ⟨"protocol", label, text, cursor, .choice (protocolChoices protocols unavailable) selected⟩ ::
      rest

theorem keys_fields (id : String) (unavailable : Option String) (common : Common)
    (savedOptions : List (String × String)) (savedSecrets : List String) :
    (fields protocols id unavailable common savedOptions savedSecrets).map FormField.key =
      commonKeys ++ (formFor protocols id).options.map OptionField.key := by
  unfold fields
  rw [List.map_append, List.map_map]
  congr 1
  · cases common.savedPassword <;> rfl
  · apply List.map_congr_left
    intro field _
    exact optionField_key ..

theorem atProtocol_fields {unavailable : Option String} {common : Common}
    {savedOptions : List (String × String)} {savedSecrets : List String}
    (isFields : dialog.fields = fields protocols id unavailable common savedOptions savedSecrets)
    (offered : ∃ choice ∈ protocolChoices protocols unavailable, choice.1 = id) :
    AtProtocol protocols dialog id := by
  refine ⟨?_, ?_, ?_, ?_⟩
  · rw [isFields]
    exact keys_fields ..
  · have isId := choice_submittedValue offered "protocol" "Protocol"
    rw [value, isFields, fields, List.cons_append, List.find?_cons_of_pos rfl, Option.map_some,
      isId]
  · rw [choicesOf, isFields]
    exact List.mem_map.mpr offered
  · exact ⟨_, _, _, unavailable, _, _, isFields⟩

/-- An unavailable protocol stays among the choices. -/
theorem protocolChoices_unavailableChoice {unavailable : Option String}
    (isChoices : choicesOf dialog = protocolChoices protocols unavailable) :
    protocolChoices protocols (unavailableChoice protocols dialog) =
      protocolChoices protocols unavailable := by
  have registered (id : String) (isId : id ∈ (protocols.map fun info =>
      (info.id, info.displayName)).map Prod.fst) :
      ¬(!protocols.any fun info => info.id = id) = true := by
    rw [List.map_map, List.mem_map] at isId
    obtain ⟨info, isInfo, rfl⟩ := isId
    simpa using ⟨info, isInfo, rfl⟩
  have noneLeft : (((protocols.map fun info => (info.id, info.displayName)).map Prod.fst).find?
      fun id => !protocols.any fun info => info.id = id) = none :=
    List.find?_eq_none.mpr registered
  rw [unavailableChoice, isChoices]
  cases unavailable with
  | none =>
    unfold protocolChoices
    rw [noneLeft]
  | some id =>
    unfold protocolChoices
    dsimp only
    by_cases known : (protocols.any fun info => info.id = id) = true
    · rw [if_pos known, noneLeft]
    · have isLeft : ((protocols.map fun info => (info.id, info.displayName)) ++
          [(id, id ++ " (not available)")]).map Prod.fst =
            (protocols.map fun info => (info.id, info.displayName)).map Prod.fst ++ [id] := by
        rw [List.map_append]
        rfl
      rw [if_neg known, isLeft, List.find?_append, noneLeft, Option.none_or,
        List.find?_cons_of_pos (by simpa using known)]
      dsimp only
      rw [if_neg known]

theorem value_cons_of_ne {field : FormField} {rest : List FormField} {key : String}
    (isFields : dialog.fields = field :: rest) (other : field.key ≠ key) :
    value dialog key = (rest.find? fun field => field.key = key).map FormField.submittedValue := by
  rw [value, isFields, List.find?_cons_of_neg (by simpa using other)]

/-- The choice of a protocol changes nothing but the first field. -/
theorem rebuildFor_selectProtocol (layout : AtProtocol protocols dialog id) (other : String) :
    rebuildFor protocols (selectProtocol other dialog) other =
      rebuildFor protocols dialog other := by
  obtain ⟨label, text, cursor, unavailable, selected, rest, isFields⟩ := layout.first
  obtain ⟨index, isSelected⟩ : ∃ index, (selectProtocol other dialog).fields =
      ⟨"protocol", label, text, cursor,
        .choice (protocolChoices protocols unavailable) index⟩ :: rest := by
    rw [selectProtocol, isFields]
    exact ⟨_, rfl⟩
  have same (key : String) (notProtocol : "protocol" ≠ key) :
      value (selectProtocol other dialog) key = value dialog key := by
    rw [value_cons_of_ne isSelected notProtocol, value_cons_of_ne isFields notProtocol]
  have isRest : selectProtocol other dialog =
      { dialog with fields := (selectProtocol other dialog).fields } := by
    unfold selectProtocol
    split
    · rfl
    · rfl
  have sameSaved : (selectProtocol other dialog).savedSecrets = dialog.savedSecrets := by
    rw [isRest]
  have samePrefilled : (selectProtocol other dialog).prefilled = dialog.prefilled := by rw [isRest]
  have sameRemembered : (selectProtocol other dialog).remembered = dialog.remembered := by
    rw [isRest]
  have sameTitle : (selectProtocol other dialog).title = dialog.title := by rw [isRest]
  have samePort : typedPort (selectProtocol other dialog) = typedPort dialog := by
    rw [typedPort, typedPort, same "port" (by decide)]
  have sameUntouched : portUntouched (selectProtocol other dialog) = portUntouched dialog := by
    rw [portUntouched, portUntouched, samePort, samePrefilled]
  have samePassword : typedPassword (selectProtocol other dialog) = typedPassword dialog := by
    rw [typedPassword, typedPassword, same "password" (by decide)]
  have sameRestored : restored (selectProtocol other dialog) other = restored dialog other := by
    rw [restored, restored, sameSaved]
  have sameUnavailable : unavailableChoice protocols (selectProtocol other dialog) =
      unavailableChoice protocols dialog := by
    rw [unavailableChoice, unavailableChoice, choicesOf, choicesOf, isSelected, isFields]
  have sameOptions : ((selectProtocol other dialog).fields.filter fun field =>
      !commonKeys.contains field.key) =
        dialog.fields.filter fun field => !commonKeys.contains field.key := by
    rw [isSelected, isFields]
    rfl
  unfold rebuildFor
  rw [sameUntouched, samePort, samePassword, sameRestored, sameUnavailable, sameOptions,
    sameRemembered, samePrefilled, sameSaved, sameTitle, same "name" (by decide),
    same "group" (by decide), same "tags" (by decide), same "host" (by decide),
    same "username" (by decide), same "remote_path" (by decide)]

theorem switchTo_eq (layout : AtProtocol protocols dialog id) {other : String}
    (offered : other ∈ (choicesOf dialog).map Prod.fst) :
    switchTo protocols other dialog = rebuildFor protocols dialog other := by
  obtain ⟨label, text, cursor, unavailable, selected, rest, isFields⟩ := layout.first
  have isChosen : value (selectProtocol other dialog) "protocol" = some other := by
    have isChoices : choicesOf dialog = protocolChoices protocols unavailable := by
      rw [choicesOf, isFields]
    rw [isChoices] at offered
    obtain ⟨choice, isIn, isId⟩ := List.mem_map.mp offered
    have isValue := choice_submittedValue ⟨choice, isIn, isId⟩ "protocol" label
    obtain ⟨index, isIndex⟩ : ∃ index, (protocolChoices protocols unavailable).findIdx?
        (fun choice => choice.1 = other) = some index := by
      rw [← Option.isSome_iff_exists, List.findIdx?_isSome, List.any_eq_true]
      exact ⟨choice, isIn, decide_eq_true isId⟩
    rw [FormField.choice, isIndex] at isValue
    rw [value, selectProtocol, isFields]
    dsimp only
    rw [List.find?_cons_of_pos rfl, isIndex]
    exact congrArg some isValue
  rw [switchTo, rebuildForProtocol, isChosen]
  exact rebuildFor_selectProtocol layout other

theorem choicesOf_rebuildFor (layout : AtProtocol protocols dialog id) (other : String) :
    choicesOf (rebuildFor protocols dialog other) = choicesOf dialog := by
  obtain ⟨label, text, cursor, unavailable, selected, rest, isFields⟩ := layout.first
  have isChoices : choicesOf dialog = protocolChoices protocols unavailable := by
    rw [choicesOf, isFields]
  have isAgain := protocolChoices_unavailableChoice isChoices
  rw [isChoices, ← isAgain]
  rfl

theorem atProtocol_rebuildFor (layout : AtProtocol protocols dialog id) {other : String}
    (offered : other ∈ (choicesOf dialog).map Prod.fst) :
    AtProtocol protocols (rebuildFor protocols dialog other) other := by
  apply atProtocol_fields rfl
  have isChoices := choicesOf_rebuildFor layout other
  have isAgain : choicesOf (rebuildFor protocols dialog other) =
      protocolChoices protocols (unavailableChoice protocols dialog) := rfl
  rw [← isAgain, isChoices]
  obtain ⟨choice, isIn, isId⟩ := List.mem_map.mp offered
  exact ⟨choice, isIn, isId⟩

end Layout

/-! ### Opened dialogs -/

section Opening

variable {protocols : List ProtocolInfo} {dialog : FormDialog} {id : String}

theorem atProtocol_buildNew {title : String} (built : buildNew protocols title = some dialog) :
    ∃ id, AtProtocol protocols dialog id := by
  obtain ⟨first, isFirst, rfl⟩ := Option.map_eq_some_iff.mp built
  refine ⟨first.id, atProtocol_fields rfl ⟨(first.id, first.displayName), ?_, rfl⟩⟩
  exact List.mem_map.mpr ⟨first, List.mem_of_head? isFirst, rfl⟩

theorem FieldEdit.key_eq {before after : FormField} (edit : FieldEdit before after) :
    after.key = before.key := by
  cases edit <;> rfl

theorem AtProtocol.edit (layout : AtProtocol protocols dialog id) {front back : List FormField}
    {before after : FormField} (isFields : dialog.fields = front ++ before :: back)
    (notProtocol : before.key ≠ "protocol") (edit : FieldEdit before after) :
    AtProtocol protocols { dialog with fields := front ++ after :: back } id := by
  obtain ⟨label, text, cursor, unavailable, selected, rest, isFirst⟩ := layout.first
  rw [isFields] at isFirst
  cases front with
  | nil =>
    rw [List.nil_append, List.cons.injEq] at isFirst
    exact absurd (congrArg FormField.key isFirst.1) notProtocol
  | cons head front =>
    rw [List.cons_append, List.cons.injEq] at isFirst
    obtain ⟨rfl, isRest⟩ := isFirst
    refine ⟨?_, ?_, ?_, label, text, cursor, unavailable, selected, front ++ after :: back, rfl⟩
    · have keys := layout.keys
      rw [isFields] at keys
      rw [← keys]
      simp [edit.key_eq]
    · have chosen := layout.chosen
      rw [value, isFields, List.cons_append, List.find?_cons_of_pos rfl] at chosen
      rw [value, List.cons_append, List.find?_cons_of_pos rfl]
      exact chosen
    · have offered := layout.offered
      rw [choicesOf, isFields] at offered
      exact offered

theorem Reached.atProtocol (reached : Reached protocols dialog) :
    ∃ id, AtProtocol protocols dialog id := by
  induction reached with
  | new title dialog built => exact atProtocol_buildNew built
  | edit title entry =>
    exact ⟨entry.protocol, atProtocol_fields rfl (protocol_offered protocols entry.protocol)⟩
  | edited dialog front back before after reached isFields notProtocol edit ih =>
    obtain ⟨id, layout⟩ := ih
    exact ⟨id, layout.edit isFields notProtocol edit⟩
  | switched dialog id reached offered ih =>
    obtain ⟨former, layout⟩ := ih
    rw [switchTo_eq layout offered]
    exact ⟨id, atProtocol_rebuildFor layout offered⟩

end Opening

/-! ### What a switch leaves -/

/-- Keys that differ, and none of a field that every form has. -/
structure PlainKeys (form : ConnectionForm) : Prop where
  distinct : (form.options.map OptionField.key).Nodup
  noCollision : form.reservedKeyCollisions = []

/-- What is remembered of a submitted text. -/
def keptText (text : String) : Option String := if text = keptSecret then none else some text

/-- What is remembered under the key of an option when the dialog is left. -/
def recalled (dialog : FormDialog) (key : String) : Option String :=
  match value dialog key with
  | some text => keptText text
  | none => dialog.remembered.lookup key

/-- What an option submits for a remembered text, where its secret may be saved. -/
def shows (field : OptionField) (saved : Bool) (remembered : Option String) : String :=
  (optionField field remembered
    (if saved && remembered.all fun text => text = "" then [field.key] else [])).submittedValue

section Values

variable {protocols : List ProtocolInfo} {dialog : FormDialog} {id : String}

theorem plainKeys_formFor (plain : ∀ info ∈ protocols, PlainKeys info.form) (id : String) :
    PlainKeys (formFor protocols id) := by
  unfold formFor
  cases isFound : protocols.find? fun info => info.id = id with
  | some info => exact plain info (List.mem_of_find?_eq_some isFound)
  | none => exact ⟨List.nodup_nil, rfl⟩

theorem PlainKeys.not_common {form : ConnectionForm} (plain : PlainKeys form) {field : OptionField}
    (isIn : field ∈ form.options) : field.key ∉ commonKeys := by
  have within : ∀ key ∈ commonKeys, key ∈ reservedKeys := by decide
  intro isCommon
  exact form.not_reserved plain.noCollision isIn (within _ isCommon)

theorem PlainKeys.option_eq_some {form : ConnectionForm} (plain : PlainKeys form)
    {field : OptionField} (isIn : field ∈ form.options) : form.option field.key = some field :=
  find?_key plain.distinct isIn

theorem find_fields_common (id : String) (unavailable : Option String) (common : Common)
    (savedOptions : List (String × String)) (savedSecrets : List String) {key text : String}
    (isCommon : (key, text) ∈ [("name", common.name), ("group", common.group),
      ("tags", common.tags), ("host", common.host), ("port", common.port),
      ("username", common.username),
      ("password", if common.savedPassword then keptSecret else common.password),
      ("remote_path", common.remotePath)]) :
    ((fields protocols id unavailable common savedOptions savedSecrets).find?
      fun field => field.key = key).map FormField.submittedValue = some text := by
  simp only [List.mem_cons, Prod.mk.injEq, List.not_mem_nil, or_false] at isCommon
  cases isSaved : common.savedPassword <;> rw [isSaved] at isCommon <;>
    rcases isCommon with ⟨rfl, rfl⟩ | ⟨rfl, rfl⟩ | ⟨rfl, rfl⟩ | ⟨rfl, rfl⟩ | ⟨rfl, rfl⟩ |
      ⟨rfl, rfl⟩ | ⟨rfl, rfl⟩ | ⟨rfl, rfl⟩ <;>
    simp [fields, isSaved, FormField.choice, FormField.text, FormField.masked,
      FormField.savedSecret, FormField.submittedValue]

theorem value_rebuildFor_text {key : String} (isText : key ∈
    ["name", "group", "tags", "host", "username", "remote_path"]) (other : String) :
    value (rebuildFor protocols dialog other) key = some ((value dialog key).getD "") := by
  simp only [List.mem_cons, List.not_mem_nil, or_false] at isText
  apply find_fields_common
  rcases isText with rfl | rfl | rfl | rfl | rfl | rfl <;> simp

theorem typedPort_rebuildFor (other : String) : typedPort (rebuildFor protocols dialog other) =
      if portUntouched dialog then (formFor protocols other).port.default.repr
      else typedPort dialog := by
  have isPort : value (rebuildFor protocols dialog other) "port" = some
      (if portUntouched dialog then (formFor protocols other).port.default.repr
        else typedPort dialog) := by
    apply find_fields_common
    simp
  conv_lhs => rw [typedPort, isPort]
  rfl

theorem value_password_rebuildFor (other : String) :
    value (rebuildFor protocols dialog other) "password" = some
      (if typedPassword dialog = "" ∧ "password" ∈ restored dialog other then keptSecret
        else typedPassword dialog) := by
  apply find_fields_common
  simp

theorem lookup_remember (remembered : List (String × String)) (field : FormField) (key : String) :
    (remember remembered field).lookup key =
      if key = field.key then keptText field.submittedValue else remembered.lookup key := by
  unfold remember keptText
  by_cases isKept : field.submittedValue = keptSecret
  · rw [if_pos isKept, if_pos isKept]
    have rest := lookup_filter remembered (fun known => decide (known ≠ field.key)) key
    rw [rest]
    by_cases same : key = field.key
    · simp [same]
    · simp [same]
  · rw [if_neg isKept, if_neg isKept, lookup_insertOption]

theorem lookup_foldl_remember {fields : List FormField}
    (distinct : (fields.map FormField.key).Nodup) (remembered : List (String × String))
    (key : String) : (fields.foldl remember remembered).lookup key =
      match fields.find? fun field => field.key = key with
      | some field => keptText field.submittedValue
      | none => remembered.lookup key := by
  induction fields generalizing remembered with
  | nil => rfl
  | cons field rest ih =>
    obtain ⟨isNew, distinct⟩ := List.nodup_cons.mp distinct
    rw [List.foldl_cons, ih distinct, lookup_remember]
    by_cases same : field.key = key
    · have noOther : rest.find? (fun field => field.key = key) = none := by
        rw [List.find?_eq_none]
        intro other isIn isKey
        apply isNew
        rw [same, ← of_decide_eq_true isKey]
        exact List.mem_map_of_mem isIn
      rw [noOther, List.find?_cons_of_pos (by simpa using same)]
      dsimp only
      rw [if_pos same.symm]
    · rw [List.find?_cons_of_neg (by simpa using same), if_neg fun isKey => same isKey.symm]

theorem AtProtocol.distinct (layout : AtProtocol protocols dialog id)
    (plain : PlainKeys (formFor protocols id)) : (dialog.fields.map FormField.key).Nodup := by
  rw [layout.keys, List.nodup_append]
  refine ⟨by decide, plain.distinct, ?_⟩
  rintro key isCommon _ isOption rfl
  obtain ⟨field, isIn, rfl⟩ := List.mem_map.mp isOption
  exact plain.not_common isIn isCommon

theorem remembered_rebuildFor (layout : AtProtocol protocols dialog id)
    (plain : PlainKeys (formFor protocols id)) {key : String} (notCommon : key ∉ commonKeys)
    (other : String) :
    (rebuildFor protocols dialog other).remembered.lookup key = recalled dialog key := by
  have distinct : ((dialog.fields.filter fun field =>
      !commonKeys.contains field.key).map FormField.key).Nodup :=
    (layout.distinct plain).sublist (List.filter_sublist.map _)
  have isFound : ((dialog.fields.filter fun field => !commonKeys.contains field.key).find?
      fun field => field.key = key) = dialog.fields.find? fun field => field.key = key := by
    rw [List.find?_filter]
    congr 1
    funext field
    by_cases same : field.key = key
    · simp [same, notCommon]
    · simp [same]
  have isRemembered := lookup_foldl_remember distinct dialog.remembered key
  rw [isFound] at isRemembered
  refine isRemembered.trans ?_
  unfold recalled value
  cases dialog.fields.find? fun field => field.key = key with
  | none => rfl
  | some field => rfl

theorem submittedValue_optionField {field : OptionField} {first second : List String}
    (same : field.key ∈ first ↔ field.key ∈ second) (remembered : Option String) :
    (optionField field remembered first).submittedValue =
      (optionField field remembered second).submittedValue := by
  unfold optionField
  have sameAny : (first.any fun marker => marker = field.key) =
      second.any fun marker => marker = field.key := by
    rw [Bool.eq_iff_iff]
    simpa using same
  cases field.kind with
  | secret =>
    dsimp only
    rw [sameAny]
  | text default => rfl
  | choice choices default => rfl
  | toggle default => rfl

theorem value_option_rebuildFor (layout : AtProtocol protocols dialog id)
    (plain : PlainKeys (formFor protocols id)) {key : String} (notCommon : key ∉ commonKeys)
    (other : String) : value (rebuildFor protocols dialog other) key =
      ((formFor protocols other).option key).map fun field =>
        shows field (decide (key ∈ restored dialog other)) (recalled dialog key) := by
  have isRemembered := remembered_rebuildFor layout plain notCommon other
  obtain ⟨remembered, isList⟩ : ∃ remembered,
      remembered = (rebuildFor protocols dialog other).remembered := ⟨_, rfl⟩
  obtain ⟨markers, isMarkers⟩ : ∃ markers, markers = (restored dialog other).filter fun key =>
      (remembered.lookup key).all fun value => value = "" := ⟨_, rfl⟩
  obtain ⟨unavailable, common, isFields⟩ : ∃ unavailable common,
      (rebuildFor protocols dialog other).fields =
        fields protocols other unavailable common remembered markers := by
    rw [isMarkers, isList]
    exact ⟨_, _, rfl⟩
  rw [← isList] at isRemembered
  have noCommon (rest : List FormField) (front : List FormField)
      (areCommon : front.map FormField.key = commonKeys) :
      ((front ++ rest).find? fun field => field.key = key) =
        rest.find? fun field => field.key = key := by
    rw [List.find?_append, List.find?_eq_none.mpr, Option.none_or]
    intro field isIn isKey
    apply notCommon
    rw [← areCommon, ← of_decide_eq_true isKey]
    exact List.mem_map_of_mem isIn
  rw [value, isFields, fields, noCommon _ _ (by cases common.savedPassword <;> rfl),
    List.find?_map, Option.map_map, ConnectionForm.option]
  have sameFind : ((fun field : FormField => decide (field.key = key)) ∘ fun field =>
      optionField field (remembered.lookup field.key) markers) =
        fun field : OptionField => decide (field.key = key) := by
    funext field
    rw [Function.comp_apply, optionField_key]
  rw [sameFind]
  cases isFound : (formFor protocols other).options.find? fun field => field.key = key with
  | none => rfl
  | some field =>
    have isKey : field.key = key := by simpa using List.find?_some isFound
    rw [Option.map_some, Option.map_some, Function.comp_apply, isKey, isRemembered, shows]
    apply congrArg some
    apply submittedValue_optionField
    rw [isMarkers, isKey, List.mem_filter, isRemembered]
    by_cases isRestored : key ∈ restored dialog other
    · by_cases isBlank : ((recalled dialog key).all fun text => text = "") = true
      · simp [isRestored, isBlank]
      · simp [isRestored, isBlank]
    · simp [isRestored]

end Values

end ConnectionDialog

end Porthmos
