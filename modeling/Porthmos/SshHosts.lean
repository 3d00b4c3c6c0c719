import Porthmos.SshConfigLines
import Mathlib.Data.Bool.AllAny

/-!
# How hosts are resolved

For a host the directives before the first block and those of the `Host` blocks that match it count.
Of each keyword the first value is taken, of the port the first valid one, and an identity file is
rather taken from a block that names the host.
-/

namespace Porthmos

namespace SshConfig

open TextFields
open StateFiles (isWhitespace)

/-! ### What a configuration says -/

/-- `%h` stands for the host, and `%%` for a percent sign. -/
inductive Expands (name : List Char) : List Char → List Char → Prop
  | done : Expands name [] []
  | host {rest text : List Char} (expands : Expands name rest text) :
      Expands name ('%' :: 'h' :: rest) (name ++ text)
  | percent {rest text : List Char} (expands : Expands name rest text) :
      Expands name ('%' :: '%' :: rest) ('%' :: text)
  | other {character : Char} {rest text : List Char} (notHost : character ≠ 'h')
      (notPercent : character ≠ '%') (expands : Expands name rest text) :
      Expands name ('%' :: character :: rest) ('%' :: character :: text)
  | last : Expands name ['%'] ['%']
  | plain {character : Char} {rest text : List Char} (notPercent : character ≠ '%')
      (expands : Expands name rest text) : Expands name (character :: rest) (character :: text)

/-- The first value of a keyword. -/
def firstValue (keyword : List Char) (directives : List Directive) : Option (List Char) :=
  directives.findSome? fun directive =>
    if directive.1 = keyword then some directive.2 else none

/-- The first value of a port that is one. -/
def firstPort (directives : List Directive) : Option Nat :=
  directives.findSome? fun directive =>
    if directive.1 = portKey then parseU16 directive.2 else none

namespace Section

/-- A block is for a host that one of its patterns matches, and none that is negated. -/
def IsFor (lower : List Char → List Char) (name : List Char) : Section → Prop
  | host patterns _ =>
    (∃ pattern ∈ patterns, pattern.head? ≠ some '!' ∧
      Glob.Matches (lower pattern) (lower name)) ∧
    ∀ pattern ∈ patterns, pattern.head? = some '!' →
      ¬ Glob.Matches (lower pattern.tail) (lower name)
  | matching _ _ => False

def patterns : Section → List (List Char)
  | host patterns _ => patterns
  | matching _ _ => []

/-- The patterns of a block that are hosts. -/
def aliases (part : Section) : List (List Char) :=
  part.patterns.filter fun pattern => !isPattern pattern

def Names (name : List Char) (part : Section) : Prop :=
  ∃ other ∈ part.aliases, eqIgnoreAsciiCase other name = true

end Section

namespace Config

variable (config : Config) (lower : List Char → List Char) (name : List Char)

/-- The hosts, in the order in which they appear. -/
def aliases : List (List Char) :=
  (config.sections.flatMap Section.aliases).eraseDupsBy eqIgnoreAsciiCase

open Classical in
/-- The directives that count for a host. -/
noncomputable def directivesFor : List Directive :=
  config.leading ++
    (config.sections.filter fun part => part.IsFor lower name).flatMap Section.directives

open Classical in
/-- Those of the blocks that name it. -/
noncomputable def ownDirectives : List Directive :=
  (config.sections.filter fun part => part.IsFor lower name ∧ part.Names name).flatMap
    Section.directives

/-- A host as the configuration has it. -/
structure IsHost (home : Option Path) (name : List Char) (host : SshConfigHost) : Prop where
  isNamed : host.name = name
  hostName : Option.Rel (Expands name) (firstValue hostNameKey (config.directivesFor lower name))
    host.hostName
  user : host.user = firstValue userKey (config.directivesFor lower name)
  port : host.port = firstPort (config.directivesFor lower name)
  identityFile : host.identityFile =
    ((firstValue identityFileKey (config.ownDirectives lower name)).or
      (firstValue identityFileKey (config.directivesFor lower name))).map (expandHome home)

end Config

theorem expands_expandTokens (name value : List Char) :
    Expands name value (expandTokens name value) := by
  fun_induction expandTokens name value with
  | case1 => exact .done
  | case2 rest ih => exact .host ih
  | case3 rest ih => exact .percent ih
  | case4 other rest notHost notPercent ih => exact .other notHost notPercent ih
  | case5 character rest notHost notPercent notOther ih =>
    by_cases percent : character = '%'
    · cases rest with
      | nil =>
        rw [percent]
        exact .last
      | cons other rest => exact (notOther other rest percent rfl).elim
    · exact .plain percent ih

/-! ### Hosts in order -/

theorem eqIgnoreAsciiCase_comm (first second : List Char) :
    eqIgnoreAsciiCase first second = eqIgnoreAsciiCase second first := by
  simp [eqIgnoreAsciiCase, eq_comm]

theorem foldl_addAlias (patterns aliases : List (List Char)) :
    patterns.foldl addAlias aliases = aliases ++
      ((patterns.filter fun pattern => !isPattern pattern).filter fun pattern =>
        !aliases.any fun other => eqIgnoreAsciiCase other pattern).eraseDupsBy
          eqIgnoreAsciiCase := by
  induction patterns generalizing aliases with
  | nil => simp
  | cons pattern patterns ih =>
    rw [List.foldl_cons, ih, addAlias]
    by_cases wild : isPattern pattern = true
    · simp [wild]
    · by_cases known : (aliases.any fun other => eqIgnoreAsciiCase other pattern) = true
      · simp [wild, known]
      · rw [if_neg (by simp [wild, known]), List.filter_cons_of_pos (by simp [wild]),
          List.filter_cons_of_pos (by simp [known]), List.eraseDupsBy_cons, List.append_assoc,
          List.singleton_append, List.filter_filter, List.filter_filter, List.filter_filter]
        congr 3
        apply List.filter_congr
        intro other _
        simp only [List.any_append, List.any_cons, List.any_nil, Bool.or_false,
          eqIgnoreAsciiCase_comm other pattern]
        cases eqIgnoreAsciiCase pattern other <;> simp

theorem mem_of_mem_eraseDupsBy {α : Type} {same : α → α → Bool} {value : α} {values : List α}
    (member : value ∈ values.eraseDupsBy same) : value ∈ values := by
  match values with
  | [] => exact member
  | first :: rest =>
    rw [List.eraseDupsBy_cons, List.mem_cons] at member
    rcases member with rfl | later
    · exact List.mem_cons_self
    · have shorter := List.length_filter_le (fun other => same other first = false) rest
      exact List.mem_cons_of_mem _ (List.mem_of_mem_filter (mem_of_mem_eraseDupsBy later))
termination_by values.length
decreasing_by
  rw [List.length_cons]
  omega

theorem concreteAliases_blocks (config : Config) :
    concreteAliases config.blocks = config.aliases := by
  have fromSections (sections : List Section) (aliases : List (List Char)) :
      (sections.map Section.block).foldl addAliases aliases =
        (sections.flatMap Section.patterns).foldl addAlias aliases := by
    induction sections generalizing aliases with
    | nil => rfl
    | cons part sections ih =>
      rw [List.map_cons, List.foldl_cons, ih, List.flatMap_cons, List.foldl_append]
      cases part <;> rfl
  have noHosts : addAliases [] ⟨.everywhere, config.leading⟩ = [] := rfl
  have wildless : (config.sections.flatMap Section.patterns).filter (fun pattern =>
      !isPattern pattern) = config.sections.flatMap Section.aliases := List.filter_flatMap ..
  rw [concreteAliases, Config.blocks, List.foldl_cons, fromSections, noHosts, foldl_addAlias,
    wildless, Config.aliases, List.nil_append]
  simp

/-! ### The directives that count -/

section Filling

variable {σ ε α : Type} {step : σ → ε → σ} {field : σ → Option α} {given : ε → Option α}

theorem foldl_or {known : σ → Prop} {entries : List ε} {state : σ} (start : known state)
    (keeps : ∀ state, known state → ∀ entry ∈ entries, known (step state entry) ∧
      field (step state entry) = (field state).or (given entry)) :
    field (entries.foldl step state) = (field state).or (entries.findSome? given) := by
  induction entries generalizing state with
  | nil => simp
  | cons entry entries ih =>
    obtain ⟨stillKnown, isField⟩ := keeps state start entry List.mem_cons_self
    rw [List.foldl_cons, ih stillKnown, isField, List.findSome?_cons, Option.or_assoc]
    · cases given entry <;> rfl
    · intro state isKnown other member
      exact keeps state isKnown other (List.mem_cons_of_mem _ member)

end Filling

/-! ### Blocks that count -/

section Matching

variable {lower : List Char → List Char} {name : List Char}

theorem matchesFrom_iff (patterns : List (List Char)) (matched : Bool) :
    matchesFrom lower name matched patterns = true ↔
      (matched = true ∨ ∃ pattern ∈ patterns, pattern.head? ≠ some '!' ∧
        globMatch lower pattern name = true) ∧
      ∀ pattern ∈ patterns, pattern.head? = some '!' →
        ¬ globMatch lower pattern.tail name = true := by
  induction patterns generalizing matched with
  | nil => simp [matchesFrom]
  | cons pattern patterns ih =>
    rw [matchesFrom]
    by_cases negated : pattern.head? = some '!'
    · rw [if_pos negated]
      split_ifs with isMatch
      · simp [negated, isMatch]
      · rw [ih]
        simp [negated, isMatch]
    · rw [if_neg negated, ih]
      simp [negated, or_assoc]

theorem isMatch_block (starless : '*' ∉ lower name) (part : Section) :
    part.block.isMatch lower name = true ↔ part.IsFor lower name := by
  have glob (pattern : List Char) :
      globMatch lower pattern name = true ↔ Glob.Matches (lower pattern) (lower name) :=
    Glob.matchFrom_iff (.inr starless)
  cases part with
  | host patterns directives =>
    rw [Section.block, Block.isMatch, matchesFrom_iff]
    simp only [glob, Section.IsFor, Bool.false_eq_true, false_or]
  | matching criteria directives =>
    constructor
    · intro isMatch
      cases isMatch
    · intro isFor
      cases isFor

theorem names_block (part : Section) : part.block.names name = true ↔ part.Names name := by
  cases part with
  | host patterns directives =>
    simp [Section.block, Block.names, Section.Names, Section.aliases, Section.patterns, and_assoc]
  | matching criteria directives =>
    simp [Section.block, Block.names, Section.Names, Section.aliases, Section.patterns]

end Matching

/-! ### Directives in order -/

section Resolving

variable {home : Option Path} {name : List Char}

/-- What is given to a field by a directive with one of the keywords. -/
def given {α : Type} (keyword : List Char) (read : List Char → Option α)
    (entry : Bool × Directive) : Option α :=
  if entry.2.1 = keyword then read entry.2.2 else none

def resolveEntry (home : Option Path) (resolving : Resolving) (entry : Bool × Directive) :
    Resolving := resolveDirective home entry.1 resolving entry.2

theorem keys_distinct : hostNameKey ≠ userKey ∧ hostNameKey ≠ portKey ∧
    hostNameKey ≠ identityFileKey ∧ userKey ≠ portKey ∧ userKey ≠ identityFileKey ∧
    portKey ≠ identityFileKey := by
  decide

/-- What one directive fills in. -/
theorem resolveEntry_fields (resolving : Resolving) (entry : Bool × Directive) :
    let after := resolveEntry home resolving entry
    after.host.name = resolving.host.name ∧ after.host.hostName = resolving.host.hostName.or
        (given hostNameKey (fun value => some (expandTokens resolving.host.name value)) entry) ∧
      after.host.user = resolving.host.user.or (given userKey some entry) ∧
      after.host.port = resolving.host.port.or (given portKey parseU16 entry) ∧
      after.host.identityFile = resolving.host.identityFile.or
        (if entry.1 = true then given identityFileKey (fun value => some (expandHome home value)) entry
        else none) ∧
      (entry.1 = false ∨ entry.2.1 ≠ identityFileKey →
        after.wildcardIdentityFile = resolving.wildcardIdentityFile.or
          (given identityFileKey (fun value => some (expandHome home value)) entry)) := by
  obtain ⟨⟨hostName, told, user, port, identityFile⟩, wildcard⟩ := resolving
  obtain ⟨namesAlias, keyword, value⟩ := entry
  obtain ⟨hostUser, hostPort, hostIdentity, userPort, userIdentity, portIdentity⟩ := keys_distinct
  simp only [resolveEntry, resolveDirective, given]
  by_cases isHostName : keyword = hostNameKey
  · subst isHostName
    cases told <;> simp [hostUser, hostPort, hostIdentity]
  by_cases isUser : keyword = userKey
  · subst isUser
    cases user <;> simp [hostUser.symm, userPort, userIdentity]
  by_cases isPort : keyword = portKey
  · subst isPort
    cases port <;> simp [hostPort.symm, userPort.symm, portIdentity]
  by_cases isIdentity : keyword = identityFileKey
  · subst isIdentity
    cases namesAlias <;> cases identityFile <;> cases wildcard <;>
      simp [hostIdentity.symm, userIdentity.symm, portIdentity.symm]
  simp [isHostName, isUser, isPort, isIdentity]

/-- The directives of blocks, each with whether its block names the host. -/
def entriesOf (name : List Char) (blocks : List Block) : List (Bool × Directive) :=
  blocks.flatMap fun block => block.directives.map fun directive => (block.names name, directive)

theorem foldl_resolveBlock (blocks : List Block) (resolving : Resolving) :
    blocks.foldl (resolveBlock home name) resolving =
      (entriesOf name blocks).foldl (resolveEntry home) resolving := by
  induction blocks generalizing resolving with
  | nil => rfl
  | cons block blocks ih =>
    rw [List.foldl_cons, ih, entriesOf, entriesOf, List.flatMap_cons, List.foldl_append,
      List.foldl_map]
    rfl

theorem findSome?_given {α : Type} (key : List Char) (read : List Char → α) (blocks : List Block) :
    (entriesOf name blocks).findSome? (given key fun value => some (read value)) =
      (firstValue key (blocks.flatMap Block.directives)).map read := by
  have directives : blocks.flatMap Block.directives = (entriesOf name blocks).map Prod.snd := by
    simp [entriesOf, List.map_flatMap, Function.comp_def]
  rw [directives, firstValue, List.findSome?_map, List.map_findSome?]
  congr 1
  funext entry
  by_cases isKey : entry.2.1 = key <;> simp [given, isKey]

theorem findSome?_port (blocks : List Block) :
    (entriesOf name blocks).findSome? (given portKey parseU16) =
      firstPort (blocks.flatMap Block.directives) := by
  have directives : blocks.flatMap Block.directives = (entriesOf name blocks).map Prod.snd := by
    simp [entriesOf, List.map_flatMap, Function.comp_def]
  rw [directives, firstPort, List.findSome?_map]
  rfl

theorem findSome?_own {α : Type} (read : Bool × Directive → Option α) (blocks : List Block) :
    ((entriesOf name blocks).findSome? fun entry => if entry.1 = true then read entry else none) =
      (entriesOf name (blocks.filter fun block => block.names name)).findSome? read := by
  induction blocks with
  | nil => rfl
  | cons block blocks ih =>
    rw [entriesOf, List.flatMap_cons, List.findSome?_append, ← entriesOf, ih]
    by_cases names : block.names name = true
    · rw [List.filter_cons, if_pos names, entriesOf, entriesOf, List.flatMap_cons,
        List.findSome?_append, List.findSome?_map, List.findSome?_map]
      simp [names, Function.comp_def]
    · have nothing : block.directives.findSome? ((fun entry : Bool × Directive =>
          if entry.1 = true then read entry else none) ∘
            fun directive => (block.names name, directive)) = none := by
        rw [List.findSome?_eq_none_iff]
        intro directive _
        exact if_neg names
      rw [List.filter_cons, if_neg names, List.findSome?_map, nothing, Option.none_or]

theorem foldl_named (entries : List (Bool × Directive)) (resolving : Resolving) :
    (entries.foldl (resolveEntry home) resolving).host.name = resolving.host.name := by
  induction entries generalizing resolving with
  | nil => rfl
  | cons entry entries ih => rw [List.foldl_cons, ih, (resolveEntry_fields resolving entry).1]

/-- How the fields of a host are filled by blocks. -/
theorem resolveBlocks_fields (home : Option Path) (name : List Char) (blocks : List Block) :
    let resolved := blocks.foldl (resolveBlock home name) ⟨⟨name, none, none, none, none⟩, none⟩
    let directives := blocks.flatMap Block.directives
    let own := (blocks.filter fun block => block.names name).flatMap Block.directives
    resolved.host.name = name ∧
      resolved.host.hostName = (firstValue hostNameKey directives).map (expandTokens name) ∧
      resolved.host.user = firstValue userKey directives ∧
      resolved.host.port = firstPort directives ∧
      resolved.host.identityFile.or resolved.wildcardIdentityFile =
        ((firstValue identityFileKey own).or (firstValue identityFileKey directives)).map
          (expandHome home) := by
  intro resolved directives own
  have isFold : resolved = (entriesOf name blocks).foldl (resolveEntry home)
      ⟨⟨name, none, none, none, none⟩, none⟩ := foldl_resolveBlock blocks _
  have isNamed := @foldl_named home (entriesOf name blocks) ⟨⟨name, none, none, none, none⟩, none⟩
  -- Each field is filled once, by the first directive that gives it.
  have fills {α : Type} (field : Resolving → Option α) (gives : Bool × Directive → Option α)
      (noStart : field ⟨⟨name, none, none, none, none⟩, none⟩ = none)
      (keeps : ∀ resolving : Resolving, resolving.host.name = name →
        ∀ entry ∈ entriesOf name blocks, field (resolveEntry home resolving entry) =
          (field resolving).or (gives entry)) :
      field resolved = (entriesOf name blocks).findSome? gives := by
    rw [isFold, @foldl_or _ _ _ _ field gives (fun resolving => resolving.host.name = name) _ _ rfl,
      noStart, Option.none_or]
    intro resolving named entry member
    exact ⟨(resolveEntry_fields resolving entry).1.trans named, keeps resolving named entry member⟩
  have isOwn : resolved.host.identityFile = (firstValue identityFileKey own).map (expandHome home) := by
    rw [fills (fun resolving => resolving.host.identityFile) (fun entry => if entry.1 = true then
      given identityFileKey (fun value => some (expandHome home value)) entry else none) rfl
      fun resolving _ entry _ => (resolveEntry_fields resolving entry).2.2.2.2.1, findSome?_own,
      findSome?_given]
  refine ⟨isFold ▸ isNamed, ?_, ?_, ?_, ?_⟩
  · rw [fills (fun resolving => resolving.host.hostName)
      (given hostNameKey fun value => some (expandTokens name value)) rfl, findSome?_given]
    intro resolving named entry _
    rw [← named]
    exact (resolveEntry_fields resolving entry).2.1
  · rw [fills (fun resolving => resolving.host.user) (given userKey some) rfl
      fun resolving _ entry _ => (resolveEntry_fields resolving entry).2.2.1]
    exact (findSome?_given userKey id blocks).trans Option.map_id'
  · rw [fills (fun resolving => resolving.host.port) (given portKey parseU16) rfl
      fun resolving _ entry _ => (resolveEntry_fields resolving entry).2.2.2.1, findSome?_port]
  · cases isFirst : firstValue identityFileKey own with
    | some value => rw [isOwn, isFirst]; rfl
    | none =>
      have noOwn : ∀ entry ∈ entriesOf name blocks,
          entry.1 = false ∨ entry.2.1 ≠ identityFileKey := by
        have nothing := @findSome?_own name _
          (given identityFileKey fun value => some (id value)) blocks
        rw [findSome?_given, isFirst, Option.map_none] at nothing
        intro entry member
        have gave := List.findSome?_eq_none_iff.mp nothing entry member
        rw [or_iff_not_imp_left, Bool.not_eq_false]
        intro names isKey
        simp [names, given, isKey] at gave
      rw [isOwn, isFirst, Option.map_none, Option.none_or, Option.none_or,
        fills Resolving.wildcardIdentityFile
          (given identityFileKey fun value => some (expandHome home value)) rfl
          fun resolving _ entry member =>
            (resolveEntry_fields resolving entry).2.2.2.2.2 (noOwn entry member),
        findSome?_given]

end Resolving

/-! ### Configurations as they are read -/

section Reading

variable {lower : List Char → List Char} {config : Config} {name : List Char}

theorem directives_block (sections : List Section) :
    (sections.map Section.block).flatMap Block.directives = sections.flatMap Section.directives := by
  rw [List.flatMap_map]
  congr 1
  funext part
  cases part <;> rfl

open Classical in
theorem filter_blocks (starless : '*' ∉ lower name) :
    config.blocks.filter (fun block => block.isMatch lower name) = ⟨.everywhere, config.leading⟩ ::
        (config.sections.filter fun part => part.IsFor lower name).map Section.block := by
  have leading : (⟨.everywhere, config.leading⟩ : Block).isMatch lower name = true := rfl
  rw [Config.blocks, List.filter_cons, if_pos leading, List.filter_map]
  congr 2
  apply List.filter_congr
  intro part _
  rw [Function.comp_apply, Bool.eq_iff_iff, isMatch_block starless, decide_eq_true_eq]

theorem isHost_resolve (starless : '*' ∉ lower name) (home : Option Path) :
    config.IsHost lower home name (resolve lower name config.blocks home) := by
  classical
  have fields := resolveBlocks_fields home name
    (config.blocks.filter fun block => block.isMatch lower name)
  have isAll : (config.blocks.filter fun block => block.isMatch lower name).flatMap
      Block.directives = config.directivesFor lower name := by
    rw [filter_blocks starless, List.flatMap_cons, directives_block]
    rfl
  have isOwn : ((config.blocks.filter fun block => block.isMatch lower name).filter
      fun block => block.names name).flatMap Block.directives = config.ownDirectives lower name := by
    have leading : ¬ (⟨.everywhere, config.leading⟩ : Block).names name = true := nofun
    rw [filter_blocks starless, List.filter_cons, if_neg leading, List.filter_map,
      directives_block, List.filter_filter, Config.ownDirectives]
    congr 2
    funext part
    rw [Function.comp_apply, Bool.eq_iff_iff, Bool.and_eq_true, names_block, decide_eq_true_eq,
      decide_eq_true_eq, and_comm]
  rw [isAll, isOwn] at fields
  obtain ⟨isNamed, hostName, user, port, identityFile⟩ := fields
  refine ⟨isNamed, ?_, user, port, identityFile⟩
  show Option.Rel _ _ (List.foldl _ _ _ : Resolving).host.hostName
  rw [hostName]
  cases firstValue hostNameKey (config.directivesFor lower name) with
  | none => exact .none
  | some value => exact .some (expands_expandTokens name value)

theorem not_star_of_mem_aliases (member : name ∈ config.aliases) : '*' ∉ name := by
  obtain ⟨part, -, isAlias⟩ := List.mem_flatMap.mp (mem_of_mem_eraseDupsBy member)
  have plain := (List.mem_filter.mp isAlias).2
  intro isStar
  rw [Bool.not_eq_true', isPattern, List.any_eq_false] at plain
  exact plain '*' isStar (by decide)

/-- However a configuration is written, its hosts are read in order, each as the configuration has
it. -/
theorem parse_renders {contents : List Char} (renders : config.Renders contents)
    (starless : ∀ text, '*' ∉ text → '*' ∉ lower text) (home : Option Path) :
    List.Forall₂ (config.IsHost lower home) config.aliases (parse lower contents home) := by
  rw [parse, splitIntoBlocks_renders renders, concreteAliases_blocks]
  simp only [List.forall₂_map_right_iff, List.forall₂_same]
  intro name member
  exact isHost_resolve (starless name (not_star_of_mem_aliases member)) home

theorem isValue_of_plain {value : List Char}
    (plain : ∀ character ∈ value, isWhitespace character = false ∧ character ≠ '=' ∧
      character ≠ '#') : IsValue value where
  noComment member := (plain '#' member).2.2 rfl
  first character isHead :=
    have isPlain := plain character (List.mem_of_mem_head? isHead)
    ⟨isPlain.1, isPlain.2.1⟩
  last character isLast := (plain character (List.mem_of_getLast? isLast)).1

def webConfig : Config where
  leading := [(userKey, "root".toList)]
  sections := [.host ["web".toList] [(hostNameKey, "%h.net".toList)]]

def webContents : List Char := "User=root\n# hosts\n Host web\n\tHostName = %h.net # x\n".toList

def userLine : LineParts userKey "root".toList where
  indentation := []
  spelled := "User".toList
  separator := "=".toList
  trailing := []
  comment := []
  isValue := isValue_of_plain (List.all_iff_forall_prop.mp (by decide))
  indentation_blank := List.all_iff_forall_prop.mp (by decide)
  spelled_ne := by decide
  spelled_word := List.all_iff_forall_prop.mp (by decide)
  spelled_lower := by decide
  separator_ne := by decide
  separator_mem := List.all_iff_forall_prop.mp (by decide)
  shown := by decide
  trailing_blank := List.all_iff_forall_prop.mp (by decide)
  isComment := .inl rfl

def hostLine : LineParts "host".toList "web".toList where
  indentation := [ ' ']
  spelled := "Host".toList
  separator := " ".toList
  trailing := []
  comment := []
  isValue := isValue_of_plain (List.all_iff_forall_prop.mp (by decide))
  indentation_blank := List.all_iff_forall_prop.mp (by decide)
  spelled_ne := by decide
  spelled_word := List.all_iff_forall_prop.mp (by decide)
  spelled_lower := by decide
  separator_ne := by decide
  separator_mem := List.all_iff_forall_prop.mp (by decide)
  shown := by decide
  trailing_blank := List.all_iff_forall_prop.mp (by decide)
  isComment := .inl rfl

def hostNameLine : LineParts hostNameKey "%h.net".toList where
  indentation := [ '\t']
  spelled := "HostName".toList
  separator := " = ".toList
  trailing := [ ' ']
  comment := "# x".toList
  isValue := isValue_of_plain (List.all_iff_forall_prop.mp (by decide))
  indentation_blank := List.all_iff_forall_prop.mp (by decide)
  spelled_ne := by decide
  spelled_word := List.all_iff_forall_prop.mp (by decide)
  spelled_lower := by decide
  separator_ne := by decide
  separator_mem := List.all_iff_forall_prop.mp (by decide)
  shown := by decide
  trailing_blank := List.all_iff_forall_prop.mp (by decide)
  isComment := .inr (by decide)

theorem renders_web : webConfig.Renders webContents := by
  refine ⟨[userLine.text, "# hosts".toList, hostLine.text, hostNameLine.text], ?_, by decide,
    .inl (by decide)⟩
  have isColumn : ListLines.IsColumn "web".toList := by
    constructor
    · decide
    · exact List.all_iff_forall_prop.mp (by decide)
  have isBlank : IsBlankLine "# hosts".toList := ⟨[], "# hosts".toList, rfl, by simp, .inr (by decide)⟩
  exact .tells (.directive (by decide) (by decide) userLine)
    (.blank isBlank (.tells (.host (.last isColumn) hostLine)
      (.tells (.directive (by decide) (by decide) hostNameLine) .done)))

theorem parse_renders_web :
    List.Forall₂ (webConfig.IsHost id none) webConfig.aliases (parse id webContents none) :=
  parse_renders renders_web (fun _ noStar => noStar) none

end Reading

end SshConfig

end Porthmos
