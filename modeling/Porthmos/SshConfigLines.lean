import Mathlib.Data.List.ModifyLast
import Porthmos.SshConfig

/-!
# Lines of an SSH configuration

A configuration is written in many ways: keywords in any letter case, blanks or equals signs before
the values, indentation, comments and blank lines.  All of them are read as the same blocks.
-/

namespace Porthmos

namespace SshConfig

open TextFields OutputLines ListLines
open StateFiles (isWhitespace)

/-! ### Texts -/

/-- Words with white space between them. -/
inductive IsWords : List (List Char) → List Char → Prop
  | last {word : List Char} (isColumn : IsColumn word) : IsWords [word] word
  | more {word gap text : List Char} {words : List (List Char)} (isColumn : IsColumn word)
      (gap_ne : gap ≠ []) (gap_blank : ∀ character ∈ gap, isWhitespace character = true)
      (rest : IsWords words text) : IsWords (word :: words) (word ++ (gap ++ text))

/-- A comment is nothing, or all behind its mark. -/
def IsComment (comment : List Char) : Prop := comment = [] ∨ comment.head? = some '#'

/-- A value has nothing around it that is cut off. -/
structure IsValue (value : List Char) : Prop where
  noComment : '#' ∉ value
  first : ∀ character, value.head? = some character →
    isWhitespace character = false ∧ character ≠ '='
  last : ∀ character, value.getLast? = some character → isWhitespace character = false

/-- The parts of a line with a keyword and a value. -/
structure LineParts (keyword value : List Char) where
  indentation : List Char
  spelled : List Char
  separator : List Char
  trailing : List Char
  comment : List Char
  isValue : IsValue value
  indentation_blank : ∀ character ∈ indentation, isWhitespace character = true
  spelled_ne : spelled ≠ []
  spelled_word : ∀ character ∈ spelled,
    isWhitespace character = false ∧ character ≠ '=' ∧ character ≠ '#'
  spelled_lower : spelled.map Char.toLower = keyword
  separator_ne : separator ≠ []
  separator_mem : ∀ character ∈ separator, isSeparator character = true
  /-- An empty value is told by an equals sign. -/
  shown : value = [] → '=' ∈ separator
  trailing_blank : ∀ character ∈ trailing, isWhitespace character = true
  isComment : IsComment comment

namespace LineParts

variable {keyword value : List Char}

def body (parts : LineParts keyword value) : List Char :=
  parts.spelled ++ (parts.separator ++ value)

def text (parts : LineParts keyword value) : List Char :=
  parts.indentation ++ (parts.body ++ parts.trailing) ++ parts.comment

end LineParts

/-- A line that says nothing. -/
def IsBlankLine (line : List Char) : Prop :=
  ∃ blank comment, line = blank ++ comment ∧
    (∀ character ∈ blank, isWhitespace character = true) ∧ IsComment comment

/-! ### Lines -/

theorem stripComment_append {body comment : List Char} (noComment : '#' ∉ body)
    (isComment : IsComment comment) : stripComment (body ++ comment) = body := by
  rw [stripComment, List.takeWhile_append_of_pos]
  · have noMore : comment.takeWhile (· ≠ '#') = [] := by
      rcases isComment with rfl | isMark
      · rfl
      · cases comment with
        | nil => rfl
        | cons first rest =>
          rw [List.head?_cons, Option.some_inj] at isMark
          rw [isMark]
          rfl
    rw [noMore, List.append_nil]
  · intro character member
    rw [decide_eq_true_eq]
    rintro rfl
    exact noComment member

theorem isWhitespace_hash : isWhitespace '#' = false := by
  decide

theorem not_mem_of_blank {text : List Char} {character : Char}
    (blank : ∀ character ∈ text, isWhitespace character = true)
    (solid : isWhitespace character = false) : character ∉ text := by
  intro member
  rw [blank character member] at solid
  cases solid

theorem trim_blank {text : List Char} (blank : ∀ character ∈ text, isWhitespace character = true) :
    trimMatches isWhitespace text = [] := by
  rw [trimMatches, List.dropWhile_eq_nil_iff.mpr blank]
  rfl

theorem takeLine_blank (blocks : List Block) {line : List Char} (isBlank : IsBlankLine line) :
    takeLine blocks line = blocks := by
  obtain ⟨blank, comment, rfl, allBlank, isComment⟩ := isBlank
  have noComment : '#' ∉ blank := not_mem_of_blank allBlank isWhitespace_hash
  rw [takeLine]
  simp only [stripComment_append noComment isComment, trim_blank allBlank, if_true]

/-- What a line says does not depend on how it ends. -/
theorem takeLine_returning (blocks : List Block) (line : List Char) :
    takeLine blocks (line ++ ['\r']) = takeLine blocks line := by
  have sameTrim : trimMatches isWhitespace (stripComment (line ++ ['\r'])) =
      trimMatches isWhitespace (stripComment line) := by
    by_cases isComment : '#' ∈ line
    · have sameText : stripComment (line ++ ['\r']) = stripComment line := by
        rw [stripComment, List.takeWhile_append]
        have short : (line.takeWhile (· ≠ '#')).length ≠ line.length := by
          intro same
          have whole := (List.takeWhile_prefix (· ≠ '#')).eq_of_length same
          rw [List.takeWhile_eq_self_iff] at whole
          exact absurd (whole '#' isComment) (by decide)
        rw [if_neg short]
        rfl
      rw [sameText]
    · have whole : stripComment line = line := by
        simpa using stripComment_append isComment (.inl rfl : IsComment [])
      have wholeToo : stripComment (line ++ ['\r']) = line ++ ['\r'] := by
        have noComment : '#' ∉ line ++ ['\r'] := by simpa using isComment
        simpa using stripComment_append noComment (.inl rfl : IsComment [])
      rw [whole, wholeToo]
      exact @trimMatches_append isWhitespace [] ['\r'] line (by simp)
        (List.forall_mem_singleton.mpr (by decide))
  rw [takeLine, takeLine, sameTrim]

theorem takeLine_chomp (blocks : List Block) (line : List Char) :
    takeLine blocks (chomp line) = takeLine blocks line := by
  unfold chomp
  split_ifs with returns
  · have isLine : line = line.dropLast ++ ['\r'] :=
      (List.dropLast_append_getLast? '\r' returns).symm
    conv_rhs => rw [isLine]
    rw [takeLine_returning]
  · rfl

/-! ### Keywords and values -/

theorem isWhitespace_of_isSeparator {character : Char} (separates : isSeparator character = true) :
    isWhitespace character = true ∨ character = '=' := by
  simp only [isSeparator, decide_eq_true_eq] at separates
  rcases separates with rfl | rfl | rfl
  · exact .inl (by decide)
  · exact .inl (by decide)
  · exact .inr rfl

theorem not_isSeparator {character : Char} (solid : isWhitespace character = false)
    (notEquals : character ≠ '=') : isSeparator character = false := by
  by_contra separates
  rw [Bool.not_eq_false] at separates
  rcases isWhitespace_of_isSeparator separates with blank | equals
  · rw [blank] at solid
    cases solid
  · exact notEquals equals

theorem exists_shortened {separator : List Char} (equals : '=' ∈ separator) :
    ∃ shortened dropped, separator = shortened ++ dropped ∧ shortened ≠ [] ∧
      (∀ character ∈ dropped, isWhitespace character = true) ∧
      ∀ character, shortened.getLast? = some character → isWhitespace character = false := by
  have shortened_ne : separator.rdropWhile isWhitespace ≠ [] := by
    intro allBlank
    have blank := List.rdropWhile_eq_nil_iff.mp allBlank '=' equals
    exact absurd blank (by decide)
  refine ⟨separator.rdropWhile isWhitespace, separator.rtakeWhile isWhitespace,
    List.rdropWhile_append_rtakeWhile.symm, shortened_ne, ?_, ?_⟩
  · intro character member
    exact List.mem_rtakeWhile_imp member
  · intro character isLast
    have solid := List.rdropWhile_last_not isWhitespace separator shortened_ne
    rw [List.getLast?_eq_some_getLast shortened_ne, Option.some_inj] at isLast
    rw [isLast] at solid
    exact Bool.eq_false_iff.mpr solid

namespace LineParts

variable {keyword value : List Char}

/-- The line without its comment and what is blank around it. -/
theorem exists_trimmed (parts : LineParts keyword value) : ∃ shortened,
    trimMatches isWhitespace (stripComment parts.text) = parts.spelled ++ (shortened ++ value) ∧
      shortened ≠ [] ∧ (∀ character ∈ shortened, isSeparator character = true) ∧
      ∀ character, (shortened ++ value).getLast? = some character →
        isWhitespace character = false := by
  have noComment : '#' ∉ parts.indentation ++ (parts.body ++ parts.trailing) := by
    simp only [body, List.mem_append, not_or]
    refine ⟨not_mem_of_blank parts.indentation_blank isWhitespace_hash, ⟨?_, ?_, ?_⟩,
      not_mem_of_blank parts.trailing_blank isWhitespace_hash⟩
    · intro member
      exact (parts.spelled_word '#' member).2.2 rfl
    · intro member
      exact absurd (parts.separator_mem '#' member) (by decide)
    · exact parts.isValue.noComment
  obtain ⟨first, others, isSpelled⟩ := List.exists_cons_of_ne_nil parts.spelled_ne
  have firstSolid : isWhitespace first = false :=
    (parts.spelled_word first (isSpelled ▸ List.mem_cons_self)).1
  rw [text, stripComment_append noComment parts.isComment,
    trimMatches_append _ parts.indentation_blank parts.trailing_blank, body]
  -- The text begins with the keyword, and ends with the value or an equals sign.
  have solid {shortened : List Char} (last : ∀ character,
      (shortened ++ value).getLast? = some character → isWhitespace character = false)
      (notEmpty : shortened ≠ []) :
      trimMatches isWhitespace (parts.spelled ++ (shortened ++ value)) =
        parts.spelled ++ (shortened ++ value) := by
    apply trimMatches_eq_self
    · intro character isHead
      rw [isSpelled, List.cons_append, List.head?_cons, Option.some_inj] at isHead
      rwa [← isHead]
    · intro character isLast
      apply last
      rwa [List.getLast?_append_of_ne_nil _ (by simp [notEmpty])] at isLast
  by_cases noValue : value = []
  · subst noValue
    obtain ⟨shortened, dropped, isSeparator, notEmpty, blank, last⟩ :=
      exists_shortened (parts.shown rfl)
    rw [← List.append_nil shortened] at last
    refine ⟨shortened, ?_, notEmpty, ?_, last⟩
    · rw [isSeparator, List.append_nil, ← List.append_assoc]
      have dropsBehind := @trimMatches_append isWhitespace [] dropped (parts.spelled ++ shortened)
        (by simp) blank
      rw [List.nil_append] at dropsBehind
      have whole := solid last notEmpty
      rw [List.append_nil] at whole
      rw [dropsBehind, whole, List.append_nil]
    · intro character member
      apply parts.separator_mem
      rw [isSeparator]
      exact List.mem_append_left _ member
  · have last : ∀ character, (parts.separator ++ value).getLast? = some character →
        isWhitespace character = false := by
      rw [List.getLast?_append_of_ne_nil _ noValue]
      exact parts.isValue.last
    exact ⟨parts.separator, solid last parts.separator_ne, parts.separator_ne,
      parts.separator_mem, last⟩

/-- A line is read as its keyword and its value. -/
theorem splitDirective_trimmed (parts : LineParts keyword value) :
    splitDirective (trimMatches isWhitespace (stripComment parts.text)) =
      some (parts.spelled, value) := by
  obtain ⟨shortened, trimmed, notEmpty, separates, last⟩ := parts.exists_trimmed
  obtain ⟨first, others, isSpelled⟩ := List.exists_cons_of_ne_nil parts.spelled_ne
  have firstSolid : isWhitespace first = false :=
    (parts.spelled_word first (isSpelled ▸ List.mem_cons_self)).1
  have sameAgain : trimMatches isWhitespace (parts.spelled ++ (shortened ++ value)) =
      parts.spelled ++ (shortened ++ value) := by
    apply trimMatches_eq_self
    · intro character isHead
      rw [isSpelled, List.cons_append, List.head?_cons, Option.some_inj] at isHead
      rwa [← isHead]
    · intro character isLast
      apply last
      rwa [List.getLast?_append_of_ne_nil _ (by simp [notEmpty])] at isLast
  have word : ∀ character ∈ parts.spelled, (!isSeparator character) = true := by
    intro character member
    have isWord := parts.spelled_word character member
    rw [not_isSeparator isWord.1 isWord.2.1]
    rfl
  obtain ⟨mark, marks, isShortened⟩ := List.exists_cons_of_ne_nil notEmpty
  have isMark : isSeparator mark = true := separates mark (isShortened ▸ List.mem_cons_self)
  have noWord : (shortened ++ value).dropWhile (fun character => !isSeparator character) =
      shortened ++ value := by
    rw [isShortened, List.cons_append, List.dropWhile_cons_of_neg (by simp [isMark])]
  have noWordTaken : (shortened ++ value).takeWhile (fun character => !isSeparator character) =
      [] := by
    rw [isShortened, List.cons_append, List.takeWhile_cons_of_neg (by simp [isMark])]
  have isRest : (shortened ++ value).dropWhile isSeparator = value := by
    rw [List.dropWhile_append_of_pos separates, List.dropWhile_eq_self_iff]
    intro hasFirst
    have isFirst : value.head? = some value[0] := by
      rw [List.head?_eq_getElem?, List.getElem?_eq_getElem]
    have solid := parts.isValue.first _ isFirst
    rw [not_isSeparator solid.1 solid.2]
    exact Bool.false_ne_true
  have isValue : trimMatches isWhitespace value = value :=
    trimMatches_eq_self (fun character isHead => (parts.isValue.first character isHead).1)
      parts.isValue.last
  rw [splitDirective, trimmed, sameAgain]
  simp only [List.dropWhile_append_of_pos word, List.takeWhile_append_of_pos word, noWord,
    noWordTaken, isRest, isValue, List.append_nil]
  rw [if_neg (by simp [notEmpty])]

theorem takeLine_text (blocks : List Block) (parts : LineParts keyword value) :
    takeLine blocks parts.text = takeDirective blocks keyword value := by
  have notEmpty : trimMatches isWhitespace (stripComment parts.text) ≠ [] := by
    obtain ⟨shortened, trimmed, -⟩ := parts.exists_trimmed
    simp [trimmed, parts.spelled_ne]
  rw [takeLine]
  simp only [if_neg notEmpty, parts.splitDirective_trimmed, parts.spelled_lower]

end LineParts

/-! ### Blocks -/

/-- What a line of a configuration says. -/
inductive Statement
  | host (patterns : List (List Char))
  | matching (criteria : List Char)
  | directive (directive : Directive)

namespace Statement

/-- The lines that say a statement. -/
inductive Writes : Statement → List Char → Prop
  | host {patterns : List (List Char)} {value : List Char} (areWords : IsWords patterns value)
      (parts : LineParts "host".toList value) : Writes (.host patterns) parts.text
  | matching {criteria : List Char} (parts : LineParts "match".toList criteria) :
      Writes (.matching criteria) parts.text
  | directive {keyword value : List Char} (notHost : keyword ≠ "host".toList)
      (notMatch : keyword ≠ "match".toList) (parts : LineParts keyword value) :
      Writes (.directive (keyword, value)) parts.text

def take (blocks : List Block) : Statement → List Block
  | host patterns => blocks ++ [⟨.toHosts patterns, []⟩]
  | matching _ => blocks ++ [⟨.nowhere, []⟩]
  | directive told => addDirective blocks told

end Statement

/-- Lines that say statements, with lines between them that say nothing. -/
inductive WritesLines : List Statement → List (List Char) → Prop
  | done : WritesLines [] []
  | blank {statements : List Statement} {line : List Char} {lines : List (List Char)}
      (isBlank : IsBlankLine line) (rest : WritesLines statements lines) :
      WritesLines statements (line :: lines)
  | tells {statement : Statement} {statements : List Statement} {line : List Char}
      {lines : List (List Char)} (writes : statement.Writes line)
      (rest : WritesLines statements lines) : WritesLines (statement :: statements) (line :: lines)

theorem splitWhitespace_gap {gap : List Char} (rest : List Char)
    (blank : ∀ character ∈ gap, isWhitespace character = true) :
    splitWhitespace (gap ++ rest) = splitWhitespace rest := by
  induction gap with
  | nil => rfl
  | cons first gap ih =>
    rw [List.cons_append, splitWhitespace_blank (blank first List.mem_cons_self),
      ih fun character member => blank character (List.mem_cons_of_mem _ member)]

theorem splitWhitespace_words {words : List (List Char)} {text : List Char}
    (areWords : IsWords words text) : splitWhitespace text = words := by
  induction areWords with
  | last isColumn =>
    rw [splitWhitespace, List.splitOnP_eq_singleton isColumn.2]
    simp [isColumn.1]
  | @more word gap text words isColumn gap_ne gap_blank rest ih =>
    obtain ⟨first, others, rfl⟩ := List.exists_cons_of_ne_nil gap_ne
    have firstBlank := gap_blank first List.mem_cons_self
    have split : splitWhitespace (word ++ first :: (others ++ text)) =
        word :: splitWhitespace (others ++ text) := by
      rw [splitWhitespace, List.splitOnP_append_cons_of_forall_mem isColumn.2 _ firstBlank]
      simp [splitWhitespace, isColumn.1]
    rw [List.cons_append, split, splitWhitespace_gap, ih]
    intro character member
    exact gap_blank character (List.mem_cons_of_mem _ member)

theorem takeLine_writes (blocks : List Block) {statement : Statement} {line : List Char}
    (writes : statement.Writes line) : takeLine blocks line = statement.take blocks := by
  cases writes with
  | host areWords parts =>
    rw [parts.takeLine_text, takeDirective, if_pos rfl, splitWhitespace_words areWords]
    rfl
  | matching parts =>
    rw [parts.takeLine_text, takeDirective, if_neg (by decide), if_pos rfl]
    rfl
  | directive notHost notMatch parts =>
    rw [parts.takeLine_text, takeDirective, if_neg notHost, if_neg notMatch]
    rfl

theorem foldl_takeLine {statements : List Statement} {lines : List (List Char)}
    (writes : WritesLines statements lines) (blocks : List Block) :
    lines.foldl takeLine blocks = statements.foldl Statement.take blocks := by
  induction writes generalizing blocks with
  | done => rfl
  | blank isBlank rest ih => rw [List.foldl_cons, takeLine_blank blocks isBlank, ih]
  | tells writes rest ih => rw [List.foldl_cons, takeLine_writes blocks writes, ih, List.foldl_cons]

/-! ### Configurations -/

/-- A block of a configuration with its directives. -/
inductive Section
  | host (patterns : List (List Char)) (directives : List Directive)
  | matching (criteria : List Char) (directives : List Directive)

namespace Section

def directives : Section → List Directive
  | host _ directives => directives
  | matching _ directives => directives

def statements : Section → List Statement
  | host patterns directives => .host patterns :: directives.map .directive
  | matching criteria directives => .matching criteria :: directives.map .directive

def block : Section → Block
  | host patterns directives => ⟨.toHosts patterns, directives⟩
  | matching _ directives => ⟨.nowhere, directives⟩

end Section

/-- A configuration: the directives before the first block, and the blocks. -/
structure Config where
  leading : List Directive
  sections : List Section

namespace Config

def statements (config : Config) : List Statement :=
  config.leading.map .directive ++ config.sections.flatMap Section.statements

def blocks (config : Config) : List Block :=
  ⟨.everywhere, config.leading⟩ :: config.sections.map Section.block

/-- The texts that say a configuration; the last line may have no end. -/
def Renders (config : Config) (contents : List Char) : Prop :=
  ∃ lines, WritesLines config.statements lines ∧ (∀ line ∈ lines, '\n' ∉ line) ∧
    (contents = lines.flatMap (fun line => line ++ ['\n']) ∨
      contents ++ ['\n'] = lines.flatMap fun line => line ++ ['\n'])

end Config

theorem foldl_takeLine_chomp (lines : List (List Char)) (blocks : List Block) :
    (lines.map chomp).foldl takeLine blocks = lines.foldl takeLine blocks := by
  rw [List.foldl_map]
  congr 1
  funext blocks line
  exact takeLine_chomp blocks line

theorem foldl_takeLine_ended (text line : List Char) (blocks : List Block) :
    (linesFrom line (text ++ ['\n'])).foldl takeLine blocks =
      (linesFrom line text).foldl takeLine blocks := by
  induction text generalizing line blocks with
  | nil =>
    have noLine : takeLine blocks [] = blocks :=
      takeLine_blank blocks ⟨[], [], rfl, by simp, .inl rfl⟩
    by_cases isEmpty : line = []
    · rw [isEmpty]
      exact noLine
    · simp [linesFrom, isEmpty, takeLine_chomp]
  | cons character text ih =>
    rw [List.cons_append, linesFrom, linesFrom]
    split_ifs
    · rw [List.foldl_cons, List.foldl_cons, ih]
    · exact ih _ _

theorem addDirective_append (blocks : List Block) (block : Block) (directive : Directive) :
    addDirective (blocks ++ [block]) directive =
      blocks ++ [⟨block.applies, block.directives ++ [directive]⟩] := by
  rw [addDirective, List.modifyLast_concat]

theorem foldl_directives (directives : List Directive) (blocks : List Block) (applies : Applies)
    (before : List Directive) :
    (directives.map Statement.directive).foldl Statement.take (blocks ++ [⟨applies, before⟩]) =
      blocks ++ [⟨applies, before ++ directives⟩] := by
  induction directives generalizing before with
  | nil => rw [List.append_nil]; rfl
  | cons directive directives ih =>
    rw [List.map_cons, List.foldl_cons, Statement.take, addDirective_append, ih,
      List.append_assoc, List.singleton_append]

theorem foldl_section (part : Section) (blocks : List Block) :
    part.statements.foldl Statement.take blocks = blocks ++ [part.block] := by
  cases part with
  | host patterns directives => exact foldl_directives directives blocks (.toHosts patterns) []
  | matching criteria directives => exact foldl_directives directives blocks .nowhere []

theorem foldl_sections (parts : List Section) (blocks : List Block) :
    (parts.flatMap Section.statements).foldl Statement.take blocks =
      blocks ++ parts.map Section.block := by
  induction parts generalizing blocks with
  | nil => rw [List.map_nil, List.append_nil]; rfl
  | cons part parts ih =>
    rw [List.flatMap_cons, List.foldl_append, foldl_section, ih, List.append_assoc,
      List.singleton_append, List.map_cons]

theorem splitIntoBlocks_renders {config : Config} {contents : List Char}
    (renders : config.Renders contents) : splitIntoBlocks contents = config.blocks := by
  obtain ⟨lines, writes, noBreak, isContents⟩ := renders
  have reads : (linesFrom [] (lines.flatMap fun line => line ++ ['\n'])).foldl takeLine
      [⟨.everywhere, []⟩] = config.blocks := by
    rw [linesFrom_flatMap noBreak, foldl_takeLine_chomp, foldl_takeLine writes, Config.statements,
      List.foldl_append]
    have leading := foldl_directives config.leading [] .everywhere []
    rw [List.nil_append, List.nil_append] at leading
    rw [leading, foldl_sections, Config.blocks, List.singleton_append, List.nil_append]
  rcases isContents with rfl | ended
  · exact reads
  · rw [splitIntoBlocks, ← foldl_takeLine_ended, ended, reads]

end SshConfig

end Porthmos
