import Porthmos.Shell
import Porthmos.StateFiles

/-!
# Splitting the command of an editor

The command that is set for an editor is split into words with the quotes and backslashes of a
shell.  Words that were quoted for a shell come back as they were, and what is refused is described
by a grammar of the texts in which nothing is left open.
-/

namespace Porthmos.EditorCommand

open StateFiles (isWhitespace)

/-! ### The splitting -/

/-- The variables of `split_command` before a character. -/
structure SplitState where
  words : List String
  current : String
  inWord : Bool
  quote : Option Char
  deriving DecidableEq, Repr

def endsWithBackslash : String := "the command ends with a backslash"

def unterminatedQuote : String := "the command has an unterminated quote"

namespace SplitState

def start : SplitState := ⟨[], "", false, none⟩

def push (state : SplitState) (character : Char) : SplitState :=
  { state with current := state.current.push character }

/-- A character that belongs to a word, outside of quotes. -/
def pushInWord (state : SplitState) (character : Char) : SplitState :=
  { state with current := state.current.push character, inWord := true }

/-- A quote begins, and with it a word that may stay empty. -/
def openQuote (state : SplitState) (character : Char) : SplitState :=
  { state with quote := some character, inWord := true }

def closeQuote (state : SplitState) : SplitState := { state with quote := none }

/-- A word ends at a blank. -/
def endWord (state : SplitState) : SplitState :=
  if state.inWord then
    { state with words := state.words ++ [state.current], current := "", inWord := false }
  else state

/-- What a backslash in double quotes makes of the next character. -/
def pushEscaped (state : SplitState) (next : Char) : SplitState :=
  if next = '"' ∨ next = '\\' then state.push next else (state.push '\\').push next

end SplitState

/-- The loop of `split_command`. -/
def splitLoop (state : SplitState) : List Char → Except String SplitState
  | [] => .ok state
  | character :: rest =>
    match state.quote with
    | some opened =>
      if character = opened then splitLoop state.closeQuote rest
      else if opened = '"' ∧ character = '\\' then
        match rest with
        | [] => .error endsWithBackslash
        | next :: rest => splitLoop (state.pushEscaped next) rest
      else splitLoop (state.push character) rest
    | none =>
      if character = '\'' ∨ character = '"' then splitLoop (state.openQuote character) rest
      else if character = '\\' then
        match rest with
        | [] => .error endsWithBackslash
        | next :: rest => splitLoop (state.pushInWord next) rest
      else if isWhitespace character then splitLoop state.endWord rest
      else splitLoop (state.pushInWord character) rest

/-- The end of `split_command`. -/
def finishSplit (state : SplitState) : Except String (List String) :=
  if state.quote.isSome then .error unterminatedQuote else .ok state.endWord.words

/-- `split_command` -/
def splitCommand (text : String) : Except String (List String) :=
  (splitLoop .start text.toList).bind finishSplit

example : splitCommand "ed 'a b' \"c\\\"d\\e\" '' f\\ g" =
    .ok ["ed", "a b", "c\"d\\e", "", "f g"] := by
  decide +kernel

/-! ### One character -/

section Steps

variable {state : SplitState} {character opened next : Char} {rest : List Char}

theorem splitLoop_inside (quoted : state.quote = some opened) :
    splitLoop state (character :: rest) =
      if character = opened then splitLoop state.closeQuote rest
      else if opened = '"' ∧ character = '\\' then
        match rest with
        | [] => .error endsWithBackslash
        | next :: rest => splitLoop (state.pushEscaped next) rest
      else splitLoop (state.push character) rest := by
  rw [splitLoop.eq_def]
  simp only [quoted]

theorem splitLoop_outside (plain : state.quote = none) :
    splitLoop state (character :: rest) =
      if character = '\'' ∨ character = '"' then splitLoop (state.openQuote character) rest
      else if character = '\\' then
        match rest with
        | [] => .error endsWithBackslash
        | next :: rest => splitLoop (state.pushInWord next) rest
      else if isWhitespace character then splitLoop state.endWord rest
      else splitLoop (state.pushInWord character) rest := by
  rw [splitLoop.eq_def]
  simp only [plain]

theorem splitLoop_close (quoted : state.quote = some character) :
    splitLoop state (character :: rest) = splitLoop state.closeQuote rest := by
  rw [splitLoop_inside quoted, if_pos rfl]

theorem splitLoop_quoted (quoted : state.quote = some opened) (inside : character ≠ opened)
    (ordinary : ¬(opened = '"' ∧ character = '\\')) :
    splitLoop state (character :: rest) = splitLoop (state.push character) rest := by
  rw [splitLoop_inside quoted, if_neg inside, if_neg ordinary]

theorem splitLoop_quotedEscape (quoted : state.quote = some '"') :
    splitLoop state ('\\' :: next :: rest) = splitLoop (state.pushEscaped next) rest := by
  have inside : ¬ '\\' = '"' := by decide
  rw [splitLoop_inside quoted, if_neg inside, if_pos ⟨rfl, rfl⟩]

theorem splitLoop_quotedEnd (quoted : state.quote = some '"') :
    splitLoop state ['\\'] = .error endsWithBackslash := by
  have inside : ¬ '\\' = '"' := by decide
  rw [splitLoop_inside quoted, if_neg inside, if_pos ⟨rfl, rfl⟩]

theorem splitLoop_open (plain : state.quote = none) (isQuote : character = '\'' ∨ character = '"') :
    splitLoop state (character :: rest) = splitLoop (state.openQuote character) rest := by
  rw [splitLoop_outside plain, if_pos isQuote]

theorem splitLoop_escape (plain : state.quote = none) :
    splitLoop state ('\\' :: next :: rest) = splitLoop (state.pushInWord next) rest := by
  have notQuote : ¬('\\' = '\'' ∨ '\\' = '"') := by decide
  rw [splitLoop_outside plain, if_neg notQuote, if_pos rfl]

theorem splitLoop_escapeEnd (plain : state.quote = none) :
    splitLoop state ['\\'] = .error endsWithBackslash := by
  have notQuote : ¬('\\' = '\'' ∨ '\\' = '"') := by decide
  rw [splitLoop_outside plain, if_neg notQuote, if_pos rfl]

/-- A character that is no quote and no backslash. -/
def Ordinary (character : Char) : Prop :=
  ¬(character = '\'' ∨ character = '"') ∧ character ≠ '\\'

theorem ordinary_of_blank (blank : isWhitespace character = true) : Ordinary character := by
  refine ⟨?_, ?_⟩
  · rintro (rfl | rfl) <;> exact absurd blank (by decide)
  · rintro rfl
    exact absurd blank (by decide)

theorem splitLoop_ordinary (plain : state.quote = none) (ordinary : Ordinary character) :
    splitLoop state (character :: rest) =
      splitLoop (if isWhitespace character then state.endWord else state.pushInWord character)
        rest := by
  rw [splitLoop_outside plain, if_neg ordinary.1, if_neg ordinary.2]
  split_ifs <;> rfl

end Steps

/-! ### Words that were quoted -/

section Quoted

variable {state : SplitState} {rest : List Char}

theorem endWord_endWord (state : SplitState) : state.endWord.endWord = state.endWord := by
  by_cases inWord : state.inWord = true <;> simp [SplitState.endWord, inWord]

theorem quote_endWord (state : SplitState) : state.endWord.quote = state.quote := by
  unfold SplitState.endWord
  split_ifs <;> rfl

theorem splitLoop_blanks (plain : state.quote = none) {blanks : List Char}
    (blank : blanks.all isWhitespace = true) (notEmpty : blanks ≠ []) :
    splitLoop state (blanks ++ rest) = splitLoop state.endWord rest := by
  induction blanks generalizing state with
  | nil => exact absurd rfl notEmpty
  | cons character blanks ih =>
    rw [List.all_cons, Bool.and_eq_true] at blank
    rw [List.cons_append, splitLoop_ordinary plain (ordinary_of_blank blank.1), if_pos blank.1]
    by_cases last : blanks = []
    · rw [last, List.nil_append]
    · rw [ih (plain ▸ quote_endWord state) blank.2 last, endWord_endWord]

/-- Within single quotes a text goes on until they are closed for good. -/
theorem splitLoop_escaped (words : List String) (current text rest : List Char) :
    splitLoop ⟨words, String.ofList current, true, some '\''⟩ ((text.flatMap fun char =>
          if char = '\'' then ['\'', '\\', '\'', '\''] else [char]) ++ rest) =
      splitLoop ⟨words, String.ofList (current ++ text), true, some '\''⟩ rest := by
  induction text generalizing current with
  | nil => simp
  | cons char text ih =>
    have next := ih (current ++ [char])
    have pushed : (String.ofList current).push char = String.ofList (current ++ [char]) := by
      apply String.toList_inj.mp
      simp
    rw [List.append_assoc, List.singleton_append, ← pushed] at next
    rw [List.flatMap_cons, List.append_assoc]
    by_cases isQuote : char = '\''
    · subst isQuote
      rw [if_pos rfl]
      simp only [List.cons_append, List.nil_append]
      rw [splitLoop_close rfl, splitLoop_escape rfl, splitLoop_open rfl (.inl rfl)]
      exact next
    · rw [if_neg isQuote, List.singleton_append, splitLoop_quoted rfl isQuote (by simp)]
      exact next

theorem splitLoop_quote (words : List String) (word : String) :
    splitLoop ⟨words, "", false, none⟩ ((Shell.quote word).toList ++ rest) =
      splitLoop ⟨words, word, true, none⟩ rest := by
  unfold Shell.quote
  dsimp only
  rw [String.toList_ofList, List.cons_append, List.cons_append, splitLoop_open rfl (.inl rfl),
    List.append_assoc, List.singleton_append]
  have inside := splitLoop_escaped words [] word.toList ('\'' :: rest)
  rw [List.nil_append, String.ofList_toList, splitLoop_close rfl] at inside
  exact inside

/-- Quoted words, each with the blanks after it. -/
def quotedWords (words : List (String × List Char)) : List Char :=
  words.flatMap fun word => (Shell.quote word.1).toList ++ word.2

theorem splitLoop_quotedWords (before : List String) {words : List (String × List Char)}
    (blank : ∀ word ∈ words, word.2.all isWhitespace = true)
    (apart : ∀ word ∈ words.dropLast, word.2 ≠ []) :
    (splitLoop ⟨before, "", false, none⟩ (quotedWords words)).bind finishSplit =
      .ok (before ++ words.map Prod.fst) := by
  induction words generalizing before with
  | nil => simp [quotedWords, splitLoop, finishSplit, SplitState.endWord, Except.bind]
  | cons word words ih =>
    obtain ⟨word, after⟩ := word
    have isBlank := blank _ List.mem_cons_self
    have ended : SplitState.endWord ⟨before, word, true, none⟩ =
        ⟨before ++ [word], "", false, none⟩ := rfl
    unfold quotedWords at ih ⊢
    rw [List.flatMap_cons, List.append_assoc, splitLoop_quote]
    by_cases last : words = []
    · subst last
      rw [List.flatMap_nil, List.append_nil]
      by_cases isEmpty : after = []
      · rw [isEmpty, splitLoop]
        rfl
      · rw [← List.append_nil after, splitLoop_blanks rfl isBlank isEmpty, ended, splitLoop]
        rfl
    · have notEmpty : after ≠ [] := by
        apply apart (word, after)
        rw [List.dropLast_cons_of_ne_nil last]
        exact List.mem_cons_self
      rw [splitLoop_blanks rfl isBlank notEmpty, ended,
        ih _ (fun other member => blank other (List.mem_cons_of_mem _ member))]
      · simp
      · intro other member
        apply apart other
        rw [List.dropLast_cons_of_ne_nil last]
        exact List.mem_cons_of_mem _ member

end Quoted

/-! ### Texts in which something is left open -/

/-- What may stand between double quotes: a backslash takes the next character with it. -/
inductive DoubleBody : List Char → Prop
  | nil : DoubleBody []
  | plain {character : Char} {body : List Char} (inside : character ≠ '"' ∧ character ≠ '\\')
      (rest : DoubleBody body) : DoubleBody (character :: body)
  | escaped (next : Char) {body : List Char} (rest : DoubleBody body) :
      DoubleBody ('\\' :: next :: body)

/-- A text in which every quote is closed and every backslash has a character after it. -/
inductive Closed : List Char → Prop
  | nil : Closed []
  | plain {character : Char} {text : List Char} (ordinary : Ordinary character)
      (rest : Closed text) : Closed (character :: text)
  | escaped (next : Char) {text : List Char} (rest : Closed text) : Closed ('\\' :: next :: text)
  | single {body text : List Char} (inside : '\'' ∉ body) (rest : Closed text) :
      Closed ('\'' :: (body ++ '\'' :: text))
  | double {body text : List Char} (inside : DoubleBody body) (rest : Closed text) :
      Closed ('"' :: (body ++ '"' :: text))

/-- A quote is opened after a closed text, and not closed. -/
inductive QuoteLeftOpen (text : List Char) : Prop
  | single {before body : List Char} (closed : Closed before) (inside : '\'' ∉ body)
      (isText : text = before ++ '\'' :: body)
  | double {before body : List Char} (closed : Closed before) (inside : DoubleBody body)
      (isText : text = before ++ '"' :: body)
  | escaping {before body : List Char} (closed : Closed before) (inside : DoubleBody body)
      (isText : text = before ++ '"' :: (body ++ ['\\']))

/-- The text ends in a backslash that nothing escapes, outside of single quotes. -/
inductive EndsEscaping (text : List Char) : Prop
  | plain {before : List Char} (closed : Closed before) (isText : text = before ++ ['\\'])
  | double {before body : List Char} (closed : Closed before) (inside : DoubleBody body)
      (isText : text = before ++ '"' :: (body ++ ['\\']))

section Refusals

variable {state : SplitState} {text body rest : List Char}

theorem splitLoop_single (rest : List Char) (quoted : state.quote = some '\'')
    (inside : '\'' ∉ body) :
    ∃ after : SplitState, after.quote = some '\'' ∧
      splitLoop state (body ++ rest) = splitLoop after rest := by
  induction body generalizing state with
  | nil => exact ⟨state, quoted, rfl⟩
  | cons character body ih =>
    rw [List.mem_cons, not_or] at inside
    rw [List.cons_append, splitLoop_quoted quoted (Ne.symm inside.1) (by simp)]
    exact ih quoted inside.2

theorem splitLoop_double (rest : List Char) (quoted : state.quote = some '"')
    (inside : DoubleBody body) :
    ∃ after : SplitState, after.quote = some '"' ∧
      splitLoop state (body ++ rest) = splitLoop after rest := by
  induction inside generalizing state with
  | nil => exact ⟨state, quoted, rfl⟩
  | plain inside _ ih =>
    rw [List.cons_append, splitLoop_quoted quoted inside.1 fun escapes => inside.2 escapes.2]
    exact ih quoted
  | escaped next _ ih =>
    rw [List.cons_append, List.cons_append, splitLoop_quotedEscape quoted]
    apply ih
    unfold SplitState.pushEscaped
    split_ifs <;> exact quoted

/-- After a closed text the splitting goes on outside of quotes. -/
theorem splitLoop_closed (rest : List Char) (plain : state.quote = none) (closed : Closed text) :
    ∃ after : SplitState, after.quote = none ∧
      splitLoop state (text ++ rest) = splitLoop after rest := by
  induction closed generalizing state with
  | nil => exact ⟨state, plain, rfl⟩
  | plain ordinary _ ih =>
    rw [List.cons_append, splitLoop_ordinary plain ordinary]
    apply ih
    split_ifs
    · rw [quote_endWord, plain]
    · exact plain
  | escaped next _ ih =>
    rw [List.cons_append, List.cons_append, splitLoop_escape plain]
    exact ih plain
  | single inside _ ih =>
    rw [List.cons_append, List.append_assoc, splitLoop_open plain (.inl rfl), List.cons_append]
    have opened : (state.openQuote '\'').quote = some '\'' := rfl
    obtain ⟨after, quoted, same⟩ := splitLoop_single _ opened inside
    rw [same, splitLoop_close quoted]
    exact ih rfl
  | double inside _ ih =>
    rw [List.cons_append, List.append_assoc, splitLoop_open plain (.inr rfl), List.cons_append]
    have opened : (state.openQuote '"').quote = some '"' := rfl
    obtain ⟨after, quoted, same⟩ := splitLoop_double _ opened inside
    rw [same, splitLoop_close quoted]
    exact ih rfl

/-- Between double quotes, a text ends, closes the quotes or ends in a backslash. -/
theorem doubleBody_cases (text : List Char) : DoubleBody text ∨
    (∃ body, DoubleBody body ∧ text = body ++ ['\\']) ∨
      ∃ body rest, DoubleBody body ∧ text = body ++ '"' :: rest := by
  induction isLength : text.length using Nat.strong_induction_on generalizing text with
  | _ length ih =>
    rcases text with - | ⟨character, text⟩
    · exact .inl .nil
    by_cases isQuote : character = '"'
    · exact .inr (.inr ⟨[], text, .nil, by rw [isQuote, List.nil_append]⟩)
    by_cases isBackslash : character = '\\'
    · subst isBackslash
      rcases text with - | ⟨next, text⟩
      · exact .inr (.inl ⟨[], .nil, rfl⟩)
      have shorter : text.length < length := by
        simp only [← isLength, List.length_cons]
        omega
      rcases ih text.length shorter text rfl with
        inside | ⟨body, inside, rfl⟩ | ⟨body, rest, inside, rfl⟩
      · exact .inl (.escaped next inside)
      · exact .inr (.inl ⟨_, .escaped next inside, rfl⟩)
      · exact .inr (.inr ⟨_, rest, .escaped next inside, rfl⟩)
    · have ordinary : character ≠ '"' ∧ character ≠ '\\' := ⟨isQuote, isBackslash⟩
      have shorter : text.length < length := by
        simp only [← isLength, List.length_cons]
        omega
      rcases ih text.length shorter text rfl with
        inside | ⟨body, inside, rfl⟩ | ⟨body, rest, inside, rfl⟩
      · exact .inl (.plain ordinary inside)
      · exact .inr (.inl ⟨_, .plain ordinary inside, rfl⟩)
      · exact .inr (.inr ⟨_, rest, .plain ordinary inside, rfl⟩)

theorem Closed.append {first second : List Char} (closed : Closed first) (rest : Closed second) :
    Closed (first ++ second) := by
  induction closed with
  | nil => exact rest
  | plain ordinary _ ih => exact .plain ordinary ih
  | escaped next _ ih => exact .escaped next ih
  | single inside _ ih =>
    rw [List.cons_append, List.append_assoc]
    exact .single inside ih
  | double inside _ ih =>
    rw [List.cons_append, List.append_assoc]
    exact .double inside ih

theorem Closed.cases_append {first : List Char} (closed : Closed first)
    (described : Closed text ∨ QuoteLeftOpen text ∨ EndsEscaping text) :
    Closed (first ++ text) ∨ QuoteLeftOpen (first ++ text) ∨ EndsEscaping (first ++ text) := by
  refine described.imp closed.append (Or.imp ?_ ?_)
  · rintro (⟨before, inside, rfl⟩ | ⟨before, inside, rfl⟩ | ⟨before, inside, rfl⟩)
    · exact .single (closed.append before) inside (List.append_assoc ..).symm
    · exact .double (closed.append before) inside (List.append_assoc ..).symm
    · exact .escaping (closed.append before) inside (List.append_assoc ..).symm
  · rintro (⟨before, rfl⟩ | ⟨before, inside, rfl⟩)
    · exact .plain (closed.append before) (List.append_assoc ..).symm
    · exact .double (closed.append before) inside (List.append_assoc ..).symm

theorem closed_cases (text : List Char) : Closed text ∨ QuoteLeftOpen text ∨ EndsEscaping text := by
  induction isLength : text.length using Nat.strong_induction_on generalizing text with
  | _ length ih =>
    rcases text with - | ⟨character, text⟩
    · exact .inl .nil
    rcases Classical.em (character = '\'') with rfl | notSingle
    · by_cases isClosed : '\'' ∈ text
      · obtain ⟨body, rest, rfl, inside⟩ := List.eq_append_cons_of_mem isClosed
        have shorter : rest.length < length := by
          simp only [← isLength, List.length_cons, List.length_append]
          omega
        have described := ih rest.length shorter rest rfl
        have extended := (Closed.single inside .nil).cases_append described
        simpa using extended
      · exact .inr (.inl (.single .nil isClosed rfl))
    rcases Classical.em (character = '"') with rfl | notDouble
    · rcases doubleBody_cases text with inside | ⟨body, inside, rfl⟩ | ⟨body, rest, inside, rfl⟩
      · exact .inr (.inl (.double .nil inside rfl))
      · exact .inr (.inl (.escaping .nil inside rfl))
      · have shorter : rest.length < length := by
          simp only [← isLength, List.length_cons, List.length_append]
          omega
        have described := ih rest.length shorter rest rfl
        have extended := (Closed.double inside .nil).cases_append described
        simpa using extended
    rcases Classical.em (character = '\\') with rfl | notBackslash
    · rcases text with - | ⟨next, text⟩
      · exact .inr (.inr (.plain .nil rfl))
      · have shorter : text.length < length := by
          simp only [← isLength, List.length_cons]
          omega
        have described := ih text.length shorter text rfl
        exact (Closed.escaped next .nil).cases_append described
    · have ordinary : Ordinary character := ⟨not_or.mpr ⟨notSingle, notDouble⟩, notBackslash⟩
      have shorter : text.length < length := by
        simp only [← isLength, List.length_cons]
        omega
      have described := ih text.length shorter text rfl
      exact (Closed.plain ordinary .nil).cases_append described

theorem splitCommand_append {text : String} {before : List Char} (closed : Closed before)
    (isText : text.toList = before ++ rest) : ∃ after : SplitState, after.quote = none ∧
      splitCommand text = (splitLoop after rest).bind finishSplit := by
  have plain : SplitState.start.quote = none := rfl
  obtain ⟨after, isPlain, same⟩ := splitLoop_closed _ plain closed
  exact ⟨after, isPlain, by rw [splitCommand, isText, same]⟩

theorem splitCommand_ok {text : String} (closed : Closed text.toList) :
    ∃ words, splitCommand text = .ok words := by
  obtain ⟨after, plain, same⟩ := splitCommand_append closed (List.append_nil _).symm
  rw [same, splitLoop]
  exact ⟨after.endWord.words, by simp [Except.bind, finishSplit, plain]⟩

theorem splitCommand_endsEscaping {text : String} (escaping : EndsEscaping text.toList) :
    ∃ message, splitCommand text = .error message := by
  cases escaping with
  | plain closed isText =>
    obtain ⟨after, plain, same⟩ := splitCommand_append closed isText
    rw [same, splitLoop_escapeEnd plain]
    exact ⟨_, rfl⟩
  | double closed inside isText =>
    obtain ⟨after, plain, same⟩ := splitCommand_append closed isText
    have opened : (after.openQuote '"').quote = some '"' := rfl
    obtain ⟨last, quoted, further⟩ := splitLoop_double _ opened inside
    rw [same, splitLoop_open plain (.inr rfl), further, splitLoop_quotedEnd quoted]
    exact ⟨_, rfl⟩

theorem splitCommand_leftOpen {text : String} (leftOpen : QuoteLeftOpen text.toList) :
    ∃ message, splitCommand text = .error message := by
  cases leftOpen with
  | single closed inside isText =>
    obtain ⟨after, plain, same⟩ := splitCommand_append closed isText
    have opened : (after.openQuote '\'').quote = some '\'' := rfl
    obtain ⟨last, quoted, further⟩ := splitLoop_single [] opened inside
    rw [List.append_nil] at further
    rw [same, splitLoop_open plain (.inl rfl), further, splitLoop]
    exact ⟨unterminatedQuote, by simp [Except.bind, finishSplit, quoted]⟩
  | double closed inside isText =>
    obtain ⟨after, plain, same⟩ := splitCommand_append closed isText
    have opened : (after.openQuote '"').quote = some '"' := rfl
    obtain ⟨last, quoted, further⟩ := splitLoop_double [] opened inside
    rw [List.append_nil] at further
    rw [same, splitLoop_open plain (.inr rfl), further, splitLoop]
    exact ⟨unterminatedQuote, by simp [Except.bind, finishSplit, quoted]⟩
  | escaping closed inside isText => exact splitCommand_endsEscaping (.double closed inside isText)

/-- A command is refused exactly if a quote is left open or the text ends in a backslash that
escapes nothing. -/
theorem splitCommand_fails_iff (text : String) : (∃ message, splitCommand text = .error message) ↔
    QuoteLeftOpen text.toList ∨ EndsEscaping text.toList := by
  constructor
  · rintro ⟨message, fails⟩
    apply (closed_cases text.toList).resolve_left
    intro closed
    obtain ⟨words, splits⟩ := splitCommand_ok closed
    rw [splits] at fails
    cases fails
  · rintro (leftOpen | escaping)
    · exact splitCommand_leftOpen leftOpen
    · exact splitCommand_endsEscaping escaping

end Refusals

/-- What was quoted word by word is split into these words, whatever blanks are between and around
them; and what is refused is what leaves something open. -/
theorem splitCommand_undoes_quote :
    (∀ (leading : List Char) (words : List (String × List Char)),
      leading.all isWhitespace = true → (∀ word ∈ words, word.2.all isWhitespace = true) →
      (∀ word ∈ words.dropLast, word.2 ≠ []) →
      splitCommand (String.ofList (leading ++ quotedWords words)) = .ok (words.map Prod.fst)) ∧
    ∀ text, (∃ message, splitCommand text = .error message) ↔
      QuoteLeftOpen text.toList ∨ EndsEscaping text.toList := by
  refine ⟨fun leading words blank areBlank apart => ?_, splitCommand_fails_iff⟩
  have split := splitLoop_quotedWords [] areBlank apart
  unfold splitCommand
  rw [String.toList_ofList]
  by_cases isEmpty : leading = []
  · rw [isEmpty]
    exact split
  · rw [splitLoop_blanks rfl blank isEmpty]
    exact split

theorem splitCommand_undoes_quote_three :
    splitCommand (String.ofList ([' '] ++
          quotedWords [("it's", ['\t']), ("", [' ', '\n']), ("\\", [])])) =
        .ok ["it's", "", "\\"] ∧
      ∃ message, splitCommand "a \"b" = .error message := by
  constructor
  · exact splitCommand_undoes_quote.1 [' '] [("it's", ['\t']), ("", [' ', '\n']), ("\\", [])]
      (by decide) (by decide) (by decide)
  · have closed : Closed ['a', ' '] :=
      .plain (by simp [Ordinary]) (.plain (by simp [Ordinary]) .nil)
    have inside : DoubleBody ['b'] := .plain (by decide) .nil
    exact (splitCommand_undoes_quote.2 "a \"b").mpr (.inl (.double closed inside (by decide)))

end Porthmos.EditorCommand
