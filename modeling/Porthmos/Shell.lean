import Mathlib.Tactic.FinCases

/-!
# Words of the shell

A shell reads a command one character at a time and cuts it into words and operators.
Quotes keep the characters between them from being read as anything else.  A word stands for
itself if nothing in it is left that the shell would expand.
-/

namespace Porthmos

namespace Shell

/-- A character of a word, and whether it is quoted. -/
structure Piece where
  char : Char
  quoted : Bool
  deriving DecidableEq, Repr

inductive Token
  | word (pieces : List Piece)
  | ioNumber (digits : List Piece)
  | operator (text : String)
  deriving DecidableEq, Repr

/-- What the next character belongs to. -/
inductive Mode
  | plain
  | escape
  | single
  | double
  | doubleEscape
  | operator (text : String)
  | comment
  deriving DecidableEq, Repr

/-- What was read so far.  A word is begun by its first character or quote, so that `''` is a
word. -/
structure Reader where
  tokens : List Token
  word : Option (List Piece)
  mode : Mode
  deriving DecidableEq, Repr

namespace Reader

def start : Reader := ⟨[], none, .plain⟩

def push (reader : Reader) (char : Char) (quoted : Bool) : Reader :=
  { reader with word := some (reader.word.getD [] ++ [⟨char, quoted⟩]) }

def goOn (reader : Reader) (mode : Mode) : Reader := { reader with mode }

/-- A quote begins a word. -/
def openQuote (reader : Reader) (mode : Mode) : Reader :=
  { reader with word := some (reader.word.getD []), mode }

/-- The word that was begun is complete. -/
def delimit (reader : Reader) : Reader :=
  { reader with tokens := reader.tokens ++ (reader.word.map Token.word).toList, word := none }

def emit (reader : Reader) (text : String) : Reader :=
  { reader with tokens := reader.tokens ++ [.operator text], mode := .plain }

/-- A word of digits right before a redirection is its number. -/
def delimitBefore (reader : Reader) (operator : Char) : Reader :=
  match reader.word with
  | some digits =>
    if (operator = '<' ∨ operator = '>') ∧ digits ≠ [] ∧
        digits.all fun piece => !piece.quoted && piece.char.isDigit then
      { reader with tokens := reader.tokens ++ [.ioNumber digits], word := none }
    else reader.delimit
  | none => reader

def operatorChars : List Char := ['&', '|', ';', '<', '>', '(', ')']

/-- The operators of more than one character. -/
def longOperators : List String := ["&&", "||", ";;", "<<", ">>", "<&", ">&", "<>", "<<-", ">|"]

/-- A character outside of quotes and operators. -/
def stepPlain (reader : Reader) (char : Char) : Reader :=
  if char = '\\' then reader.goOn .escape
  else if char = '\'' then reader.openQuote .single
  else if char = '"' then reader.openQuote .double
  else if char ∈ operatorChars then
    (reader.delimitBefore char).goOn (.operator (String.singleton char))
  else if char = '\n' then reader.delimit.emit "\n"
  else if char = ' ' ∨ char = '\t' then reader.delimit
  else if char = '#' ∧ reader.word = none then reader.goOn .comment
  else reader.push char false

def step (reader : Reader) (char : Char) : Reader :=
  match reader.mode with
  | .plain => reader.stepPlain char
  | .escape =>
    -- An escaped line break is no character at all.
    if char = '\n' then reader.goOn .plain else (reader.push char true).goOn .plain
  | .single => if char = '\'' then reader.goOn .plain else reader.push char true
  | .double =>
    if char = '"' then reader.goOn .plain
    else if char = '\\' then reader.goOn .doubleEscape
    else reader.push char (decide (char ≠ '$' ∧ char ≠ '\x60'))
  | .doubleEscape =>
    if char = '\n' then reader.goOn .double
    else if char ∈ ['$', '\x60', '"', '\\'] then (reader.push char true).goOn .double
    else ((reader.push '\\' true).push char true).goOn .double
  | .operator text =>
    if text.push char ∈ longOperators then reader.goOn (.operator (text.push char))
    else (reader.emit text).stepPlain char
  | .comment => if char = '\n' then reader.emit "\n" else reader

/-- The tokens at the end of the text, if no quote is open. -/
def finish (reader : Reader) : Option (List Token) :=
  match reader.mode with
  | .plain | .comment => some reader.delimit.tokens
  | .escape => some (reader.push '\\' true).delimit.tokens
  | .operator text => some (reader.emit text).tokens
  | .single | .double | .doubleEscape => none

def run (reader : Reader) (text : List Char) : Reader := text.foldl step reader

end Reader

def tokenize (text : String) : Option (List Token) := (Reader.start.run text.toList).finish

/-! ### Words that stand for themselves -/

/-- What the shell expands where it is not quoted. -/
def expandedChars : List Char := ['$', '\x60', '*', '?', '[', '~']

def Piece.isLiteral (piece : Piece) : Bool :=
  piece.quoted || decide (piece.char ∉ expandedChars)

inductive Item
  | word (text : String)
  | ioNumber (text : String)
  | operator (text : String)
  deriving DecidableEq, Repr

/-- What a token stands for, unless the shell expands it. -/
def Token.item : Token → Option Item
  | .word pieces =>
    if pieces.all Piece.isLiteral then some (.word (String.ofList (pieces.map Piece.char)))
    else none
  | .ioNumber digits => some (.ioNumber (String.ofList (digits.map Piece.char)))
  | .operator text => some (.operator text)

/-- The words and operators of a text in which nothing is expanded. -/
def read (text : String) : Option (List Item) := (tokenize text).bind fun tokens =>
  tokens.mapM Token.item

example : read "a='b c' && \"d\"\\ e 2>/f # g" =
    some [.word "a=b c", .operator "&&", .word "d e", .ioNumber "2", .operator ">", .word "/f"] := by
  decide

example : read "echo \"$HOME\"" = none := by decide

/-! ### Options -/

/-- Whether an operator ends a simple command. -/
def isControl (text : String) : Bool :=
  text ∈ ["&&", "||", ";", "&", "|", "\n", "(", ")", ";;"]

/-- Whether a word before the name of a command sets a variable. -/
def isAssignment (text : String) : Bool :=
  let name := text.toList.takeWhile fun char => decide (char ≠ '=')
  decide ('=' ∈ text.toList) && (name.head?.any fun char => char.isAlpha || decide (char = '_')) &&
    name.all fun char => char.isAlphanum || decide (char = '_')

/-- Where the next word stands in its command. -/
inductive Place
  | name
  | arguments
  | operands
  | redirected (before : Place)
  deriving DecidableEq, Repr

/-- The arguments that begin with a dash, up to the `--` of their command. -/
def optionsFrom : Place → List Item → List String
  | _, [] => []
  | place, .operator text :: rest =>
    if isControl text then optionsFrom .name rest else optionsFrom (.redirected place) rest
  | place, .ioNumber _ :: rest => optionsFrom place rest
  | .redirected before, .word _ :: rest => optionsFrom before rest
  | .name, .word text :: rest =>
    if isAssignment text then optionsFrom .name rest else optionsFrom .arguments rest
  | .operands, .word _ :: rest => optionsFrom .operands rest
  | .arguments, .word text :: rest =>
    if text = "--" then optionsFrom .operands rest
    else if text.toList.head? = some '-' then text :: optionsFrom .arguments rest
    else optionsFrom .arguments rest

/-! ### Quoting -/

/-- `shell_quote` -/
def quote (value : String) : String :=
  let escaped := value.toList.flatMap fun char =>
    if char = '\'' then ['\'', '\\', '\'', '\''] else [char]
  String.ofList ('\'' :: escaped ++ ['\''])

namespace Reader

variable {reader : Reader}

theorem run_append (reader : Reader) (first second : List Char) :
    reader.run (first ++ second) = (reader.run first).run second :=
  List.foldl_append

/-- The characters of a text that is quoted. -/
def quotedPieces (text : List Char) : List Piece := text.map fun char => ⟨char, true⟩

/-- Within single quotes the text goes on, and it can leave them only for an escaped quote. -/
theorem run_escaped (reader : Reader) (pieces : List Piece) (text : List Char) :
    (Reader.mk reader.tokens (some pieces) .single).run (text.flatMap fun char =>
        if char = '\'' then ['\'', '\\', '\'', '\''] else [char]) =
      ⟨reader.tokens, some (pieces ++ quotedPieces text), .single⟩ := by
  induction text generalizing pieces with
  | nil => simp [run, quotedPieces]
  | cons char text ih =>
    have pushed := ih (pieces ++ [⟨char, true⟩])
    rw [List.flatMap_cons, run_append]
    have first : (Reader.mk reader.tokens (some pieces) .single).run
        (if char = '\'' then ['\'', '\\', '\'', '\''] else [char]) =
        ⟨reader.tokens, some (pieces ++ [⟨char, true⟩]), .single⟩ := by
      split_ifs with isQuote
      · rw [isQuote]
        rfl
      · rw [run, List.foldl_cons, List.foldl_nil, step]
        dsimp only
        rw [if_neg isQuote]
        rfl
    rw [first, pushed]
    simp [quotedPieces]

theorem run_quote (plain : reader.mode = .plain) (value : String) :
    reader.run (quote value).toList =
      ⟨reader.tokens, some (reader.word.getD [] ++ quotedPieces value.toList), .plain⟩ := by
  obtain ⟨tokens, word, mode⟩ := reader
  cases plain
  unfold quote
  dsimp only
  rw [String.toList_ofList, List.cons_append, run, List.foldl_cons]
  change Reader.run ⟨tokens, some (word.getD []), .single⟩ _ = _
  rw [run_append, run_escaped ⟨tokens, word, .single⟩]
  rfl

end Reader

/-! ### Commands that are written word by word -/

/-- A part of a command: a word as it is, a quoted word or an operator. -/
inductive Written
  | plain (text : String)
  | quoted (text : String)
  | operator (text : String)
  deriving DecidableEq, Repr

namespace Written

def text : Written → String
  | .plain text | .operator text => text
  | .quoted text => quote text

def token : Written → Token
  | .plain text => .word (text.toList.map fun char => ⟨char, false⟩)
  | .quoted text => .word (Reader.quotedPieces text.toList)
  | .operator text => .operator text

def item : Written → Item
  | .plain text | .quoted text => .word text
  | .operator text => .operator text

/-- The characters that mean nothing to the shell. -/
def isOrdinary (char : Char) : Bool :=
  decide (char ∉ ['\\', '\'', '"', ' ', '\t', '\n', '#'] ∧ char ∉ Reader.operatorChars ∧
    char ∉ expandedChars)

/-- Whether a part is read as what it is meant to be. -/
def IsValid : Written → Prop
  | .plain text => text.toList ≠ [] ∧ text.toList.all isOrdinary = true
  | .quoted _ => True
  | .operator text => text ∈ ["&&", ">", ">>"]

instance : DecidablePred IsValid
  | .plain text => inferInstanceAs (Decidable (text.toList ≠ [] ∧ text.toList.all isOrdinary = true))
  | .quoted _ => inferInstanceAs (Decidable True)
  | .operator text => inferInstanceAs (Decidable (text ∈ ["&&", ">", ">>"]))

end Written

/-- The parts of a command, with blanks between them. -/
def render : List Written → String
  | [] => ""
  | [part] => part.text
  | part :: rest => part.text ++ " " ++ render rest

namespace Reader

theorem step_ordinary (tokens : List Token) (word : Option (List Piece)) {char : Char}
    (ordinary : Written.isOrdinary char = true) :
    (Reader.mk tokens word .plain).step char =
      ⟨tokens, some (word.getD [] ++ [⟨char, false⟩]), .plain⟩ := by
  simp only [Written.isOrdinary, List.mem_cons, List.not_mem_nil, or_false, not_or,
    decide_eq_true_eq] at ordinary
  obtain ⟨⟨escape, single, double, blank, tab, line, comment⟩, operator, _⟩ := ordinary
  unfold step stepPlain
  dsimp only
  rw [if_neg escape, if_neg single, if_neg double, if_neg operator, if_neg line,
    if_neg (by simp [blank, tab]), if_neg (by simp [comment])]
  rfl

theorem run_ordinary (tokens : List Token) (pieces : List Piece) {text : List Char}
    (ordinary : text.all Written.isOrdinary = true) :
    (Reader.mk tokens (some pieces) .plain).run text =
      ⟨tokens, some (pieces ++ text.map fun char => ⟨char, false⟩), .plain⟩ := by
  induction text generalizing pieces with
  | nil => simp [run]
  | cons char text ih =>
    rw [List.all_cons, Bool.and_eq_true] at ordinary
    rw [run, List.foldl_cons, step_ordinary _ _ ordinary.1]
    change (Reader.mk _ _ _).run text = _
    rw [ih _ ordinary.2]
    simp

/-- What the reader makes of a part that stands alone. -/
theorem run_part {part : Written} (valid : part.IsValid) (tokens : List Token) :
    ((Reader.mk tokens none .plain).run part.text.toList).step ' ' =
        ⟨tokens ++ [part.token], none, .plain⟩ ∧
      ((Reader.mk tokens none .plain).run part.text.toList).finish =
        some (tokens ++ [part.token]) := by
  cases part with
  | plain text =>
    obtain ⟨nonempty, ordinary⟩ := valid
    have begun : (Reader.mk tokens none .plain).run text.toList =
        (Reader.mk tokens (some []) .plain).run text.toList := by
      obtain ⟨char, rest, isText⟩ := List.exists_cons_of_ne_nil nonempty
      rw [isText, List.all_cons, Bool.and_eq_true] at ordinary
      rw [isText, run, run, List.foldl_cons, List.foldl_cons, step_ordinary _ _ ordinary.1,
        step_ordinary _ _ ordinary.1]
      rfl
    change (Reader.step (Reader.run _ text.toList) ' ' = _) ∧ (Reader.run _ text.toList).finish = _
    rw [begun, run_ordinary tokens [] ordinary]
    exact ⟨rfl, rfl⟩
  | quoted text =>
    change (Reader.step (Reader.run _ (quote text).toList) ' ' = _) ∧
      (Reader.run _ (quote text).toList).finish = _
    rw [run_quote rfl]
    exact ⟨rfl, rfl⟩
  | operator text =>
    change text ∈ ["&&", ">", ">>"] at valid
    have read : (Reader.mk tokens none .plain).run text.toList =
        ⟨tokens, none, .operator text⟩ := by
      fin_cases valid <;> rfl
    have alone : text.push ' ' ∉ longOperators := by fin_cases valid <;> decide
    change (Reader.step (Reader.run _ text.toList) ' ' = _) ∧ (Reader.run _ text.toList).finish = _
    rw [read]
    refine ⟨?_, rfl⟩
    unfold step
    dsimp only
    rw [if_neg alone]
    simp [stepPlain, emit, delimit, operatorChars, Written.token]

end Reader

theorem tokenize_render {parts : List Written} (valid : ∀ part ∈ parts, part.IsValid) :
    tokenize (render parts) = some (parts.map Written.token) := by
  have continued (tokens : List Token) :
      ((Reader.mk tokens none .plain).run (render parts).toList).finish =
        some (tokens ++ parts.map Written.token) := by
    induction parts generalizing tokens with
    | nil => simp [render, Reader.run, Reader.finish, Reader.delimit]
    | cons part rest ih =>
      obtain ⟨blank, last⟩ := Reader.run_part (valid part List.mem_cons_self) tokens
      cases rest with
      | nil => exact last
      | cons next others =>
        have later := ih (fun other member => valid other (List.mem_cons_of_mem _ member))
          (tokens ++ [part.token])
        rw [render, String.toList_append, String.toList_append, Reader.run_append,
          Reader.run_append]
        · change ((Reader.step _ ' ').run _).finish = _
          rw [blank, later]
          simp
        · simp
  exact continued []

theorem item_token (part : Written) (valid : part.IsValid) : part.token.item = some part.item := by
  have word (text : String) (quoted : Bool)
      (literal : quoted = true ∨ text.toList.all Written.isOrdinary = true) :
      Token.item (.word (text.toList.map fun char => ⟨char, quoted⟩)) = some (.word text) := by
    have chars : (text.toList.map fun char => Piece.mk char quoted).map Piece.char = text.toList := by
      simp [Function.comp_def]
    have isLiteral : (text.toList.map fun char => Piece.mk char quoted).all Piece.isLiteral = true := by
      rcases literal with rfl | ordinary
      · simp [Piece.isLiteral]
      · rw [List.all_eq_true] at ordinary ⊢
        intro piece member
        obtain ⟨char, isChar, rfl⟩ := List.mem_map.mp member
        have isOrdinary := of_decide_eq_true (ordinary char isChar)
        simp [Piece.isLiteral, isOrdinary.2.2]
    unfold Token.item
    dsimp only
    rw [if_pos isLiteral, chars, String.ofList_toList]
  cases part with
  | plain text => exact word text false (Or.inr valid.2)
  | quoted text => exact word text true (Or.inl rfl)
  | operator text => rfl

theorem read_render {parts : List Written} (valid : ∀ part ∈ parts, part.IsValid) :
    read (render parts) = some (parts.map Written.item) := by
  unfold read
  rw [tokenize_render valid, Option.bind_some]
  induction parts with
  | nil => rfl
  | cons part rest ih =>
    rw [List.map_cons, List.mapM_cons, item_token part (valid part List.mem_cons_self),
      ih fun other member => valid other (List.mem_cons_of_mem _ member)]
    rfl

end Shell

end Porthmos
