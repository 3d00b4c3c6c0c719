import Porthmos.Path
import Porthmos.Shell

/-!
# Commands for the server's shell

SCP and the search of SFTP run commands in the shell of the server.  Every path in them is
quoted, so that the shell reads it as one word.
-/

namespace Porthmos

/-- The commands that have paths or patterns in them. -/
inductive ShellCommand
  | list (dir : Path)
  | stat (path : Path)
  | mkdir (path : Path)
  | touch (path : Path) (seconds : Nat)
  | remove (path : Path)
  | removeTree (path : Path)
  | rename (source target : Path)
  | readFrom (path : Path) (offset : Nat)
  | scpSource (path : Path)
  | scpSink (path : Path)
  | append (path : Path)
  | create (path : Path)
  | find (root : Path) (maxDepth : Nat) (pattern : String)

namespace ShellCommand

def listingEnvironment : String := "TZ=UTC0 LC_ALL=C QUOTING_STYLE=literal TIME_STYLE=+%s"

def quoted (path : Path) : String := Shell.quote path.text

/-- The folder that is listed, with a slash at its end. -/
def listedText (dir : Path) : String := if dir.endsWithSeparator then dir.text else dir.text.push '/'

def text : ShellCommand → String
  | .list dir => listingEnvironment ++ " ls -lanL -- " ++ Shell.quote (listedText dir)
  | .stat path => listingEnvironment ++ " ls -ldnL -- " ++ quoted path
  | .mkdir path => "mkdir -- " ++ quoted path
  | .touch path seconds =>
    "test -e " ++ quoted path ++ " && touch -c -d @" ++ seconds.repr ++ " -- " ++ quoted path
  | .remove path => "rm -- " ++ quoted path
  | .removeTree path => "rm -rf -- " ++ quoted path
  | .rename source target => "mv -f -- " ++ quoted source ++ " " ++ quoted target
  | .readFrom path offset =>
    if offset = 0 then "cat -- " ++ quoted path
    else "tail -c +" ++ (offset + 1).repr ++ " -- " ++ quoted path
  | .scpSource path => "scp -f -- " ++ quoted path
  | .scpSink path => ": > " ++ quoted path ++ " && scp -t -- " ++ quoted path
  | .append path => "cat >> " ++ quoted path
  | .create path => "cat > " ++ quoted path
  | .find root maxDepth pattern =>
    "find " ++ quoted root ++ " -maxdepth " ++ maxDepth.repr ++ " -iname " ++ Shell.quote pattern

def paths : ShellCommand → List Path
  | .list path | .stat path | .mkdir path | .touch path _ | .remove path | .removeTree path
  | .readFrom path _ | .scpSource path | .scpSink path | .append path | .create path
  | .find path _ _ => [path]
  | .rename source target => [source, target]

/-! ### What the shell is to read -/

/-- The parts of a command.  The text of the folder in `list` is given. -/
def parts (listed : Path → String) : ShellCommand → List Shell.Written
  | .list dir =>
    [.plain "TZ=UTC0", .plain "LC_ALL=C", .plain "QUOTING_STYLE=literal", .plain "TIME_STYLE=+%s",
      .plain "ls", .plain "-lanL", .plain "--", .quoted (listed dir)]
  | .stat path =>
    [.plain "TZ=UTC0", .plain "LC_ALL=C", .plain "QUOTING_STYLE=literal", .plain "TIME_STYLE=+%s",
      .plain "ls", .plain "-ldnL", .plain "--", .quoted path.text]
  | .mkdir path => [.plain "mkdir", .plain "--", .quoted path.text]
  | .touch path seconds =>
    [.plain "test", .plain "-e", .quoted path.text, .operator "&&", .plain "touch", .plain "-c",
      .plain "-d", .plain ("@" ++ seconds.repr), .plain "--", .quoted path.text]
  | .remove path => [.plain "rm", .plain "--", .quoted path.text]
  | .removeTree path => [.plain "rm", .plain "-rf", .plain "--", .quoted path.text]
  | .rename source target =>
    [.plain "mv", .plain "-f", .plain "--", .quoted source.text, .quoted target.text]
  | .readFrom path offset =>
    if offset = 0 then [.plain "cat", .plain "--", .quoted path.text]
    else [.plain "tail", .plain "-c", .plain ("+" ++ (offset + 1).repr), .plain "--", .quoted path.text]
  | .scpSource path => [.plain "scp", .plain "-f", .plain "--", .quoted path.text]
  | .scpSink path =>
    [.plain ":", .operator ">", .quoted path.text, .operator "&&", .plain "scp", .plain "-t", .plain "--",
      .quoted path.text]
  | .append path => [.plain "cat", .operator ">>", .quoted path.text]
  | .create path => [.plain "cat", .operator ">", .quoted path.text]
  | .find root maxDepth pattern =>
    [.plain "find", .quoted root.text, .plain "-maxdepth", .plain maxDepth.repr, .plain "-iname",
      .quoted pattern]

/-- The words and operators of a command. -/
def skeleton (listed : Path → String) (command : ShellCommand) : List Shell.Item :=
  (command.parts listed).map Shell.Written.item

theorem ordinary_repr (number : Nat) : number.repr.toList.all Shell.Written.isOrdinary = true := by
  rw [List.all_eq_true]
  intro char member
  have isDigit : char.isDigit = true := by
    rw [Nat.repr, String.toList_ofList] at member
    exact Nat.isDigit_of_mem_toDigits (by decide) (by decide) member
  have notSpecial (other : Char) (special : other.isDigit = false) : char ≠ other := by
    rintro rfl
    exact absurd isDigit (by simp [special])
  unfold Shell.Written.isOrdinary
  apply decide_eq_true
  simp only [Shell.Reader.operatorChars, Shell.expandedChars, List.mem_cons, List.not_mem_nil,
    or_false, not_or]
  refine ⟨⟨?_, ?_, ?_, ?_, ?_, ?_, ?_⟩, ⟨?_, ?_, ?_, ?_, ?_, ?_, ?_⟩, ?_, ?_, ?_, ?_, ?_, ?_⟩
  all_goals exact notSpecial _ (by decide)

theorem text_eq_render (command : ShellCommand) :
    command.text = Shell.render (command.parts listedText) := by
  apply String.toList_inj.mp
  cases command
  case readFrom path offset =>
      unfold text parts
      dsimp only
      split_ifs
      · simp [Shell.render, Shell.Written.text, quoted]
      · simp [Shell.render, Shell.Written.text, quoted]
  all_goals simp [text, parts, Shell.render, Shell.Written.text, quoted, listingEnvironment]

theorem valid_number {mark : String} (single : mark.toList.all Shell.Written.isOrdinary = true)
    (number : Nat) : Shell.Written.IsValid (.plain (mark ++ number.repr)) := by
  constructor
  · simp
  · rw [String.toList_append, List.all_append, single, ordinary_repr]
    rfl

theorem valid_parts (listed : Path → String) (command : ShellCommand) :
    ∀ part ∈ command.parts listed, part.IsValid := by
  have number (number : Nat) : Shell.Written.IsValid (.plain number.repr) := by
    have unmarked : Shell.Written.IsValid (.plain ("" ++ number.repr)) := valid_number rfl number
    rwa [String.empty_append] at unmarked
  have quoted (text : String) : Shell.Written.IsValid (.quoted text) := trivial
  have moment (seconds : Nat) : Shell.Written.IsValid (.plain ("@" ++ seconds.repr)) :=
    valid_number (by decide) seconds
  have place (offset : Nat) : Shell.Written.IsValid (.plain ("+" ++ offset.repr)) :=
    valid_number (by decide) offset
  cases command
  case readFrom path offset =>
      unfold parts
      dsimp only
      split_ifs
      · simp only [List.forall_mem_cons, List.not_mem_nil, false_implies, implies_true, and_true,
          quoted]
        decide
      · simp only [List.forall_mem_cons, List.not_mem_nil, false_implies, implies_true, and_true,
          quoted, place, true_and]
        decide
  all_goals
    simp only [parts, List.forall_mem_cons, List.not_mem_nil, false_implies, implies_true, and_true,
      true_and, quoted, number, moment]
    decide

/-! ### What no path can do -/

/-- The text that a command has for each of its paths. -/
def operands (listed : Path → String) : ShellCommand → List String
  | .list dir => [listed dir]
  | command => command.paths.map Path.text

/-- The shell reads a command as its words and operators, with every path as a word of its own, and
no path is an option of a program. -/
def ReadAs (listed : Path → String) (command : ShellCommand) : Prop :=
  Shell.read command.text = some (command.skeleton listed) ∧
    ∀ path ∈ command.operands listed, path ∉ Shell.optionsFrom .name (command.skeleton listed)

theorem dash_of_option {place : Shell.Place} {items : List Shell.Item} {text : String}
    (member : text ∈ Shell.optionsFrom place items) : text.toList.head? = some '-' := by
  fun_induction Shell.optionsFrom place items with
  | case1 => exact absurd member List.not_mem_nil
  | case10 option rest notEnd isOption ih =>
    rcases List.mem_cons.mp member with rfl | later
    · exact isOption
    · exact ih later
  | _ =>
    rename_i ih
    exact ih member

theorem slash_of_operand {command : ShellCommand} {text : String}
    (absolute : ∀ path ∈ command.paths, path.isAbsolute = true)
    (member : text ∈ command.operands listedText) : text.toList.head? = some '/' := by
  have begins (path : Path) (isPath : path ∈ command.paths) : path.text.toList.head? = some '/' :=
    of_decide_eq_true (absolute path isPath)
  cases command
  case list dir =>
      have first := begins dir List.mem_cons_self
      cases List.mem_singleton.mp member
      unfold listedText
      split_ifs
      · exact first
      · rw [String.toList_push, List.head?_append, first]
        rfl
  all_goals
    obtain ⟨path, isPath, rfl⟩ := List.mem_map.mp member
    exact begins path isPath

/-- Every command is read as it is meant. -/
theorem readAs_of_absolute (command : ShellCommand)
    (absolute : ∀ path ∈ command.paths, path.isAbsolute = true) : command.ReadAs listedText := by
  constructor
  · rw [text_eq_render]
    exact Shell.read_render (valid_parts listedText command)
  · intro text member isOption
    have dash := dash_of_option isOption
    rw [slash_of_operand absolute member] at dash
    exact absurd (Option.some.inj dash) (by decide)

theorem readAs_of_absolute_rename :
    ReadAs listedText (.rename ⟨"/it's\n; rm -rf"⟩ ⟨"/-rf"⟩) :=
  readAs_of_absolute (.rename ⟨"/it's\n; rm -rf"⟩ ⟨"/-rf"⟩) (by decide)

/-- A folder that is listed gets a slash. -/
theorem readAs_of_absolute_fails :
    ¬ ∀ command : ShellCommand, (∀ path ∈ command.paths, path.isAbsolute = true) →
      command.ReadAs Path.text := by
  intro readAs
  have isRead := (readAs (.list ⟨"/a"⟩) (by decide)).1
  exact absurd isRead (by decide)

end ShellCommand

end Porthmos
