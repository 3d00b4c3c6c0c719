import Porthmos.Globs
import Porthmos.FtpListing
import Porthmos.OutputLines

/-!
# Hosts of an SSH configuration

The configuration is read line by line into blocks of directives: those before the first block
apply everywhere, those of a `Host` block to the hosts that its patterns match, and those of a
`Match` block nowhere.  Every alias without wildcards is a host.
-/

namespace Porthmos

namespace SshConfig

open TextFields OutputLines ListLines
open StateFiles (isWhitespace)

structure SshConfigHost where
  name : List Char
  hostName : Option (List Char)
  user : Option (List Char)
  port : Option Nat
  identityFile : Option Path
  deriving DecidableEq, Repr

inductive Applies
  | everywhere
  | toHosts (patterns : List (List Char))
  | nowhere
  deriving DecidableEq, Repr

/-- A keyword in lower case, and a value. -/
abbrev Directive := List Char × List Char

structure Block where
  applies : Applies
  directives : List Directive
  deriving DecidableEq, Repr

def isPattern (name : List Char) : Bool :=
  name.any fun character => character = '*' ∨ character = '?' ∨ character = '!'

/-- `str::eq_ignore_ascii_case` -/
def eqIgnoreAsciiCase (first second : List Char) : Bool :=
  first.map Char.toLower = second.map Char.toLower

/-- `str::parse::<u16>` -/
def parseU16 (text : List Char) : Option Nat := (parseU64 text).filter fun value => value < 2 ^ 16

/-! ### Reading lines -/

def stripComment (line : List Char) : List Char := line.takeWhile (· ≠ '#')

def isSeparator (character : Char) : Bool := character = ' ' ∨ character = '\t' ∨ character = '='

def splitDirective (line : List Char) : Option Directive :=
  let line := trimMatches isWhitespace line
  let rest := line.dropWhile fun character => !isSeparator character
  if rest = [] then none
  else some (line.takeWhile fun character => !isSeparator character,
    trimMatches isWhitespace (rest.dropWhile isSeparator))

/-- A directive belongs to the last block. -/
def addDirective (blocks : List Block) (directive : Directive) : List Block :=
  blocks.modifyLast fun block => { block with directives := block.directives ++ [directive] }

def takeDirective (blocks : List Block) (keyword value : List Char) : List Block :=
  if keyword = "host".toList then blocks ++ [⟨.toHosts (splitWhitespace value), []⟩]
  else if keyword = "match".toList then blocks ++ [⟨.nowhere, []⟩]
  else addDirective blocks (keyword, value)

def takeLine (blocks : List Block) (line : List Char) : List Block :=
  let line := trimMatches isWhitespace (stripComment line)
  if line = [] then blocks
  else
    match splitDirective line with
    | none => blocks
    | some (keyword, value) => takeDirective blocks (keyword.map Char.toLower) value

def splitIntoBlocks (contents : List Char) : List Block :=
  (linesFrom [] contents).foldl takeLine [⟨.everywhere, []⟩]

/-! ### Hosts -/

def addAlias (aliases : List (List Char)) (pattern : List Char) : List (List Char) :=
  if isPattern pattern || aliases.any fun other => eqIgnoreAsciiCase other pattern then aliases
  else aliases ++ [pattern]

def addAliases (aliases : List (List Char)) (block : Block) : List (List Char) :=
  match block.applies with
  | .toHosts patterns => patterns.foldl addAlias aliases
  | .everywhere | .nowhere => aliases

def concreteAliases (blocks : List Block) : List (List Char) := blocks.foldl addAliases []

def expandTokens (name : List Char) : List Char → List Char
  | [] => []
  | '%' :: 'h' :: rest => name ++ expandTokens name rest
  | '%' :: '%' :: rest => '%' :: expandTokens name rest
  | '%' :: other :: rest => '%' :: other :: expandTokens name rest
  | character :: rest => character :: expandTokens name rest

def expandHome (home : Option Path) (path : List Char) : Path :=
  match home, path with
  | some home, '~' :: '/' :: rest => home.join ⟨String.ofList rest⟩
  | _, _ => ⟨String.ofList path⟩

section Matching

-- `str::to_lowercase`
variable (lower : List Char → List Char)

def globMatch (pattern name : List Char) : Bool := matchFrom (lower pattern) (lower name)

/-- The loop over the patterns of a block. -/
def matchesFrom (name : List Char) (matched : Bool) : List (List Char) → Bool
  | [] => matched
  | pattern :: patterns =>
    if pattern.head? = some '!' then
      if globMatch lower pattern.tail name then false else matchesFrom name matched patterns
    else matchesFrom name (matched || globMatch lower pattern name) patterns

namespace Block

def isMatch (block : Block) (name : List Char) : Bool :=
  match block.applies with
  | .everywhere => true
  | .nowhere => false
  | .toHosts patterns => matchesFrom lower name false patterns

def names (block : Block) (name : List Char) : Bool :=
  match block.applies with
  | .toHosts patterns => patterns.any fun pattern =>
    !isPattern pattern && eqIgnoreAsciiCase pattern name
  | .everywhere | .nowhere => false

end Block

def hostNameKey : List Char := "hostname".toList

def userKey : List Char := "user".toList

def portKey : List Char := "port".toList

def identityFileKey : List Char := "identityfile".toList

/-- A host that is being resolved, with the identity file that no block of its own gave. -/
structure Resolving where
  host : SshConfigHost
  wildcardIdentityFile : Option Path

def resolveDirective (home : Option Path) (namesAlias : Bool) (resolving : Resolving)
    (directive : Directive) : Resolving :=
  let host := resolving.host
  let (keyword, value) := directive
  if keyword = hostNameKey ∧ host.hostName = none then
    { resolving with host := { host with hostName := some (expandTokens host.name value) } }
  else if keyword = userKey ∧ host.user = none then
    { resolving with host := { host with user := some value } }
  else if keyword = portKey ∧ host.port = none then
    { resolving with host := { host with port := parseU16 value } }
  else if keyword = identityFileKey ∧ namesAlias = true ∧ host.identityFile = none then
    { resolving with host := { host with identityFile := some (expandHome home value) } }
  else if keyword = identityFileKey ∧ resolving.wildcardIdentityFile = none then
    { resolving with wildcardIdentityFile := some (expandHome home value) }
  else resolving

def resolveBlock (home : Option Path) (name : List Char) (resolving : Resolving) (block : Block) :
    Resolving :=
  block.directives.foldl (resolveDirective home (block.names name)) resolving

def resolve (name : List Char) (blocks : List Block) (home : Option Path) : SshConfigHost :=
  let resolved := (blocks.filter fun block => block.isMatch lower name).foldl
    (resolveBlock home name) ⟨⟨name, none, none, none, none⟩, none⟩
  { resolved.host with
    identityFile := resolved.host.identityFile.or resolved.wildcardIdentityFile }

def parse (contents : List Char) (home : Option Path) : List SshConfigHost :=
  let blocks := splitIntoBlocks contents
  (concreteAliases blocks).map fun name => resolve lower name blocks home

end Matching

end SshConfig

end Porthmos
