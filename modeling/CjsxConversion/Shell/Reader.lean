import CjsxConversion.Shell.Script

/-!
# Reading the text of a script

The reader goes through the text of a script and remembers where it is, what it has read last, and
what is still to be read behind the line. A word that is an alias is replaced by what it stands
for; the replacement is read before the text behind it.
-/

namespace CjsxConversion
namespace Shell

/-- The tokens of a script. -/
inductive Token where
  | endOfText
  | newline
  | semicolon
  | ampersand
  | andAlso
  | orElse
  | bar
  | opening
  | closing
  | caseEnd
  | redirection
  | word
  | keyword (name : String)
  deriving DecidableEq, Repr, Inhabited

def keywords : List String :=
  ["!", "case", "do", "done", "elif", "else", "esac", "fi", "for", "if", "in", "then", "until",
   "while", "\x7b", "\x7d"]

namespace Token

/-- A token as it is called in messages. -/
def shown : Token → String
  | .endOfText => "end of file"
  | .newline => "newline"
  | .semicolon => "\";\""
  | .ampersand => "\"&\""
  | .andAlso => "\"&&\""
  | .orElse => "\"||\""
  | .bar => "\"|\""
  | .opening => "\"(\""
  | .closing => "\")\""
  | .caseEnd => "\";;\""
  | .redirection => "redirection"
  | .word => "word"
  | .keyword name => "\"" ++ name ++ "\""

def endsList : Token → Bool
  | .endOfText | .closing | .caseEnd => true
  | .keyword name =>
    ["do", "done", "elif", "else", "esac", "fi", "then", "\x7d"].contains name
  | _ => false

end Token

/-- What the next word may be. -/
structure Checks where
  lines : Bool := false
  keywords : Bool := false
  aliases : Bool := false
  mark : Bool := false
  deriving DecidableEq, Repr, Inhabited

/-- A document that is still to be read. -/
structure PendingDocument where
  number : Nat
  mark : Narrow
  stripsTabs : Bool
  literal : Bool
  deriving Repr, Inhabited

/-- The text behind an alias that is being read. -/
structure Layer where
  name : Narrow
  blankEnd : Bool
  rest : Narrow
  ended : List Narrow := []
  deriving Repr

/-- How far a script has been read. Behind the text that is read next lie the layers of aliases, the
innermost first; a word in front of aliases that ended may not stand for one of them again. The
redirection waits for what stands behind it, and the checks say what the next word may be. -/
structure Reader where
  isFile : Bool := false
  rest : Narrow := []
  layers : List Layer := []
  ended : List Narrow := []
  line : Nat := 1
  token : Token := .endOfText
  word : Word := []
  isQuoted : Bool := false
  redir : Redir := .dup 0 none
  again : Bool := false
  checks : Checks := {}
  pending : List PendingDocument := []
  documents : Array Word := #[]
  aliases : List (Narrow × Narrow) := []
  deriving Inhabited

/-- A script that makes no sense: the line and the message. -/
structure ScriptFault where
  line : Nat
  text : Narrow
  deriving Repr, Inhabited

abbrev Reading := StateT Reader (Except ScriptFault)

def fail {α : Type} (text : String) : Reading α := do
  throw ⟨(← get).line, text.toList⟩

/-! ### Characters -/

/-- Leaves the aliases that have been read to their ends. The bound is their number. -/
def popLayers : Nat → Reader → Reader
  | 0, r => r
  | n + 1, r =>
    match r.rest, r.layers with
    | [], l :: layers =>
      popLayers n { r with
        rest := l.rest
        layers
        ended := l.name :: l.ended
        checks := { r.checks with aliases := r.checks.aliases || l.blankEnd } }
    | _, _ => r

/-- The next character of a reader, and the reader behind it. -/
def Reader.next (r : Reader) : Option Char × Reader :=
  match r.rest with
  | c :: rest => (some c, { r with rest, ended := [] })
  | [] =>
    let r := popLayers r.layers.length { r with ended := [] }
    match r.rest with
    | c :: rest => (some c, { r with rest })
    | [] => (none, r)

/-- Takes the next character. -/
def next : Reading (Option Char) := modifyGet Reader.next

/-- Gives a character back. -/
def back (c : Option Char) : Reading Unit :=
  match c with
  | some c => modify fun r => { r with rest := c :: r.rest }
  | none => return ()

def countLine : Reading Unit := modify fun r => { r with line := r.line + 1 }

/-- Takes the next character behind joined lines. The bound is the number of lines. -/
def nextJoinedWithin : Nat → Reading (Option Char)
  | 0 => next
  | n + 1 => do
    match ← next with
    | some '\\' =>
      match ← next with
      | some '\n' =>
        countLine
        nextJoinedWithin n
      | c =>
        back c
        return some '\\'
    | c => return c

/-- Takes the next character. A backslash at the end of a line joins it with the next one. -/
def nextJoined : Reading (Option Char) := nextJoinedWithin 100000

/-- Takes a character if it is the next one. -/
def nextIs (c : Char) : Reading Bool := do
  let d ← nextJoined
  if d = some c then return true
  back d
  return false

/-- Sets what the next word may be. -/
def expect (checks : Checks) : Reading Unit := modify fun r => { r with checks }

/-- Gives the last token back. -/
def giveBack : Reading Unit := modify fun r => { r with again := true }

def newDocument : Reading Nat := do
  let r ← get
  set { r with documents := r.documents.push [] }
  return r.documents.size

end Shell
end CjsxConversion
