import CjsxConversion.Utility.Sed.Script

/-!
# Reading scripts of the stream editor

A script is read piece by piece, from the command line and from files. Labels are joined with the
jumps to them when all of it is read.

What is wrong with a script is told with the number of characters, or of lines, that
were read of the piece.
-/

namespace CjsxConversion
namespace Sed

/-- Where a piece of a script comes from. -/
inductive Origin where
  | word (n : Nat)
  | file (name : Narrow)
  deriving DecidableEq, Repr

/-- What a jump needs to know. -/
structure PendingJump where
  command : Nat
  label : Narrow
  deriving Repr

/-- How far a script has been read. The blocks are those that are open, with the place of each, and
the open command is the one whose text goes on in the next piece. -/
structure Reader where
  rest : Narrow := []
  used : Nat := 0
  line : Nat := 1
  origin : Origin := .word 0
  commands : Array Command := #[]
  blocks : List (Nat × Origin × Nat) := []
  labels : List (Narrow × Nat) := []
  jumps : List PendingJump := []
  open? : Option Nat := none
  silent : Bool := false
  words : Nat := 0
  extended : Bool := false
  deriving Repr

/-- What reads a part of a script. -/
abbrev Reading := StateT Reader (Except Narrow)

def faultAt (origin : Origin) (used line : Nat) (text : String) : Narrow :=
  match origin with
  | .word n =>
    "-e expression #".toList ++ Narrow.ofNat n ++ ", char ".toList ++ Narrow.ofNat used
      ++ ": ".toList ++ text.toList
  | .file name =>
    "file ".toList ++ name ++ " line ".toList ++ Narrow.ofNat line ++ ": ".toList ++ text.toList

/-- Stops reading with a fault. -/
def fail {α : Type} (text : String) : Reading α := do
  let r ← get
  throw (faultAt r.origin r.used r.line text)

/-- The next character, which is not taken. -/
def peek : Reading (Option Char) := return (← get).rest.head?

/-- Takes the next character. -/
def take : Reading (Option Char) := do
  let r ← get
  match r.rest with
  | [] => return none
  | c :: rest =>
    set { r with rest, used := r.used + 1, line := if c = '\n' then r.line + 1 else r.line }
    return some c

def takeMany (n : Nat) : Reading Unit :=
  modify fun r =>
    let cs := r.rest.take n
    { r with rest := r.rest.drop n, used := r.used + cs.length,
             line := r.line + cs.count '\n' }

/-- Takes the characters that pass a test. -/
def takeWhile (test : Char → Bool) : Reading Narrow := do
  let cs := (← get).rest.takeWhile test
  takeMany cs.length
  return cs

def isSpace (c : Char) : Bool := Narrow.isSpace c

/-- Takes white space. -/
def skipSpace : Reading Unit := do
  let _ ← takeWhile fun c => c ≠ '\n' && isSpace c

/-- Takes white space and the character behind it. -/
def takeNonblank : Reading (Option Char) := do
  skipSpace
  take

def takeNumber : Reading Nat := return Narrow.digitsValue 10 (← takeWhile Narrow.isDigit)

/-! ### Delimited texts -/

/-- What closes a part of a set that is opened in it. -/
def innerClosing (cs : Narrow) : Option Char :=
  match cs with
  | m :: _ => if m = ':' ∨ m = '.' ∨ m = '=' then some m else none
  | [] => none

/-- A set between brackets, as it is written, and what follows it. The first flag tells whether a
closing bracket here is a member; the mark is that of a part that is open. The bound is the length
of the text. -/
def spanSet : Nat → Bool → Option Char → Narrow → Option (Narrow × Narrow)
  | 0, _, _, _ => none
  | _ + 1, _, _, [] => none
  | _ + 1, _, _, '\n' :: _ => none
  | n + 1, _, some m, c :: cs =>
    if c = m ∧ cs.head? = some ']' then
      (spanSet n false none (cs.drop 1)).map fun r => (m :: ']' :: r.1, r.2)
    else (spanSet n false (some m) cs).map fun r => (c :: r.1, r.2)
  | n + 1, first, none, c :: cs =>
    if c = ']' ∧ ¬ first then some ([']'], cs)
    else if c = '[' ∧ (innerClosing cs).isSome then
      (spanSet n false (innerClosing cs) (cs.drop 1)).map fun r => (c :: cs.take 1 ++ r.1, r.2)
    else if c = '\\' ∧ cs.head? = some 'n' then
      (spanSet n false none (cs.drop 1)).map fun r => ('\n' :: r.1, r.2)
    else (spanSet n (first && c = '^') none cs).map fun r => (c :: r.1, r.2)

/-- The text up to a delimiter, and what follows it. In a regular expression an escaped n is a line
feed and a set may hold the delimiter. The bound is the length of the text. -/
def spanDelimited (delimiter : Char) (regex : Bool) : Nat → Narrow → Option (Narrow × Narrow)
  | 0, _ => none
  | _ + 1, [] => none
  | n + 1, c :: cs =>
    if c = delimiter then some ([], cs)
    else if c = '\n' then none
    else if c = '\\' then
      match cs with
      | [] => none
      | d :: rest =>
        let front :=
          if d = delimiter ∧ ¬ (¬ regex ∧ d = '&') then [d]
          else if d = 'n' ∧ regex then ['\n']
          else if d = '\n' then if regex then ['\n'] else ['\\', '\n']
          else ['\\', d]
        (spanDelimited delimiter regex n rest).map fun r => (front ++ r.1, r.2)
    else if c = '[' ∧ regex then
      let (caret, inner) := match cs with
        | '^' :: rest => (['^'], rest)
        | rest => ([], rest)
      match spanSet (inner.length + 1) true none inner with
      | none => none
      | some (set, rest) =>
        (spanDelimited delimiter regex (n - (cs.length - rest.length)) rest).map fun r =>
          (c :: caret ++ set ++ r.1, r.2)
    else (spanDelimited delimiter regex n cs).map fun r => (c :: r.1, r.2)

/-- How much of a text is read before a missing delimiter is noticed. -/
def unfinishedLength : Narrow → Nat
  -- Reading stops before the end of the line, or at the end of the piece.
  | [] => 0
  | '\n' :: _ => 0
  | '\\' :: _ :: rest => 2 + unfinishedLength rest
  | _ :: rest => 1 + unfinishedLength rest

/-- A text up to a delimiter. -/
def takeDelimited (delimiter : Char) (regex : Bool) (missing : String) : Reading Narrow := do
  let cs := (← get).rest
  match spanDelimited delimiter regex (cs.length + 1) cs with
  | some (text, rest) =>
    takeMany (cs.length - rest.length)
    return text
  | none =>
    takeMany (unfinishedLength cs)
    fail missing

/-! ### Escapes -/

/-- The character that a number after a backslash stands for, and what follows it. -/
def numberEscape? (cs : Narrow) : Option (Char × Narrow) :=
  match cs with
  | m :: rest =>
    let (base, most) := if m = 'd' then (10, 3) else if m = 'o' then (8, 3)
      else if m = 'x' then (16, 2) else (0, 0)
    let ds := (rest.take most).takeWhile fun c => (Narrow.digit? base c).isSome
    if ds = [] then none
    else some (Char.ofNat (Narrow.digitsValue base ds % 256), rest.drop ds.length)
  | [] => none

/-- The character that an escape stands for, and what follows it. -/
def escape? (cs : Narrow) : Option (Char × Narrow) :=
  match cs with
  | 'a' :: rest => some ('\x07', rest)
  | 'f' :: rest => some ('\x0c', rest)
  | 'r' :: rest => some ('\r', rest)
  | 't' :: rest => some ('\t', rest)
  | 'v' :: rest => some ('\x0b', rest)
  | 'c' :: c :: rest => some (Char.ofNat (Nat.xor (Narrow.toUpper c).toNat 64), rest)
  | cs => numberEscape? cs

/-- A regular expression whose escapes for characters are read. The bound is its length. -/
def readEscapes : Nat → Narrow → Narrow
  | 0, cs => cs
  | _ + 1, [] => []
  | n + 1, '\\' :: cs =>
    match escape? cs with
    | some (c, rest) => c :: readEscapes n rest
    | none =>
      match cs with
      | [] => ['\\']
      | d :: rest => '\\' :: d :: readEscapes n rest
  | n + 1, c :: cs => c :: readEscapes n cs

/-- A text whose escapes are read, and whose other backslashes are left out. The bound is its
length. -/
def plainText : Nat → Narrow → Narrow
  | 0, cs => cs
  | _ + 1, [] => []
  | n + 1, '\\' :: 'n' :: cs => '\n' :: plainText n cs
  | n + 1, '\\' :: cs =>
    match escape? cs with
    | some (c, rest) => c :: plainText n rest
    | none =>
      match cs with
      | [] => []
      | d :: rest => d :: plainText n rest
  | n + 1, c :: cs => c :: plainText n cs

/-- What is put in for a match. The bound is the length of the text. -/
def readInserts : Nat → Narrow → List Insert
  | 0, _ => []
  | _ + 1, [] => []
  | n + 1, '&' :: cs => .group 0 :: readInserts n cs
  | n + 1, '\\' :: c :: cs =>
    if Narrow.isDigit c then .group (c.toNat - '0'.toNat) :: readInserts n cs
    else
      match c with
      | 'n' => .char '\n' :: readInserts n cs
      | 'U' => .change .upper :: readInserts n cs
      | 'L' => .change .lower :: readInserts n cs
      | 'E' => .change .off :: readInserts n cs
      | 'u' => .change .upperOne :: readInserts n cs
      | 'l' => .change .lowerOne :: readInserts n cs
      | c =>
        match escape? (c :: cs) with
        | some (d, rest) => .char d :: readInserts n rest
        | none => .char c :: readInserts n cs
  | n + 1, c :: cs => .char c :: readInserts n cs

/-- The regular expression that a text spells. -/
def takeMatcher (text : Narrow) (mode : MatchMode) : Reading (Matcher × Nat) := do
  if text = [] then
    if mode.anyCase || mode.byLine then fail "cannot specify modifiers on empty regexp"
    return ({ regex := none, mode }, 0)
  else
    match RegexText.read (← get).extended (readEscapes (text.length + 1) text) with
    | .ok (regex, groups) => return ({ regex := some regex, mode }, groups)
    | .error fault => fail fault.message

/-! ### Addresses -/

/-- The modifiers behind a regular expression of an address. The bound is the length of the
piece. -/
def takeModifiers : Nat → MatchMode → Reading MatchMode
  | 0, mode => return mode
  | n + 1, mode => do
    skipSpace
    match ← peek with
    | some 'I' =>
      let _ ← take
      takeModifiers n { mode with anyCase := true }
    | some 'M' =>
      let _ ← take
      takeModifiers n { mode with byLine := true }
    | _ => return mode

/-- An address that begins with a character, if one does. -/
def takeAddress : Reading (Option Address) := do
  match ← peek with
  | some '/' | some '\\' =>
    let c ← take
    let delimiter ← if c = some '\\' then take else pure c
    let text ← takeDelimited (delimiter.getD '\n') true "unterminated address regex"
    let mode ← takeModifiers ((← get).rest.length + 1) {}
    return some (.matching (← takeMatcher text mode).1)
  | some '$' =>
    let _ ← take
    return some .last
  | some '+' =>
    let _ ← take
    skipSpace
    return some (.further (← takeNumber))
  | some '~' =>
    let _ ← take
    skipSpace
    return some (.multiple (← takeNumber))
  | some c =>
    if !Narrow.isDigit c then return none
    let n ← takeNumber
    let r ← get
    let after := r.rest.dropWhile fun c => c ≠ '\n' && isSpace c
    if after.head? = some '~' then
      takeMany (r.rest.length - after.length + 1)
      skipSpace
      let each ← takeNumber
      return some (if each = 0 then .line n else .step n each)
    else return some (.line n)
  | none => return none

/-! ### Commands -/

def takeEnd : Reading Unit := do
  skipSpace
  match ← peek with
  | some '\x7d' | some '#' | none => return ()
  | some c =>
    let _ ← take
    if c ≠ '\n' ∧ c ≠ ';' then fail "extra characters after command"

def endsLabel (c : Char) : Bool := isSpace c || c = ';' || c = '\x7d'

def takeLabel : Reading Narrow := do
  skipSpace
  takeWhile fun c => !endsLabel c

/-- The name of a file, which goes to the end of the line. -/
def takeFileName : Reading Narrow := do
  skipSpace
  let name ← takeWhile (· ≠ '\n')
  let _ ← take
  if name = [] then fail "missing filename in r/R/w/W commands"
  return name

/-- The raw text of a command up to the end of its last line, what follows it, and whether the
piece ends behind a backslash. The bound is the length of the text. -/
def spanText : Nat → Narrow → Narrow × Narrow × Bool
  | 0, cs => ([], cs, false)
  | _ + 1, [] => ([], [], false)
  | _ + 1, ['\\'] => ([], [], true)
  | _ + 1, '\n' :: rest => ([], rest, false)
  | n + 1, '\\' :: c :: rest =>
    let (text, rest, more) := spanText n rest
    ('\\' :: c :: text, rest, more)
  | n + 1, c :: rest =>
    let (text, rest, more) := spanText n rest
    (c :: text, rest, more)

/-- An action with a text behind its own. -/
def Action.withText (a : Action) (text : Narrow) : Action :=
  match a with
  | .append cs => .append (cs ++ text)
  | .insert cs => .insert (cs ++ text)
  | .change cs => .change (cs ++ text)
  | a => a

/-- The text of the command of a number. Behind a backslash at its end it goes on in the next
piece. -/
def takeText (command : Nat) : Reading Narrow := do
  let cs := (← get).rest
  let (text, rest, more) := spanText (cs.length + 1) cs
  takeMany (cs.length - rest.length)
  modify fun r => { r with open? := if more then some command else none }
  return plainText (text.length + 1) text ++ ['\n']

/-- The text of a command that has one. Without a character behind the backslash it goes on in the
next piece. -/
def takeTextAction (make : Narrow → Action) : Reading Action := do
  skipSpace
  match ← peek with
  | none => fail "expected \\ after \x60a', \x60c' or \x60i'"
  | some '\\' =>
    let _ ← take
    let r ← get
    if r.rest = [] then
      set { r with open? := some r.commands.size }
      return make []
    let after := r.rest.dropWhile Narrow.isBlank
    if after.head? = some '\n' then takeMany (r.rest.length - after.length + 1)
    return make (← takeText r.commands.size)
  | some _ => return make (← takeText (← get).commands.size)

/-- The options of a substitution. The bound is the length of the piece. -/
def takeOptions : Nat → Substitution → Bool → Reading (Substitution × Bool)
  | 0, s, numbered => return (s, numbered)
  | n + 1, s, numbered => do
    match ← peek with
    | none => return (s, numbered)
    | some '\x7d' | some '#' => return (s, numbered)
    | some c =>
      if Narrow.isDigit c then
        if numbered then
          let _ ← take
          fail "multiple number options to \x60s' command"
        let k ← takeNumber
        if k = 0 then fail "number option to \x60s' command may not be zero"
        takeOptions n { s with number := k } true
      else
        let _ ← take
        match c with
        | '\n' | ';' => return (s, numbered)
        | 'i' | 'I' =>
          takeOptions n
            { s with matcher := { s.matcher with mode := { s.matcher.mode with anyCase := true } } }
            numbered
        | 'm' | 'M' =>
          takeOptions n
            { s with matcher := { s.matcher with mode := { s.matcher.mode with byLine := true } } }
            numbered
        | 'e' => takeOptions n { s with runs := true } numbered
        | 'p' =>
          if s.prints then fail "multiple \x60p' options to \x60s' command"
          takeOptions n { s with prints := true, printsFirst := !s.runs } numbered
        | 'g' =>
          if s.all then fail "multiple \x60g' options to \x60s' command"
          takeOptions n { s with all := true } numbered
        | 'w' =>
          let file ← takeFileName
          return ({ s with file := some file }, numbered)
        | c =>
          if c = ' ' ∨ c = '\t' ∨ c = '\r' then takeOptions n s numbered
          else fail "unknown option to \x60s'"

def largestGroup (inserts : List Insert) : Nat :=
  inserts.foldl (fun m i => match i with | .group n => max m n | _ => m) 0

def takeSubstitution : Reading Action := do
  let missing := "unterminated \x60s' command"
  match ← take with
  | none => fail missing
  | some delimiter =>
    let pattern ← takeDelimited delimiter true missing
    let text ← takeDelimited delimiter false missing
    let inserts := readInserts (text.length + 1) text
    let (s, _) ← takeOptions ((← get).rest.length + 1) { matcher := { regex := none }, inserts } false
    let (matcher, groups) ← takeMatcher pattern s.matcher.mode
    let largest := largestGroup inserts
    if pattern ≠ [] ∧ groups < largest then
      fail ("invalid reference \\" ++ toString largest ++ " on \x60s' command's RHS")
    return .substitute { s with matcher }

def takeTranslation : Reading Action := do
  let missing := "unterminated \x60y' command"
  match ← take with
  | none => fail missing
  | some delimiter =>
    let source ← takeDelimited delimiter false missing
    let target ← takeDelimited delimiter false missing
    let source := plainText (source.length + 1) source
    let target := plainText (target.length + 1) target
    if source.length ≠ target.length then
      fail "strings for \x60y' command are different lengths"
    takeEnd
    return .translate (source.zip target)

/-- The number behind a command that may have one. -/
def takeArgument : Reading (Option Nat) := do
  skipSpace
  match ← peek with
  | some c => if Narrow.isDigit c then return some (← takeNumber) else return none
  | none => return none

/-- An action without anything behind it. -/
def plain (a : Action) : Reading Action := do
  takeEnd
  return a

/-- A jump, whose target is filled in when all labels are known. -/
def takeJump (make : Nat → Action) : Reading Action := do
  let label ← takeLabel
  takeEnd
  modify fun r => { r with jumps := ⟨r.commands.size, label⟩ :: r.jumps }
  return make 0

def takeAction (c : Char) (ranged : Bool) : Reading Action := do
  match c with
  | '=' => plain .number
  | 'a' => takeTextAction .append
  | 'i' => takeTextAction .insert
  | 'c' => takeTextAction .change
  | 'b' => takeJump .jump
  | 't' => takeJump .jumpIf
  | 'T' => takeJump .jumpUnless
  | 'd' => plain .delete
  | 'D' => plain .deleteFirst
  | 'e' =>
    skipSpace
    let command ← takeWhile (· ≠ '\n')
    let _ ← take
    return .execute command
  | 'F' => plain .fileName
  | 'g' => plain .getKept
  | 'G' => plain .getKeptBehind
  | 'h' => plain .keep
  | 'H' => plain .keepBehind
  | 'l' =>
    let length ← takeArgument
    plain (.list length)
  | 'L' =>
    let _ ← takeArgument
    plain (.withdrawn c)
  | 'n' => plain .next
  | 'N' => plain .nextBehind
  | 'p' => plain .print
  | 'P' => plain .printFirst
  | 'q' =>
    if ranged then fail "command only uses one address"
    let status ← takeArgument
    plain (.quit (status.getD 0))
  | 'Q' =>
    if ranged then fail "command only uses one address"
    let status ← takeArgument
    plain (.quitSilently (status.getD 0))
  | 'r' => return .readFile (← takeFileName)
  | 'R' => return .readLine (← takeFileName)
  | 's' => takeSubstitution
  | 'w' => return .writeFile (← takeFileName)
  | 'W' => return .writeFirst (← takeFileName)
  | 'x' => plain .exchange
  | 'y' => takeTranslation
  | 'z' => plain .clear
  | c => fail ("unknown command: \x60" ++ String.ofList [c] ++ "'")

/-- Puts a command behind the others. -/
def addCommand (c : Command) : Reading Unit :=
  modify fun r => { r with commands := r.commands.push c }

/-- The addresses in front of a command. -/
def takeAddresses : Reading (Option Address × Option Address) := do
  match ← takeAddress with
  | none => return (none, none)
  | some first =>
    match first with
    | .further n | .multiple n =>
      let _ := n
      fail "invalid usage of +N or ~N as first address"
    | _ => pure ()
    skipSpace
    let last ←
      if (← peek) = some ',' then do
        let _ ← take
        skipSpace
        match ← takeAddress with
        | some ending => pure (some ending)
        | none =>
          let _ ← take
          fail "unexpected \x60,'"
      else pure none
    match first, last with
    | .line 0, some (.matching _) => pure ()
    | .line 0, _ =>
      skipSpace
      let _ ← take
      fail "invalid usage of line address 0"
    | _, _ => pure ()
    skipSpace
    return (some first, last)

/-- Fills in the end of the innermost block. -/
def closeBlock : Reading Unit := do
  let r ← get
  match r.blocks with
  | [] => fail "unexpected \x60\x7d'"
  | (k, _, _) :: blocks =>
    let behind := r.commands.size
    set { r with
      blocks
      commands := r.commands.modify k fun c => { c with action := .opens behind } }

/-- A comment, whose first letter may say that lines are not written by themselves. -/
def takeComment (addressed : Bool) : Reading Unit := do
  if addressed then fail "comments don't accept any addresses"
  let r ← get
  let comment ← takeWhile (· ≠ '\n')
  let first : Bool := match r.origin with
    | .word n => n = 1 && r.used = 1
    | .file _ => r.words = 0 && r.used = 1
  if first && comment.head? = some 'n' then modify fun r => { r with silent := true }

def takeCommand : Reading Unit := do
  let (first, last) ← takeAddresses
  let negated ←
    if (← peek) = some '!' then do
      let _ ← take
      skipSpace
      if (← peek) = some '!' then
        let _ ← take
        fail "multiple \x60!'s"
      pure true
    else pure false
  match ← take with
  | none => fail "missing command"
  | some '#' => takeComment first.isSome
  | some ':' =>
    if first.isSome then fail ": doesn't want any addresses"
    let label ← takeLabel
    if label = [] then fail "\":\" lacks a label"
    modify fun r => { r with labels := (label, r.commands.size) :: r.labels }
  | some '\x7b' =>
    let r ← get
    set { r with blocks := (r.commands.size, r.origin, r.line) :: r.blocks }
    addCommand { first, last, negated, action := .opens 0 }
  | some '\x7d' =>
    if (← get).blocks = [] then fail "unexpected \x60\x7d'"
    if first.isSome then fail "\x7d doesn't want any addresses"
    takeEnd
    closeBlock
  | some 'v' =>
    let label ← takeLabel
    let wanted := (Narrow.splitOn '.' label).map fun d => (Narrow.toNat? d).getD 0
    if wanted.head?.any fun n => 4 < n then fail "expected newer version of sed"
    takeEnd
  | some c =>
    let action ← takeAction c last.isSome
    addCommand { first, last, negated, action }

/-- The commands of a piece. The bound is its length. -/
def takeCommands : Nat → Reading Unit
  | 0 => return ()
  | n + 1 => do
    let _ ← takeWhile fun c => c = ';' || isSpace c
    if (← get).rest = [] then return ()
    takeCommand
    takeCommands n

def readPiece (origin : Origin) (text : Narrow) : Reading Unit := do
  modify fun r => { r with rest := text, used := 0, line := 1, origin }
  match (← get).open? with
  | some k =>
    let more ← takeText k
    modify fun r => { r with
      commands := r.commands.modify k fun c => { c with action := c.action.withText more } }
  | none => pure ()
  takeCommands (text.length + 1)

/-- A piece from the command line. -/
def readWord (text : Narrow) : Reading Unit := do
  modify fun r => { r with words := r.words + 1 }
  readPiece (.word (← get).words) text

/-- Where a jump leads: behind the last command if its label is empty. -/
def target? (r : Reader) (j : PendingJump) : Option Nat :=
  if j.label = [] then some r.commands.size
  else (r.labels.find? fun l => l.1 = j.label).map (·.2)

def Action.toward (a : Action) (target : Nat) : Action :=
  match a with
  | .jump _ => .jump target
  | .jumpIf _ => .jumpIf target
  | .jumpUnless _ => .jumpUnless target
  | a => a

/-- The message for a label that is missing. -/
def labelFault (label : Narrow) : Narrow :=
  "can't find label for jump to \x60".toList ++ label ++ ['\'']

/-- The script that was read, when all of it is. Faults come with the status of the program. -/
def Reader.finish (r : Reader) : Except (Narrow × Nat) Script :=
  match r.blocks with
  | (_, .word n, _) :: _ => .error (faultAt (.word n) 0 0 "unmatched \x60\x7b'", 1)
  | (_, origin, line) :: _ => .error (faultAt origin 0 line "unmatched \x60\x7b'", 1)
  | [] =>
    match r.jumps.reverse.find? fun j => (target? r j).isNone with
    | some j => .error (labelFault j.label, 4)
    | none =>
      let commands := r.jumps.foldl (fun cs j =>
        cs.modify j.command fun c =>
          { c with action := c.action.toward ((target? r j).getD 0) }) r.commands
      let lacking := faultAt r.origin 0 r.line "no previous regular expression"
      .ok { commands, silent := r.silent, lacking }

end Sed
end CjsxConversion
