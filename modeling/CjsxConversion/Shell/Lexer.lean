import CjsxConversion.Shell.Reader

/-!
# Reading tokens

A word ends at white space or at an operator, unless it is inside of quotation marks or of something
that is replaced. What is replaced may hold quotation marks of its own; so the scanner keeps a stack
of levels, each with the way in which characters are taken there.

Commands in a word are read by a given reader.
-/

namespace CjsxConversion
namespace Shell

/-- How characters are taken. -/
inductive Mode where
  | base
  | double
  | single
  | arith
  deriving DecidableEq, Repr, Inhabited

/-- A level of a word. -/
structure Level where
  mode : Mode
  inDouble : Bool := false
  params : Nat := 0
  ofParam : Bool := false
  quotedParams : Nat := 0
  innerDouble : Bool := false
  parens : Nat := 0
  deriving Repr, Inhabited

/-- Something that is open in a word. -/
inductive Opened where
  | param (name : Narrow) (use : ParamUse) (colon : Bool)
  | arith
  deriving Repr

/-- A word that is being read. -/
structure Scan where
  level : Level
  around : List Level := []
  pieces : List Piece := []
  opened : List (Opened × List Piece) := []
  isQuoted : Bool := false
  document : Option PendingDocument := none

namespace Scan

/-- Puts a piece behind the others. -/
def add (s : Scan) (p : Piece) : Scan := { s with pieces := p :: s.pieces }

/-- Takes a character as it is taken on the current level. -/
def emit (s : Scan) (c : Char) : Scan :=
  s.add <| match s.level.mode with
    | .base | .arith => .char c
    | .double | .single => .quoted c

def openUp (s : Scan) (o : Opened) : Scan :=
  { s with opened := (o, s.pieces) :: s.opened, pieces := [] }

/-- Closes what was opened last. -/
def close (s : Scan) : Scan :=
  match s.opened with
  | [] => s
  | (o, before) :: opened =>
    let word := s.pieces.reverse
    let p : Piece := match o with
      | .param name use colon => .param name use colon word
      | .arith => .arith word
    { s with pieces := p :: before, opened }

def push (s : Scan) (l : Level) : Scan := { s with level := l, around := s.level :: s.around }

/-- Leaves the current level. -/
def pop (s : Scan) : Scan :=
  match s.around with
  | [] => s
  | l :: around => { s with level := l, around }

/-- Marks the beginning or the end of a quotation. -/
def markQuote (s : Scan) : Scan := if s.document.isSome then s else s.add .mark

/-- Marks a double quotation mark. -/
def toggle (s : Scan) : Scan :=
  (if s.level.params ≠ 0 then
    { s with level := { s.level with innerDouble := !s.level.innerDouble } }
  else s).markQuote

def endQuote (s : Scan) (c : Char) : Scan :=
  let s := if s.level.quotedParams = 0 then
      { s with level := { s.level with mode := .base, inDouble := false } }
    else s
  let s := { s with isQuoted := true }
  if c = '"' then s.toggle else s.markQuote

/-- Takes a character behind a backslash. -/
def escape (s : Scan) (c : Char) : Scan :=
  let keeps : Bool := s.level.inDouble && c ≠ '\\' && c ≠ '\x60' && c ≠ '$'
    && (c ≠ '"' || (s.document.isSome && s.level.params = 0))
    && (c ≠ '\x7d' || s.level.params = 0)
  let s := if keeps then s.add (.quoted '\\') else s
  { s.add (.quoted c) with isQuoted := true }

/-- Takes a closing brace. -/
def endParam (s : Scan) : Scan :=
  let l := s.level
  if !l.innerDouble ∧ 0 < l.params then
    let s := { s with level := { l with params := l.params - 1 } }
    let s := s.close
    if l.params = 1 ∧ l.ofParam then s.pop
    else if 0 < l.quotedParams then
      { s with level := { s.level with quotedParams := l.quotedParams - 1 } }
    else s
  else s.emit '\x7d'

end Scan

/-- Characters that are parameters of their own. -/
def isSpecial (c : Char) : Bool := "!#$*-?@".toList.contains c || Narrow.isDigit c

/-- Takes characters that pass a test, beginning with a given one. The first character that does
not pass is returned too. The bound is the length of the text. -/
def spanFrom (test : Char → Bool) : Nat → Option Char → Reading (Narrow × Option Char)
  | 0, c => return ([], c)
  | n + 1, some c => do
    if test c then
      let (cs, after) ← spanFrom test n (← nextJoined)
      return (c :: cs, after)
    else return ([], some c)
  | _ + 1, none => return ([], none)

/-- How long a text may be. -/
def textLimit : Nat := 10000000

/-- What is known of a parameter before its use. -/
inductive NameUse where
  | bare
  | braced
  | length
  | senseless
  deriving DecidableEq, Repr

/-- The name of a parameter that begins with a letter or a digit. -/
def takeName (use : NameUse) (c : Char) : Reading (Narrow × Option Char) := do
  if Narrow.beginsName c then spanFrom Narrow.inName textLimit (some c)
  else if use = .bare then return ([c], ← nextJoined)
  else spanFrom Narrow.isDigit textLimit (some c)

/-- The name of a parameter, what is known of its use, and the character behind it. -/
def takeParamName (braced : Bool) (c : Option Char) :
    Reading (Narrow × NameUse × Option Char) := do
  let use : NameUse := if braced then .braced else .bare
  match c with
  | none => return ([], .senseless, none)
  | some '\x7d' => return ([], .senseless, some '\x7d')
  | some c =>
    if Narrow.beginsName c ∨ Narrow.isDigit c then
      let (name, after) ← takeName use c
      return (name, use, after)
    let after ← nextJoined
    if braced ∧ c = '#' then
      match after with
      | some d =>
        if Narrow.beginsName d ∨ Narrow.isDigit d then
          let (name, after) ← takeName .length d
          return (name, .length, after)
      | none => pure ()
      let behind ← nextJoined
      if after = some '\x7d' ∨ behind ≠ some '\x7d' then
        back behind
        return (['#'], .braced, after)
      match after with
      | some d =>
        if isSpecial d then return ([d], .length, behind) else return ([], .senseless, behind)
      | none => return ([], .senseless, behind)
    if isSpecial c then return ([c], use, after) else return ([], .senseless, after)

/-- The use of a parameter that a character behind a name asks for. -/
def useOf? (c : Option Char) : Option ParamUse :=
  match c with
  | some '\x7d' => some .plain
  | some '-' => some .orWord
  | some '+' => some .ifSet
  | some '?' => some .orFail
  | some '=' => some .orAssign
  | _ => none

def Scan.openParam (s : Scan) (name : Narrow) (use : ParamUse) (colon : Bool) (mode : Mode) :
    Scan :=
  let s := s.openUp (.param name use colon)
  let mode := if mode = .arith then .double else mode
  let s := if mode ≠ s.level.mode ∨ s.level.innerDouble then
      s.push { mode, ofParam := true, inDouble := mode ≠ .base }
    else s
  { s with level := { s.level with
      params := s.level.params + 1
      quotedParams := s.level.quotedParams + if s.level.inDouble then 1 else 0 } }

/-- Takes a parameter behind its dollar. -/
def takeParam (s : Scan) (c : Option Char) : Reading Scan := do
  let braced : Bool := c = some '\x7b'
  let c ← if braced then nextJoined else pure c
  let (name, use, c) ← takeParamName braced c
  let mode := s.level.mode
  match use with
  | .bare =>
    back c
    return s.add (.param name .plain false [])
  | .senseless =>
    back c
    return s.openParam [] .senseless false mode
  | .length =>
    back c
    return s.openParam name (if c = some '\x7d' then .length else .senseless) false mode
  | .braced =>
    match c with
    | some '%' | some '#' =>
      let d ← nextJoined
      let longest : Bool := d = c
      if !longest then back d
      let use : ParamUse := if c = some '#' then .trimFront longest else .trimEnd longest
      return s.openParam name use false .base
    | some ':' =>
      let d ← nextJoined
      return s.openParam name ((useOf? d).getD .senseless) true mode
    | c =>
      match useOf? c with
      | some .plain => return s.add (.param name .plain false [])
      | some use => return s.openParam name use false mode
      | none => return s.openParam name .senseless false mode

/-- The text between old marks of a command. The bound is the length of the text. -/
def takeOldCommand (inDouble : Bool) : Nat → Reading Narrow
  | 0 => return []
  | n + 1 => do
    match ← nextJoined with
    | none => fail "EOF in backquote substitution"
    | some '\x60' => return []
    | some '\\' =>
      match ← next with
      | none => fail "EOF in backquote substitution"
      | some c =>
        if c = '\n' then countLine
        let rest ← takeOldCommand inDouble n
        if c = '\\' ∨ c = '\x60' ∨ c = '$' ∨ (inDouble ∧ c = '"') then return c :: rest
        else return '\\' :: c :: rest
    | some '\n' =>
      countLine
      return '\n' :: (← takeOldCommand inDouble n)
    | some c => return c :: (← takeOldCommand inDouble n)

/-- A command between old marks. Its text is read on its own. -/
def takeBackquoted (commands : Reading (Option Command)) (s : Scan) : Reading Scan := do
  let text ← takeOldCommand s.level.inDouble textLimit
  let r ← get
  set { r with rest := text, layers := [], line := 1, pending := [], checks := {}, again := false }
  let body ← commands
  modify fun q =>
    { r with documents := q.documents, checks := {}, again := false }
  return s.add (.command body)

/-- A command in parentheses. Documents that are still to be read behind it are empty. -/
def takeCommand (commands : Reading (Option Command)) (s : Scan) :
    Reading Scan := do
  let pending := (← get).pending
  modify fun r => { r with pending := [] }
  let body ← commands
  let r ← get
  if r.token ≠ .closing then fail (r.token.shown ++ " unexpected (expecting \")\")")
  set { r with pending, again := false }
  return s.add (.command body)

def takeDollar (commands : Reading (Option Command)) (s : Scan) :
    Reading Scan := do
  let c ← nextJoined
  let begins : Bool := c.any fun c =>
    c = '(' || c = '\x7b' || Narrow.beginsName c || isSpecial c
  if (← get).checks.mark ∨ !begins then
    back c
    return s.emit '$'
  else if c = some '(' then
    if ← nextIs '(' then
      return (s.openUp .arith).push { mode := .arith, inDouble := true }
    else takeCommand commands s
  else takeParam s c

/-- The next character of a word. Between single quotation marks nothing is joined. -/
def nextOf (s : Scan) : Reading (Option Char) :=
  if s.level.mode = .single then next else nextJoined

/-- Whether a document ends with the current line, which is passed over then. -/
def atMark (d : PendingDocument) : Reading Bool := do
  if d.stripsTabs then modify fun r => { r with rest := r.rest.dropWhile (· = '\t') }
  let r ← get
  if Narrow.startsWith d.mark r.rest then
    match r.rest.drop d.mark.length with
    | [] =>
      set { r with rest := [] }
      return true
    | '\n' :: rest =>
      set { r with rest, line := r.line + 1 }
      return true
    | _ => return false
  else return false

/-- The first character of a line, or none where a document ends. -/
def firstOf (s : Scan) (c : Option Char) : Reading (Option Char) := do
  match s.document, c with
  | some d, some c =>
    back (some c)
    if ← atMark d then return none else next
  | _, c => return c

def takeEscape (s : Scan) : Reading Scan := do
  match ← next with
  | none => return s.add (.quoted '\\')
  | some c => return s.escape c

/-- Takes a closing parenthesis in an arithmetic expression. -/
def takeArithEnd (s : Scan) : Reading Scan := do
  if 0 < s.level.parens then
    return { s.emit ')' with level := { s.level with parens := s.level.parens - 1 } }
  else if ← nextIs ')' then return s.pop.close
  else return s.emit ')'

/-- Takes one character of a word, which may begin with more. Without an answer the word ends. -/
def takeOne (commands : Reading (Option Command)) (s : Scan) (c : Char) :
    Reading (Option Scan) := do
  let mode := s.level.mode
  match c with
  | '\\' => if mode = .single then return s.emit c else return some (← takeEscape s)
  | '\'' =>
    match mode with
    | .base =>
      return some ({ s with level := { s.level with mode := .single } }).markQuote
    | .single =>
      return some (if s.document.isSome ∧ s.level.params = 0 then s.emit c else s.endQuote c)
    | _ => return some (s.emit c)
  | '"' =>
    match mode with
    | .base =>
      return some ({ s with level := { s.level with mode := .double, inDouble := true } }).toggle
    | .double =>
      if s.document.isSome ∧ s.level.params = 0 then return some (s.emit c)
      else return some (s.endQuote c)
    | _ => return some (s.emit c)
  | '\x60' =>
    if mode = .single ∨ (← get).checks.mark then return some (s.emit c)
    else return some (← takeBackquoted commands s)
  | '$' =>
    if mode = .single then return some (s.emit c)
    else return some (← takeDollar commands s)
  | '\x7d' => if mode = .single then return some (s.emit c) else return some s.endParam
  | '(' =>
    match mode with
    | .arith =>
      return some { s.emit c with level := { s.level with parens := s.level.parens + 1 } }
    | .base => if s.level.params = 0 then return none else return some (s.emit c)
    | _ => return some (s.emit c)
  | ')' =>
    match mode with
    | .arith => return some (← takeArithEnd s)
    | .base => if s.level.params = 0 then return none else return some (s.emit c)
    | _ => return some (s.emit c)
  | c =>
    if mode = .base ∧ "<>;&| \t".toList.contains c ∧ s.level.params = 0 then return none
    else return some (s.emit c)

/-- Takes the characters of a word from a given one on. The character that ends it is returned too.
The bound is the length of the text. -/
def scan (commands : Reading (Option Command)) :
    Nat → Scan → Option Char → Reading (Scan × Option Char)
  | 0, s, c => return (s, c)
  | _ + 1, s, none => return (s, none)
  | n + 1, s, some '\n' => do
    if s.level.mode = .base ∧ s.level.params = 0 then return (s, some '\n')
    else
      countLine
      let c ← firstOf s (← nextOf s)
      scan commands n (s.emit '\n') c
  | n + 1, s, some c => do
    match ← takeOne commands s c with
    | none => return (s, some c)
    | some s => scan commands n s (← nextOf s)

/-- Refuses a word in which something is open. -/
def checkClosed (s : Scan) : Reading Unit := do
  if s.level.mode = .arith then fail "Missing '))'"
  if s.level.mode ≠ .base ∧ s.document.isNone then fail "Unterminated quoted string"
  if s.level.params ≠ 0 then fail "Missing '\x7d'"

/-- Takes a redirection behind its first character. -/
def takeRedir (fd : Option Nat) (c : Char) : Reading Unit := do
  let keep (r : Redir) : Reading Unit := modify fun s => { s with redir := r }
  if c = '>' then
    let fd := fd.getD 1
    match ← nextJoined with
    | some '>' => keep (.file fd .append [])
    | some '|' => keep (.file fd .clobber [])
    | some '&' => keep (.dupWord fd [])
    | c =>
      back c
      keep (.file fd .output [])
  else
    let fd := fd.getD 0
    match ← nextJoined with
    | some '<' =>
      let strips ← nextIs '-'
      let number ← newDocument
      keep (.document fd number strips)
    | some '&' => keep (.dupWord fd [])
    | some '>' => keep (.file fd .both [])
    | c =>
      back c
      keep (.file fd .input [])

/-- Takes a word or a redirection from a given character on. -/
def takeWord (commands : Reading (Option Command)) (c : Option Char) :
    Reading Token := do
  let (s, after) ← scan commands textLimit { level := { mode := .base } } c
  checkClosed s
  let fd? : Option (Option Nat) := match s.pieces, s.isQuoted with
    | [], false => some none
    | [.char d], false => if Narrow.isDigit d then some (some (d.toNat - 48)) else none
    | _, _ => none
  match fd?, after with
  | some fd, some '>' =>
    takeRedir fd '>'
    return .redirection
  | some fd, some '<' =>
    takeRedir fd '<'
    return .redirection
  | _, _ =>
    back after
    modify fun r => { r with word := s.pieces.reverse, isQuoted := s.isQuoted }
    return .word

def takeDocument (commands : Reading (Option Command))
    (d : PendingDocument) : Reading Unit := do
  modify fun r =>
    { r with rest := r.rest ++ r.layers.flatMap (·.rest), layers := [], checks := {} }
  let level : Level :=
    if d.literal then { mode := .single } else { mode := .double, inDouble := true }
  let s : Scan := { level, document := some d }
  let c ← nextOf s
  let c ← firstOf s c
  let (s, _) ← scan commands textLimit s c
  checkClosed s
  modify fun r => { r with documents := r.documents.setIfInBounds d.number s.pieces.reverse }

/-- Takes the documents that stand behind the line. -/
def takeDocuments (commands : Reading (Option Command)) :
    List PendingDocument → Reading Unit
  | [] => return ()
  | d :: ds => do
    takeDocument commands d
    takeDocuments commands ds

/-- Takes the documents behind the line, if there are any. -/
def takePending (commands : Reading (Option Command)) : Reading Unit := do
  let pending := (← get).pending
  modify fun r => { r with pending := [] }
  takeDocuments commands pending

/-- Passes over a comment. The bound is the length of the text. -/
def skipComment : Nat → Reading Unit
  | 0 => return ()
  | n + 1 => do
    match ← next with
    | none => return ()
    | some '\n' => back (some '\n')
    | some _ => skipComment n

/-- Takes a token of characters or a word. The bound is the length of the text. -/
def takeRaw (commands : Reading (Option Command)) : Nat → Reading Token
  | 0 => return .endOfText
  | n + 1 => do
    match ← nextJoined with
    | some ' ' | some '\t' => takeRaw commands n
    | some '#' =>
      skipComment textLimit
      takeRaw commands n
    | some '\n' =>
      countLine
      return .newline
    | none => return .endOfText
    | some '&' => return if ← nextIs '&' then .andAlso else .ampersand
    | some '|' => return if ← nextIs '|' then .orElse else .bar
    | some ';' => return if ← nextIs ';' then .caseEnd else .semicolon
    | some '(' => return .opening
    | some ')' => return .closing
    | c => takeWord commands c

/-- Takes the last token again, or the next one. -/
def takeToken (commands : Reading (Option Command)) : Reading Token := do
  let r ← get
  if r.again then
    set { r with again := false }
    return r.token
  let t ← takeRaw commands textLimit
  modify fun r => { r with token := t }
  return t

/-- Takes a token behind empty lines. The bound is the number of lines. -/
def takeBehindLines (commands : Reading (Option Command)) :
    Nat → Reading Token
  | 0 => takeToken commands
  | n + 1 => do
    match ← takeToken commands with
    | .newline =>
      takePending commands
      expect {}
      takeBehindLines commands n
    | t => return t

def keyword? (text : Narrow) : Option Token :=
  (keywords.find? fun k => k.toList = text).map .keyword

/-- Replaces an alias by what it stands for, if the word is one that is not being replaced. -/
def openAlias (text : Narrow) : Reading Bool := do
  let r ← get
  match r.aliases.find? fun a => a.1 = text with
  | none => return false
  | some (_, value) =>
    if r.ended.contains text || r.layers.any fun l => l.name = text then return false
    if value ≠ [] then
      let blankEnd : Bool := value.getLast?.any Narrow.isBlank
      let layer : Layer := ⟨text, blankEnd, r.rest, r.ended⟩
      set { r with rest := value, layers := layer :: r.layers, ended := [] }
    return true

/-- Takes the next token, which may be a keyword or an alias where such a word may stand. The bound
is the number of aliases. -/
def readToken (commands : Reading (Option Command)) :
    Nat → Checks → Reading Token
  | 0, _ => return .endOfText
  | n + 1, checks => do
    let t ← if checks.lines then takeBehindLines commands textLimit
      else takeToken commands
    let r ← get
    let checks := { checks with aliases := checks.aliases || r.checks.aliases }
    set { r with checks := {} }
    match t, r.isQuoted, Word.text? r.word with
    | .word, false, some text =>
      match if checks.keywords then keyword? text else none with
      | some t =>
        modify fun r => { r with token := t }
        return t
      | none =>
        if checks.aliases then
          if ← openAlias text then readToken commands n checks else return t
        else return t
    | t, _, _ => return t

end Shell
end CjsxConversion
