import CjsxConversion.Shell.Lexer

/-!
# Reading commands

A list of commands ends with the line, or where a token closes it. The functions that read the parts
of a list call each other; the bound on them is larger than any text needs.

A token that cannot stand where it does stops the reading. The message tells which one
could.
-/

namespace CjsxConversion
namespace Shell

/-- Where a list of commands ends. -/
inductive ListKind where
  | line
  | body
  | inside
  deriving DecidableEq, Repr

def Command.inBackground : Command → Command
  | .pipe _ cs => .pipe true cs
  | .redir line body redirs => .background line body redirs
  | c => .background 0 c []

/-- A list with one more command. -/
def joined (first : Option Command) (second : Command) : Command :=
  match first with
  | none => second
  | some c => .sequence c second

/-- Refuses the last token. -/
def unexpected {α : Type} : Reading α := do
  fail ((← get).token.shown ++ " unexpected")

/-- Refuses the last token where another one is needed. -/
def expecting {α : Type} (wanted : Token) : Reading α := do
  fail ((← get).token.shown ++ " unexpected (expecting " ++ wanted.shown ++ ")")

/-- What may stand where a command begins. -/
def commandChecks : Checks := { lines := true, keywords := true, aliases := true }

/-- The commands whose names no function may have. -/
def specialNames : List String :=
  [".", ":", "break", "continue", "eval", "exec", "exit", "export", "readonly", "return", "set",
   "shift", "times", "trap", "unset", "local"]

/-- Every parameter as a word of its own. -/
def allParams : Word := [.mark, .param ['@'] .plain false [], .mark]

/-- A redirection with the word behind it. -/
def Redir.withWord (r : Redir) (word : Word) : Redir :=
  match r with
  | .file fd kind _ => .file fd kind word
  | .dupWord fd _ =>
    match Word.text? word with
    | some ['-'] => .dup fd none
    | some [d] => if Narrow.isDigit d then .dup fd (some (d.toNat - 48)) else .dupWord fd word
    | _ => .dupWord fd word
  | r => r

mutual

/-- Takes the next token. -/
def token : Nat → Reading Token
  | 0 => fail "script too deep"
  | n + 1 => do readToken (list n .inside true none) 10000 (← get).checks

/-- Takes a list of commands behind those that were taken already. -/
def list : Nat → ListKind → Bool → Option Command → Reading (Option Command)
  | 0, _, _, _ => fail "script too deep"
  | n + 1, kind, isFirst, before => do
    expect { commandChecks with lines := kind ≠ .line }
    let t ← token n
    match t with
    | .newline =>
      takePending (list n .inside true none)
      return before
    | .endOfText =>
      takePending (list n .inside true none)
      giveBack
      return before
    | t =>
      giveBack
      if (kind = .inside ∨ (kind = .body ∧ ¬ isFirst)) ∧ t.endsList then return before
      let c ← andOr n
      let t ← token n
      let all := joined before (if t = .ampersand then c.inBackground else c)
      match t with
      | .endOfText =>
        takePending (list n .inside true none)
        giveBack
        return some all
      | .newline =>
        giveBack
        list n kind false (some all)
      | .ampersand | .semicolon => list n kind false (some all)
      | _ =>
        if kind = .line then unexpected
        giveBack
        return some all

/-- Takes pipelines of which each may decide about the next one. -/
def andOr : Nat → Reading Command
  | 0 => fail "script too deep"
  | n + 1 => do andOrRest n (← pipeline n)

/-- Takes what follows a pipeline. -/
def andOrRest : Nat → Command → Reading Command
  | 0, _ => fail "script too deep"
  | n + 1, first => do
    let t ← token n
    match t with
    | .andAlso =>
      expect commandChecks
      andOrRest n (.both first (← pipeline n))
    | .orElse =>
      expect commandChecks
      andOrRest n (.either first (← pipeline n))
    | _ =>
      giveBack
      return first

def pipeline : Nat → Reading Command
  | 0 => fail "script too deep"
  | n + 1 => do
    let t ← token n
    let negated : Bool := t = .keyword "!"
    if negated then expect { keywords := true, aliases := true } else giveBack
    let first ← command n
    let others ← pipeRest n
    let c := if others = [] then first else .pipe false (first :: others)
    return if negated then .negate c else c

/-- Takes the commands behind bars. -/
def pipeRest : Nat → Reading (List Command)
  | 0 => fail "script too deep"
  | n + 1 => do
    let t ← token n
    if t = .bar then
      expect commandChecks
      let c ← command n
      return c :: (← pipeRest n)
    else
      giveBack
      return []

/-- Takes a list that is not empty, unless the script ends there. -/
def body : Nat → Reading Command
  | 0 => fail "script too deep"
  | n + 1 => do
    return (← list n .body true none).getD default

/-- Takes a token that must be a given one. -/
def must : Nat → Token → Reading Unit
  | 0, _ => fail "script too deep"
  | n + 1, wanted => do
    let t ← token n
    if t ≠ wanted then expecting wanted

def command : Nat → Reading Command
  | 0 => fail "script too deep"
  | n + 1 => do
    let line := (← get).line
    let t ← token n
    match t with
    | .keyword "if" =>
      let c ← choice n
      withRedirs n line c
    | .keyword "while" =>
      let test ← body n
      must n (.keyword "do")
      let c ← body n
      must n (.keyword "done")
      withRedirs n line (.loop false test c)
    | .keyword "until" =>
      let test ← body n
      must n (.keyword "do")
      let c ← body n
      must n (.keyword "done")
      withRedirs n line (.loop true test c)
    | .keyword "for" =>
      let c ← forEach n line
      withRedirs n line c
    | .keyword "case" =>
      let c ← switch n line
      withRedirs n line c
    | .opening =>
      let c ← body n
      must n .closing
      withRedirs n line (.subshell line c [])
    | .keyword "\x7b" =>
      let c ← body n
      must n (.keyword "\x7d")
      withRedirs n line c
    | .word | .redirection =>
      giveBack
      simple n line true [] [] []
    | _ => unexpected

/-- Takes what follows the keyword of a choice, and its end. -/
def choice : Nat → Reading Command
  | 0 => fail "script too deep"
  | n + 1 => do
    let test ← body n
    must n (.keyword "then")
    let yes ← body n
    let t ← token n
    match t with
    | .keyword "elif" => return .choice test yes (some (← choice n))
    | .keyword "else" =>
      let no ← body n
      must n (.keyword "fi")
      return .choice test yes (some no)
    | .keyword "fi" => return .choice test yes none
    | _ => expecting (.keyword "fi")

/-- Takes words up to another token. -/
def words : Nat → Reading (List Word)
  | 0 => fail "script too deep"
  | n + 1 => do
    let t ← token n
    if t = .word then
      let w := (← get).word
      return w :: (← words n)
    else return []

/-- Takes what follows the keyword of a loop over words. -/
def forEach : Nat → Nat → Reading Command
  | 0, _ => fail "script too deep"
  | n + 1, line => do
    let t ← token n
    let r ← get
    let name := (Word.text? r.word).getD []
    if t ≠ .word ∨ r.isQuoted ∨ ¬ Narrow.isName name then fail "Bad for loop variable"
    expect commandChecks
    let t ← token n
    let ws ←
      if t = .keyword "in" then do
        let ws ← words n
        let t := (← get).token
        if t ≠ .newline ∧ t ≠ .semicolon then unexpected
        pure ws
      else do
        if t ≠ .semicolon then giveBack
        pure [allParams]
    expect commandChecks
    must n (.keyword "do")
    let c ← body n
    must n (.keyword "done")
    return .each line name ws c

/-- Takes the patterns of a case, up to the parenthesis. -/
def patterns : Nat → Reading (List Word)
  | 0 => fail "script too deep"
  | n + 1 => do
    let w := (← get).word
    let t ← token n
    if t = .bar then
      let _ ← token n
      return w :: (← patterns n)
    else
      if t ≠ .closing then expecting .closing
      return [w]

/-- Takes the cases of a switch, up to its end. -/
def cases : Nat → Reading (List (List Word × Option Command))
  | 0 => fail "script too deep"
  | n + 1 => do
    expect { lines := true, keywords := true }
    let t ← token n
    if t = .keyword "esac" then return []
    if t = .opening then
      let _ ← token n
    let ps ← patterns n
    let c ← list n .inside true none
    expect { lines := true, keywords := true }
    let t ← token n
    if t = .keyword "esac" then return [(ps, c)]
    if t ≠ .caseEnd then expecting .caseEnd
    return (ps, c) :: (← cases n)

/-- Takes what follows the keyword of a switch. -/
def switch : Nat → Nat → Reading Command
  | 0, _ => fail "script too deep"
  | n + 1, line => do
    must n .word
    let w := (← get).word
    expect commandChecks
    must n (.keyword "in")
    return .switch line w (← cases n)

/-- Takes the word behind a redirection. -/
def redirTarget : Nat → Redir → Reading Redir
  | 0, _ => fail "script too deep"
  | n + 1, redir => do
    match redir with
    | .document fd number stripsTabs =>
      expect { mark := true }
      let t ← token n
      if t ≠ .word then unexpected
      let r ← get
      let d : PendingDocument :=
        { number, mark := Word.letters r.word, stripsTabs, literal := r.isQuoted }
      set { r with pending := r.pending ++ [d] }
      return .document fd number r.isQuoted
    | redir =>
      let t ← token n
      if t ≠ .word then unexpected
      return redir.withWord (← get).word

/-- Takes redirections up to another token. -/
def redirs : Nat → Reading (List Redir)
  | 0 => fail "script too deep"
  | n + 1 => do
    let t ← token n
    if t = .redirection then
      let r ← redirTarget n (← get).redir
      return r :: (← redirs n)
    else
      giveBack
      return []

/-- Takes the redirections behind a command. -/
def withRedirs : Nat → Nat → Command → Reading Command
  | 0, _, _ => fail "script too deep"
  | n + 1, line, c => do
    expect { keywords := true, aliases := true }
    let rs ← redirs n
    match c, rs with
    | c, [] => return c
    | .subshell line body _, rs => return .subshell line body rs
    | c, rs => return .redir line c rs

/-- Takes a command of words behind those parts of it that were taken already, the latest first. -/
def simple : Nat → Nat → Bool → List Word → List Word → List Redir → Reading Command
  | 0, _, _, _, _, _ => fail "script too deep"
  | n + 1, line, isFront, assigns, ws, rs => do
    expect { aliases := isFront }
    let t ← token n
    match t with
    | .word =>
      let w := (← get).word
      if isFront ∧ w.isAssignment then simple n line true (w :: assigns) ws rs
      else simple n line false assigns (w :: ws) rs
    | .redirection =>
      let r ← redirTarget n (← get).redir
      simple n line isFront assigns ws (r :: rs)
    | _ =>
      match t, assigns, ws, rs with
      | .opening, [], [w], [] =>
        must n .closing
        match Word.text? w with
        | some name =>
          if ¬ Narrow.isName name ∨ specialNames.contains (String.ofList name) then
            fail "Bad function name"
          expect commandChecks
          let line := (← get).line
          return .define line name (← command n)
        | none => fail "Bad function name"
      | _, _, _, _ =>
        giveBack
        return .simple line assigns.reverse ws.reverse rs.reverse

end

/-- How deep a script may be nested. -/
def depthLimit : Nat := 1000000

/-- Takes the commands of a line. At the end of the text there are none. -/
def takeLine : Reading (Option (Option Command)) := do
  modify fun r => { r with again := false, checks := {}, pending := [] }
  let c ← list depthLimit .line true none
  let r ← get
  return if c.isNone ∧ r.token = .endOfText then none else some c

end Shell
end CjsxConversion
