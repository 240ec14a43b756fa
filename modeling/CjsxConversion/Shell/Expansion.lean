import CjsxConversion.Shell.Arithmetic
import CjsxConversion.Shell.Fields
import CjsxConversion.Shell.State

/-!
# What words become

Before a command is run, the pieces of its words are replaced: a parameter by its value, a command
by what it writes, an arithmetic expression by its result. Then the words are split into fields, and
fields that are patterns become the paths that match them.

Commands in words are run by a given function, which tells what they write.
-/

namespace CjsxConversion
namespace Shell

/-- How a word is used. -/
structure Manner where
  full : Bool := false
  quoted : Bool := false
  inParam : Bool := false
  home : Bool := false
  homes : Bool := false
  assigned : Bool := false
  deriving Repr, Inhabited

def homeOf (s : State) (user : Narrow) : Option Narrow :=
  if user = [] then s.value? "HOME".toList
  else if user = "root".toList then some "/root".toList
  else none

/-- The characters behind the mark of a home directory, up to the end of the name, and what follows
them. Nothing in the name may be quoted. -/
def homeName (homes : Bool) : Word → Option (Narrow × Word)
  | [] => some ([], [])
  | .char c :: w =>
    if c = '/' ∨ (homes ∧ c = ':') then some ([], .char c :: w)
    else (homeName homes w).map fun r => (c :: r.1, r.2)
  | _ :: _ => none

/-- The plain characters at the front of a word, up to one behind which a home directory may
stand. -/
def plainRun (homes assigned : Bool) : Word → Narrow
  | .char c :: w =>
    if homes ∧ (c = ':' ∨ (c = '=' ∧ ¬ assigned)) then [c] else c :: plainRun homes assigned w
  | _ => []

/-- The quoted characters at the front of a word. -/
def quotedRun : Word → Narrow
  | .quoted c :: w => c :: quotedRun w
  | _ => []

def cellsOf (quoted : Bool) (cs : Narrow) : List Cell := cs.map fun c => .letter c quoted

/-- Parameters one behind the other. -/
def joinParams (separator : List Cell) (quoted : Bool) (params : List Narrow) : List Cell :=
  List.intercalate separator (params.map (cellsOf quoted))

def valueCells (s : State) (full quoted : Bool) (name : Narrow) : Option (List Cell) :=
  let numeral (n : Nat) := some (cellsOf quoted (Narrow.ofNat n))
  let separator := match s.value? "IFS".toList with
    | none => [.letter ' ' quoted]
    | some [] => []
    | some (c :: _) => [.letter c quoted]
  match name with
  | ['$'] => numeral s.mainId
  | ['?'] => numeral s.status
  | ['#'] => numeral s.params.length
  | ['!'] => s.backgroundId.bind numeral
  | ['-'] => some (cellsOf quoted s.optionLetters)
  | ['@'] => some (joinParams (if full then [.gap] else separator) quoted s.params)
  | ['*'] => some (joinParams (if full && !quoted then [.gap] else separator) quoted s.params)
  | name =>
    if name.all Narrow.isDigit then
      match Narrow.digitsValue 10 name with
      | 0 => some (cellsOf quoted s.name)
      | n + 1 => s.params[n]?.map (cellsOf quoted)
    else (s.value? name).map (cellsOf quoted)

def Cell.char : Cell → Char
  | .letter c _ => c
  | _ => '\x00'

/-- A value without the front that matches a pattern. -/
def trimFront (longest : Bool) (pattern : List PatternPart) (cells : List Cell) : List Cell :=
  let text := cells.map Cell.char
  let counts := List.range (cells.length + 1)
  match (if longest then counts.reverse else counts).find? fun n =>
    matchesText pattern (text.take n) with
  | some n => cells.drop n
  | none => cells

/-- A value without the end that matches a pattern. -/
def trimEnd (longest : Bool) (pattern : List PatternPart) (cells : List Cell) : List Cell :=
  let text := cells.map Cell.char
  let counts := List.range (cells.length + 1)
  match (if longest then counts else counts.reverse).find? fun n =>
    matchesText pattern (text.drop n) with
  | some n => cells.take n
  | none => cells

/-- Fails for a parameter that is not set. -/
def failUnset {α : Type} (name : Narrow) (colon : Bool) : Sh α :=
  failAbout name (if colon then "parameter not set or null" else "parameter not set")

/-- The value of an arithmetic expression. -/
def compute (text : Narrow) : Sh Int := do
  let s ← get
  match Arithmetic.evaluate s.value? text with
  | .ok (n, assigned) =>
    for (name, v) in assigned do
      setVariable name (some (Narrow.ofInt v))
    return n
  | .error (.expression fault) =>
    failWith ("arithmetic expression: ".toList ++ fault.toList ++ ": \"".toList ++ text ++ ['"'])
  | .error (.number value) => failWith ("Illegal number: ".toList ++ value)

/-- A text without the ends of lines at its end. -/
def chompAll (cs : Narrow) : Narrow := (cs.reverse.dropWhile (· = '\n')).reverse

/-- How large words may be. -/
def wordLimit : Nat := 10000000

mutual

/-- What a word becomes. The bound is larger than the word. -/
def expandPieces (back : Option Command → Sh Narrow) :
    Nat → Manner → Bool → Bool → Word → Sh (List Stretch)
  | 0, _, _, _, _ => return []
  | _ + 1, _, _, _, [] => return []
  | n + 1, m, inQuotes, atHome, p :: w => do
    let quoted : Bool := m.quoted || inQuotes
    match p with
    | .char c =>
      let s ← get
      let home? : Option (Narrow × Word) :=
        if atHome && c = '~' then
          (homeName m.homes w).bind fun r => (homeOf s r.1).map fun dir => (dir, r.2)
        else none
      match home? with
      | some (dir, rest) =>
        return ⟨.whole, cellsOf true dir⟩ :: (← expandPieces back n m inQuotes false rest)
      | none =>
        let cs := plainRun m.homes m.assigned (p :: w)
        let zone : Zone := if m.inParam && !quoted then .fields else .whole
        let last := cs.getLast?
        let again : Bool := m.homes && (last = some ':' || (last = some '=' && !m.assigned))
        let m := { m with assigned := m.assigned || (again && last = some '=') }
        let rest := (p :: w).drop cs.length
        return ⟨zone, cellsOf false cs⟩ :: (← expandPieces back n m inQuotes again rest)
    | .quoted _ =>
      let cs := quotedRun (p :: w)
      let rest := (p :: w).drop cs.length
      return ⟨.whole, cellsOf true cs⟩ :: (← expandPieces back n m inQuotes false rest)
    | .mark =>
      match inQuotes, w with
      | false, .param ['@'] .plain false [] :: .mark :: rest =>
        let front ← expandParam back n { m with quoted := true } ['@'] .plain false []
        return front ++ (← expandPieces back n m false false rest)
      | _, w => return ⟨.whole, [.mark]⟩ :: (← expandPieces back n m (!inQuotes) false w)
    | .param name use colon word =>
      let front ← expandParam back n { m with quoted } name use colon word
      return front ++ (← expandPieces back n m inQuotes false w)
    | .command body =>
      let text ← back body
      let cells := cellsOf quoted ((chompAll text).filter (· ≠ '\x00'))
      let rest ← expandPieces back n m inQuotes false w
      return ⟨if quoted then .whole else .fields, cells⟩ :: rest
    | .arith word =>
      let stretches ← expandPieces back n {} false false word
      let v ← compute (textOfAll stretches)
      let rest ← expandPieces back n m inQuotes false w
      return ⟨if quoted then .whole else .fields, cellsOf quoted (Narrow.ofInt v)⟩ :: rest

/-- What a parameter becomes. -/
def expandParam (back : Option Command → Sh Narrow) :
    Nat → Manner → Narrow → ParamUse → Bool → Word → Sh (List Stretch)
  | 0, _, _, _, _, _ => return []
  | n + 1, m, name, use, colon, word => do
    if use = .senseless then failWith "Bad substitution".toList
    let s ← get
    let value? := valueCells s m.full m.quoted name
    let value? := if colon ∧ value? = some [] then none else value?
    let put (s : State) (cells : List Cell) : List Stretch :=
      let zone : Zone :=
        if !m.quoted then .fields
        else if name = ['@'] ∧ s.params ≠ [] then .params
        else .whole
      [⟨zone, cells⟩]
    let inner : Manner := { m with home := true, inParam := true }
    match use, value? with
    | .orWord, none => expandPieces back n inner false true word
    | .ifSet, none => return []
    | .ifSet, some _ => expandPieces back n inner false true word
    | .orAssign, none =>
      let text := textOfAll (← expandPieces back n { home := true } false true word)
      assign name text
      let s ← get
      return put s ((valueCells s m.full m.quoted name).getD [])
    | .orFail, none =>
      let text := textOfAll (← expandPieces back n { home := true } false true word)
      if word.isEmpty then failUnset name colon
      failWith (name ++ ": ".toList ++ text)
    | use, none =>
      if s.has 'u' then failUnset name false
      if use = .length then return put s (cellsOf m.quoted ['0'])
      return []
    | .length, some cells =>
      return put s (cellsOf m.quoted (Narrow.ofNat cells.length))
    | .trimFront longest, some cells =>
      let letters := lettersOf
        ((← expandPieces back n { home := true } false true word).flatMap (·.cells))
      return put s (trimFront longest (patternOf letters) cells)
    | .trimEnd longest, some cells =>
      let letters := lettersOf
        ((← expandPieces back n { home := true } false true word).flatMap (·.cells))
      return put s (trimEnd longest (patternOf letters) cells)
    | _, some cells => return put s cells

end

def expandWord (back : Option Command → Sh Narrow) (m : Manner) (w : Word) : Sh (List Stretch) :=
  expandPieces back wordLimit m false m.home w

/-- What a word becomes that is not split. -/
def expandText (back : Option Command → Sh Narrow) (m : Manner) (w : Word) : Sh Narrow :=
  return textOfAll (← expandWord back m w)

def expandPattern (back : Option Command → Sh Narrow) (w : Word) : Sh (List PatternPart) :=
  return patternOf (lettersOf ((← expandWord back { home := true } w).flatMap (·.cells)))

def expandField (s : State) (t : FileTree) (cells : List Cell) : List Narrow :=
  let letters := lettersOf cells
  let text := letters.map (·.1)
  if s.has 'f' ∨ isPattern letters = false then [text]
  else
    match pathsOf t s.proc.here letters with
    | [] => [text]
    | paths => paths

def expandFields (back : Option Command → Sh Narrow) (w : Word) : Sh (List Narrow) := do
  let stretches ← expandWord back { full := true, home := true } w
  let s ← get
  let t := (← act get).files
  return (splitFields s.separators none stretches).flatMap (expandField s t)

/-- The fields that words become. -/
def expandAll (back : Option Command → Sh Narrow) : List Word → Sh (List Narrow)
  | [] => return []
  | w :: ws => do
    let front ← expandFields back w
    return front ++ (← expandAll back ws)

end Shell
end CjsxConversion
