import CjsxConversion.Pattern.Regex

/-!
# Regular expressions as they are written

A regular expression is written in one of two forms. In the basic form, groups, bounds and
alternatives have a backslash; in the extended form they have none.

What is wrong with an expression has one message, whichever form it has.
-/

namespace CjsxConversion

/-- What is wrong with a regular expression. -/
inductive RegexFault where
  | nothingToRepeat
  | openGroup
  | closedGroup
  | openSet
  | noSet
  | badClass
  | badRange
  | badCollation
  | openBound
  | badBound
  | tooBig
  | badReference
  | trailingBackslash
  deriving DecidableEq, Repr

namespace RegexFault

def message : RegexFault → String
  | .nothingToRepeat => "Invalid preceding regular expression"
  | .openGroup => "Unmatched ( or \\("
  | .closedGroup => "Unmatched ) or \\)"
  | .openSet => "Unmatched [, [^, [:, [., or [="
  | .noSet => "Invalid regular expression"
  | .badClass => "Invalid character class name"
  | .badRange => "Invalid range end"
  | .badCollation => "Invalid collation character"
  | .openBound => "Unmatched \\\x7b"
  | .badBound => "Invalid content of \\\x7b\\\x7d"
  | .tooBig => "Regular expression too big"
  | .badReference => "Invalid back reference"
  | .trailingBackslash => "Trailing backslash"

end RegexFault

namespace RegexText

/-- A token of an expression. -/
inductive Token where
  | char (c : Char)
  | any
  | opens
  | closes
  | bar
  | repeats (mark : Char) (least : Nat) (most : Option Nat)
  | bound
  | set
  | place (a : Assertion)
  | back (n : Nat)
  | named (s : CharSet)
  | ending
  deriving Repr

/-- How far reading has come. In the basic form a caret is a requirement only at some places. -/
structure Reader where
  rest : Narrow
  caret : Bool := true
  opened : Nat := 0
  closed : List Nat := []
  deriving Repr

/-- What reads a part of an expression. -/
abbrev Reading := StateT Reader (Except RegexFault)

def wordSet (negated : Bool) : CharSet := ⟨negated, [.named "alnum".toList, .one '_']⟩

def spaceSet (negated : Bool) : CharSet := ⟨negated, [.named "space".toList]⟩

/-- What a character after a backslash means in either form. -/
def escaped (c : Char) : Token :=
  match c with
  | '\x60' => .place .textStart
  | '\'' => .place .textEnd
  | 'b' => .place .wordEdge
  | 'B' => .place .noWordEdge
  | '<' => .place .wordStart
  | '>' => .place .wordEnd
  | 'w' => .named (wordSet false)
  | 'W' => .named (wordSet true)
  | 's' => .named (spaceSet false)
  | 'S' => .named (spaceSet true)
  | c => if '1' ≤ c ∧ c ≤ '9' then .back (c.toNat - '0'.toNat) else .char c

/-- The operator that a character stands for: with a backslash in the basic form, without one in
the extended form. -/
def operator? (c : Char) : Option Token :=
  match c with
  | '(' => some .opens
  | ')' => some .closes
  | '|' => some .bar
  | '+' => some (.repeats '+' 1 none)
  | '?' => some (.repeats '?' 0 (some 1))
  | '\x7b' => some .bound
  | _ => none

/-- Whether a dollar in the basic form ends a line, given what follows it. -/
def endsBasic (cs : Narrow) : Bool :=
  match cs with
  | [] => true
  | '\\' :: c :: _ => c = ')' || c = '|'
  | _ => false

/-- The token at the start of a text, and what follows it. -/
def token (extended caret : Bool) (cs : Narrow) : Except RegexFault (Token × Narrow) :=
  match cs with
  | [] => .ok (.ending, [])
  | ['\\'] => .error .trailingBackslash
  | '\\' :: c :: rest =>
    if extended then .ok (if (operator? c).isSome then .char c else escaped c, rest)
    else .ok ((operator? c).getD (escaped c), rest)
  | '.' :: rest => .ok (.any, rest)
  | '*' :: rest => .ok (.repeats '*' 0 none, rest)
  | '[' :: rest => .ok (.set, rest)
  | '^' :: rest => .ok (if extended || caret then .place .lineStart else .char '^', rest)
  | '$' :: rest => .ok (if extended || endsBasic rest then .place .lineEnd else .char '$', rest)
  | c :: rest => .ok (if extended then (operator? c).getD (.char c) else .char c, rest)

/-- The token that comes next. -/
def peek (extended : Bool) : Reading Token := do
  let r ← get
  return (← token extended r.caret r.rest).1

def take (extended caret : Bool) : Reading Token := do
  let r ← get
  let (t, rest) ← token extended r.caret r.rest
  set { r with rest, caret }
  return t

/-! ### Sets -/

/-- What stands before a mark and a closing bracket, and what follows them. -/
def upToMark (mark : Char) : Narrow → Option (Narrow × Narrow)
  | a :: b :: rest =>
    if a = mark ∧ b = ']' then some ([], rest)
    else (upToMark mark (b :: rest)).map fun r => (a :: r.1, r.2)
  | _ => none

/-- The part of a set at the start of a text, and what follows it. -/
def readItem (cs : Narrow) : Except RegexFault (CharItem × Narrow) :=
  match cs with
  | [] => .error .openSet
  | '[' :: m :: rest =>
    if m = ':' then
      match upToMark m rest with
      | none => .error .openSet
      | some (name, rest) =>
        if (Narrow.class? name).isSome then .ok (.named name, rest) else .error .badClass
    else if m = '=' ∨ m = '.' then
      match upToMark m rest with
      | none => .error .openSet
      | some ([c], rest) => .ok (.one c, rest)
      | some _ => .error .badCollation
    else .ok (.one '[', m :: rest)
  | c :: rest => .ok (.one c, rest)

/-- The range from a part of a set to another one. -/
def rangeOf (a b : CharItem) : Except RegexFault CharItem :=
  match a, b with
  | .one a, .one b => if b.toNat < a.toNat then .error .badRange else .ok (.range a b)
  | _, _ => .error .badRange

/-- The parts of a set up to its closing bracket, and what follows it. The bound is the length of
the text. -/
def readItems : Nat → Bool → Narrow → Except RegexFault (List CharItem × Narrow)
  | 0, _, _ => .error .openSet
  | n + 1, first, cs => do
    match first, cs with
    | _, [] => .error .openSet
    | false, ']' :: rest => return ([], rest)
    | false, ['-'] => .error .openSet
    | false, '-' :: c :: _ => if c ≠ ']' then .error .badRange
    | _, _ => pure ()
    let (item, rest) ← readItem cs
    match rest with
    | '-' :: ']' :: _ =>
      let (items, rest) ← readItems n false rest
      return (item :: items, rest)
    | '-' :: rest =>
      let (last, rest) ← readItem rest
      let range ← rangeOf item last
      let (items, rest) ← readItems n false rest
      return (range :: items, rest)
    | rest =>
      let (items, rest) ← readItems n false rest
      return (item :: items, rest)

/-- The set after an opening bracket, and what follows it. -/
def readSet (cs : Narrow) : Except RegexFault (CharSet × Narrow) := do
  let (negated, cs) := match cs with
    | '^' :: rest => (true, rest)
    | cs => (false, cs)
  if cs = [] then .error .noSet
  let (items, rest) ← readItems (cs.length + 1) true cs
  return (⟨negated, items⟩, rest)

/-! ### Bounds -/

/-- The most often that something may be repeated. -/
def mostRepeats : Nat := 32767

/-- What ends a number of a bound. -/
inductive BoundStop where
  | comma
  | closing
  | endOfText
  deriving DecidableEq, Repr

/-- The digits of a bound up to what ends them, and what follows it. -/
def spanBound (extended : Bool) : Narrow → Narrow × BoundStop × Narrow
  | [] => ([], .endOfText, [])
  | ',' :: rest => ([], .comma, rest)
  | '\\' :: '\x7d' :: rest =>
    if extended then
      let (ds, stop, rest) := spanBound extended rest
      ('\\' :: ds, stop, rest)
    else ([], .closing, rest)
  | c :: rest =>
    if c = '\x7d' ∧ extended then ([], .closing, rest)
    else
      let (ds, stop, rest) := spanBound extended rest
      (c :: ds, stop, rest)

/-- The numbers of a bound, and what follows it. -/
def readBound (extended : Bool) (cs : Narrow) :
    Except RegexFault ((Nat × Option Nat) × Narrow) := do
  let refuse (stop : BoundStop) : Except RegexFault Unit :=
    .error (if stop = .endOfText then .openBound else .badBound)
  let (ds, stop, rest) := spanBound extended cs
  if stop = .endOfText ∨ !ds.all Narrow.isDigit then refuse stop
  if ds = [] ∧ stop = .closing then throw .badBound
  let least := Narrow.digitsValue 10 ds
  if stop = .closing then
    if mostRepeats < least then throw .tooBig
    return ((least, some least), rest)
  let (es, stop, rest) := spanBound extended rest
  if stop = .endOfText ∨ !es.all Narrow.isDigit then refuse stop
  let most := if es = [] then none else some (Narrow.digitsValue 10 es)
  if stop = .comma ∨ most.any fun m => m < least then throw .badBound
  if mostRepeats < most.getD least then throw .tooBig
  return ((least, most), rest)

/-! ### Expressions -/

/-- An expression with the repetitions behind it. The bound is the length of the text. -/
def readRepeats (extended : Bool) : Nat → Regex → Reading Regex
  | 0, r => return r
  | n + 1, r => do
    match ← peek extended with
    | .repeats _ least most =>
      let _ ← take extended false
      again n (.times r least most)
    | .bound =>
      let _ ← take extended false
      let s ← get
      let ((least, most), rest) ← readBound extended s.rest
      set { s with rest, caret := false }
      again n (.times r least most)
    | _ => return r
where
  /-- Goes on behind a repetition, which the basic form does not repeat. -/
  again (n : Nat) (r : Regex) : Reading Regex := do
    if !extended then
      match ← peek extended with
      | .repeats '*' _ _ | .bound => throw .nothingToRepeat
      | _ => pure ()
    readRepeats extended n r

def endsBranch (nested : Bool) (t : Token) : Bool :=
  match t with
  | .bar | .ending => true
  | .closes => nested
  | _ => false

/-- What reads alternatives inside a group. -/
abbrev Inner := Reading Regex

/-- One expression with its repetitions. -/
def readOne (extended : Bool) (inner : Inner) (bound : Nat) : Reading Regex := do
  let t ← peek extended
  match t with
  | .place a =>
    let _ ← take extended true
    return .place a
  | .opens =>
    let _ ← take extended true
    modify fun s => { s with opened := s.opened + 1 }
    let n := (← get).opened
    let r ← inner
    match ← peek extended with
    | .closes =>
      let _ ← take extended false
      modify fun s => { s with closed := n :: s.closed }
      readRepeats extended bound (.group n r)
    | _ => throw .openGroup
  | .repeats c _ _ =>
    if extended then throw .nothingToRepeat
    let _ ← take extended false
    readRepeats extended bound (.char c)
  | .bound => throw .nothingToRepeat
  | .closes => throw .closedGroup
  | .bar | .ending => return .empty
  | .set =>
    let _ ← take extended false
    let s ← get
    let (set', rest) ← readSet s.rest
    set { s with rest }
    readRepeats extended bound (.oneOf set')
  | .back n =>
    if !(← get).closed.contains n then throw .badReference
    let _ ← take extended false
    readRepeats extended bound (.back n)
  | .any =>
    let _ ← take extended false
    readRepeats extended bound .any
  | .named s =>
    let _ ← take extended false
    readRepeats extended bound (.oneOf s)
  | .char c =>
    let _ ← take extended false
    readRepeats extended bound (.char c)

/-- Expressions one after the other. The bound is the length of the text. -/
def readBranch (extended nested : Bool) (inner : Inner) : Nat → Reading Regex
  | 0 => return .empty
  | n + 1 => do
    if endsBranch nested (← peek extended) then return .empty
    let first ← readOne extended inner n
    if endsBranch nested (← peek extended) then return first
    return .cat first (← readBranch extended nested inner n)

/-- Further alternatives behind a branch. Each one can refer to the groups that were closed before
the first one, and not to those of the others. The bound is the length of the text. -/
def readMore (extended nested : Bool) (inner : Inner) (before : List Nat) :
    Nat → Regex → Reading Regex
  | 0, r => return r
  | n + 1, r => do
    match ← peek extended with
    | .bar =>
      let _ ← take extended true
      let closed := (← get).closed
      modify fun s => { s with closed := before }
      let next ← readBranch extended nested inner n
      modify fun s => { s with closed := s.closed ++ closed }
      readMore extended nested inner before n (.alt r next)
    | _ => return r

/-- Alternatives. The bound is the depth of groups. -/
def readAll (extended : Bool) (bound : Nat) : Nat → Bool → Reading Regex
  | 0, _ => throw .openGroup
  | depth + 1, nested => do
    let inner := readAll extended bound depth true
    let before := (← get).closed
    let first ← readBranch extended nested inner bound
    readMore extended nested inner before bound first

/-- Reads an expression. Tells how many groups it has, too. -/
def read (extended : Bool) (cs : Narrow) : Except RegexFault (Regex × Nat) := do
  let bound := cs.length + 1
  let (r, s) ← (readAll extended bound bound false).run { rest := cs }
  return (r, s.opened)

end RegexText
end CjsxConversion
