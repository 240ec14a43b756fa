import CjsxConversion.Pattern.CharSet

/-!
# Regular expressions

A regular expression matches a stretch of a text. Of several stretches the leftmost counts, and of
those the longest.

A set of places in a text is kept as the binary digits of a number: the digit of weight
`2 ^ i` tells whether the place before the `i`-th character is in the set. `Placed.ends` takes the
places where a match may begin to those where it may end, `Placed.starts` goes the other way; each
walks over the expression once, whatever the text is.

What the groups of an expression have matched is found by walking along the stretch,
with the first alternative and the longest repetition first. An expression that refers back to its
groups is only walked along.
-/

namespace CjsxConversion

/-- What may be required of a place. -/
inductive Assertion where
  | lineStart
  | lineEnd
  | textStart
  | textEnd
  | wordEdge
  | noWordEdge
  | wordStart
  | wordEnd
  deriving DecidableEq, Repr

/-- A regular expression. -/
inductive Regex where
  | empty
  | char (c : Char)
  | any
  | oneOf (s : CharSet)
  | place (a : Assertion)
  | group (n : Nat) (r : Regex)
  | cat (a b : Regex)
  | alt (a b : Regex)
  | times (r : Regex) (least : Nat) (most : Option Nat)
  | back (n : Nat)
  deriving Repr, Inhabited

/-- How a regular expression is matched. -/
structure MatchMode where
  anyCase : Bool := false
  byLine : Bool := false
  deriving DecidableEq, Repr

/-- A stretch of a text: where it begins and where it ends. -/
abbrev Stretch := Nat × Nat

/-- A match: the whole stretch, and the stretches of the groups by number. -/
structure RegexMatch where
  whole : Stretch
  groups : List (Nat × Stretch)
  deriving DecidableEq, Repr

namespace RegexMatch

def group? (m : RegexMatch) (n : Nat) : Option Stretch :=
  if n = 0 then some m.whole else (m.groups.find? fun e => e.1 = n).map (·.2)

end RegexMatch

def Regex.inWord (c : Char) : Bool := Narrow.isAlnum c || c = '_'

/-- Whether an assertion holds between two characters. -/
def Assertion.holds (a : Assertion) (mode : MatchMode)
    (before after : Option Char) : Bool :=
  let left := before.any Regex.inWord
  let right := after.any Regex.inWord
  match a with
  | .lineStart => before = none || (mode.byLine && before = some '\n')
  | .lineEnd => after = none || (mode.byLine && after = some '\n')
  | .textStart => before = none
  | .textEnd => after = none
  | .wordEdge => left != right
  | .noWordEdge => left == right
  | .wordStart => !left && right
  | .wordEnd => left && !right

namespace Regex

/-- Whether an expression refers back to its groups. -/
def refersBack : Regex → Bool
  | .back _ => true
  | .group _ r => r.refersBack
  | .cat a b => a.refersBack || b.refersBack
  | .alt a b => a.refersBack || b.refersBack
  | .times r _ _ => r.refersBack
  | _ => false

def hasGroups : Regex → Bool
  | .group _ _ => true
  | .cat a b => a.hasGroups || b.hasGroups
  | .alt a b => a.hasGroups || b.hasGroups
  | .times r _ _ => r.hasGroups
  | _ => false

/-- Whether a single character is matched. -/
def takes (mode : MatchMode) (r : Regex) (c : Char) : Bool :=
  match r with
  | .char d => c = d || (mode.anyCase && Narrow.toLower c = Narrow.toLower d)
  | .any => !(mode.byLine && c = '\n')
  | .oneOf s =>
    (if mode.anyCase then s.memAnyCase c else s.mem c) && !(mode.byLine && s.negated && c = '\n')
  | _ => false

/-! ### Sets of places -/

/-- The places before characters that pass a test. -/
def placesOf (test : Char → Bool) (text : Narrow) : Nat :=
  text.foldr (fun c places => 2 * places + if test c then 1 else 0) 0

/-- The places at which an assertion holds, given the character before the text. -/
def placesWhere (mode : MatchMode) (a : Assertion) : Option Char → Narrow → Nat
  | before, [] => if a.holds mode before none then 1 else 0
  | before, c :: cs =>
    2 * placesWhere mode a (some c) cs + if a.holds mode before (some c) then 1 else 0

/-- An expression as a text shows it: each part with the places where it can be. -/
inductive Placed where
  | empty
  | step (places : Nat)
  | stay (places : Nat)
  | cat (a b : Placed)
  | alt (a b : Placed)
  | times (r : Placed) (least : Nat) (most : Option Nat)

/-- An expression as a text shows it. -/
def placed (mode : MatchMode) (text : Narrow) : Regex → Placed
  | .empty | .back _ => .empty
  | .group _ r => placed mode text r
  | .cat a b => .cat (placed mode text a) (placed mode text b)
  | .alt a b => .alt (placed mode text a) (placed mode text b)
  | .times r least most => .times (placed mode text r) least most
  | .place a => .stay (placesWhere mode a none text)
  | r => .step (placesOf (takes mode r) text)

/-- Repeats a growth of a set of places as long as it grows. The bound is the number of places. -/
def grow (f : Nat → Nat) : Nat → Nat → Nat
  | 0, places => places
  | n + 1, places =>
    let more := places ||| f places
    if more = places then places else grow f n more

/-- Moves a set of places on by steps of one place, as far as they are allowed: first by one step,
then by two, by four and so on. -/
def spread (shift : Nat → Nat → Nat) : Nat → Nat → Nat → Nat → Nat
  | 0, _, _, places => places
  | n + 1, width, allowed, places =>
    spread shift n (2 * width) (allowed &&& shift allowed width)
      (places ||| (allowed &&& shift places width))

/-- Applies a function so many times. -/
def applied (f : Nat → Nat) : Nat → Nat → Nat
  | 0, places => places
  | n + 1, places => applied f n (f places)

/-- The places that are reached by repeating a step, given those that are reached by repeating it
without a limit. -/
def repeatedly (f endless : Nat → Nat) (bound least : Nat) (most : Option Nat) (places : Nat) : Nat :=
  let first := applied f least places
  match most with
  | none => endless first
  | some m => grow f (min bound (m - least)) first

namespace Placed

/-- Where matches may end that begin at given places. The bound is the number of places. -/
def ends (bound : Nat) : Placed → Nat → Nat
  | .empty, places => places
  | .cat a b, places => ends bound b (ends bound a places)
  | .alt a b, places => ends bound a places ||| ends bound b places
  | .stay at', places => places &&& at'
  | .step at', places => (places &&& at') <<< 1
  | .times (.step at') least most, places =>
    repeatedly (fun places => (places &&& at') <<< 1)
      (spread (· <<< ·) (bound.log2 + 1) 1 (at' <<< 1)) bound least most places
  | .times r least most, places =>
    repeatedly (ends bound r) (grow (ends bound r) bound) bound least most places

/-- Where matches may begin that end at given places. The bound is the number of places. -/
def starts (bound : Nat) : Placed → Nat → Nat
  | .empty, places => places
  | .cat a b, places => starts bound a (starts bound b places)
  | .alt a b, places => starts bound a places ||| starts bound b places
  | .stay at', places => places &&& at'
  | .step at', places => (places >>> 1) &&& at'
  | .times (.step at') least most, places =>
    repeatedly (fun places => (places >>> 1) &&& at')
      (spread (· >>> ·) (bound.log2 + 1) 1 at') bound least most places
  | .times r least most, places =>
    repeatedly (starts bound r) (grow (starts bound r) bound) bound least most places

end Placed

def first? (places : Nat) : Option Nat :=
  if places = 0 then none else some (places ^^^ (places - 1)).log2

/-! ### Walking along a text -/

/-- What a walk may still do, and the best match that it has found. -/
structure Walk where
  steps : Nat
  best : Option RegexMatch := none

/-- A walk that may find what it looks for. -/
abbrev Walking := StateM Walk

/-- How a walk goes on from a place with some groups. -/
abbrev Onward := Nat → List (Nat × Stretch) → Walking Bool

/-- Takes a step, unless none may be taken any more. -/
def mayStep : Walking Bool := do
  let w ← get
  if w.steps = 0 then return false
  else
    set { w with steps := w.steps - 1 }
    return true

def hasAt (mode : MatchMode) (text : Array Char) (place : Nat) (part : List Char) : Bool :=
  part.zipIdx.all fun e =>
    match text[place + e.2]? with
    | some c => c = e.1 || (mode.anyCase && Narrow.toLower c = Narrow.toLower e.1)
    | none => false

/-- Walks along a text. The bound is the depth of the walk. -/
def walk (mode : MatchMode) (text : Array Char) :
    Nat → Regex → Nat → List (Nat × Stretch) → Onward → Walking Bool
  | 0, _, _, _, _ => return false
  | depth + 1, r, i, groups, onward => do
    if !(← mayStep) then return false
    match r with
    | .empty => onward i groups
    | .place a =>
      if a.holds mode (if i = 0 then none else text[i - 1]?) text[i]? then onward i groups
      else return false
    | .group n r =>
      walk mode text depth r i groups fun j inner =>
        if i = j ∧ (inner.find? fun e => e.1 = n).isSome then onward j groups
        else onward j ((n, (i, j)) :: inner)
    | .cat a b => walk mode text depth a i groups fun j groups => walk mode text depth b j groups onward
    | .alt a b =>
      let (a, b) := match a with
        | .empty => (b, a)
        | a => (a, b)
      if ← walk mode text depth a i groups onward then return true
      walk mode text depth b i groups onward
    | .times r least most =>
      if most = some 0 then onward i groups
      else
        let further : Onward := fun j groups =>
          if i = j ∧ least = 0 then return false
          else walk mode text depth (.times r (least - 1) (most.map (· - 1))) j groups onward
        if ← walk mode text depth r i groups further then return true
        if least = 0 then onward i groups else return false
    | .back n =>
      match groups.find? fun e => e.1 = n with
      | none => return false
      | some (_, (a, b)) =>
        let part := (text.extract a b).toList
        if hasAt mode text i part then onward (i + part.length) groups else return false
    | r =>
      match text[i]? with
      | some c => if takes mode r c then onward (i + 1) groups else return false
      | none => return false

/-- How many steps a walk may take. -/
def stepLimit : Nat := 400000

/-- A text in which an expression is looked for. -/
structure Search where
  mode : MatchMode
  regex : Regex
  shown : Placed
  text : Array Char
  begins : Nat

/-- A text in which an expression is to be looked for. -/
def searchIn (mode : MatchMode) (text : Narrow) (r : Regex) : Search :=
  let shown := placed mode text r
  let bound := text.length + 1
  { mode, regex := r, shown, text := text.toArray, begins := shown.starts bound (Nat.pow 2 bound - 1) }

namespace Search

/-- How deep a walk along the text may go. -/
def depth (s : Search) : Nat := 40 * (s.text.size + 8)

/-- The leftmost and longest stretch that begins at a place or behind it. -/
def stretch? (s : Search) (start : Nat) : Option Stretch :=
  (first? ((s.begins >>> start) <<< start)).map fun a =>
    (a, (s.shown.ends (s.text.size + 1) (Nat.pow 2 a)).log2)

def groupsOf (s : Search) (whole : Stretch) : List (Nat × Stretch) :=
  if s.regex.hasGroups then
    let goal : Onward := fun j groups => do
      if j = whole.2 then
        set { (← get) with best := some ⟨whole, groups⟩ }
        return true
      else return false
    let (_, w) := (walk s.mode s.text s.depth s.regex whole.1 [] goal).run { steps := stepLimit }
    (w.best.map (·.groups)).getD []
  else []

/-- The longest match that begins at a place, for an expression that refers back. -/
def longestAt (s : Search) (start : Nat) : Option RegexMatch :=
  let note : Onward := fun j groups => do
    let w ← get
    let better := match w.best with
      | none => true
      | some m => m.whole.2 < j
    if better then set { w with best := some ⟨(start, j), groups⟩ }
    return false
  let (_, w) := (walk s.mode s.text s.depth s.regex start [] note).run { steps := stepLimit }
  w.best

/-- The first match of an expression that refers back, from a place on. The bound is the number of
places. -/
def walkFrom (s : Search) : Nat → Nat → Option RegexMatch
  | 0, _ => none
  | n + 1, start =>
    match s.longestAt start with
    | some m => some m
    | none => walkFrom s n (start + 1)

/-- The first match from a place on. -/
def find? (s : Search) (start : Nat) : Option RegexMatch :=
  if s.regex.refersBack then s.walkFrom (s.text.size + 1 - start) start
  else (s.stretch? start).map fun whole => ⟨whole, s.groupsOf whole⟩

end Search

end Regex
end CjsxConversion
