import CjsxConversion.Host.Proc
import CjsxConversion.Utility.Options

/-!
# Translating characters

`tr` replaces characters by others, deletes them, or writes repeated ones once. The characters are
given by a set: single ones, ranges, classes, and one character repeated.

A set is spread out into cells, one for each of its characters. To translate, the
cells of two sets are put side by side; a class of letters of one case beside one of the other case
changes the case.
-/

namespace CjsxConversion
namespace Translate

/-- A character of a set as it is spelled. -/
structure Spelled where
  c : Char
  escaped : Bool := false
  deriving DecidableEq, Repr

/-- A part of a set. -/
inductive Element where
  | one (c : Char)
  | range (a b : Char)
  | named (name : Narrow)
  | like (c : Char)
  | repeated (c : Char) (times : Nat)
  deriving DecidableEq, Repr

/-- One character of a set that is spread out. It may begin an element, and belong to the class of
upper-case letters or to that of lower-case ones. -/
structure Cell where
  c : Char
  begins : Bool
  upper : Option Bool := none
  deriving DecidableEq, Repr

def allChars : Narrow := (List.range 256).map Char.ofNat

/-! ### Reading a set -/

/-- The characters that letters after a backslash stand for. -/
def letterEscapes : List (Char × Char) :=
  [('a', '\x07'), ('b', '\x08'), ('f', '\x0c'), ('n', '\n'), ('r', '\r'), ('t', '\t'),
   ('v', '\x0b')]

/-- The octal digits at the start of a text, three at most, and two if three say too much. -/
def octalStart (cs : Narrow) : Narrow :=
  let ds := (cs.take 3).takeWhile Narrow.isOctal
  if 255 < Narrow.digitsValue 8 ds then ds.take 2 else ds

/-- The characters that a text spells, and the warnings for it. The bound is its length. -/
def unescape : Nat → Narrow → List Spelled × List Narrow
  | 0, _ => ([], [])
  | _ + 1, [] => ([], [])
  | _ + 1, ['\\'] =>
    ([⟨'\\', false⟩], ["warning: an unescaped backslash at end of string is not portable".toList])
  | n + 1, '\\' :: c :: cs =>
    let ds := octalStart (c :: cs)
    if ds ≠ [] then
      let whole := ((c :: cs).take 3).takeWhile Narrow.isOctal
      let (after, warnings) := unescape n ((c :: cs).drop ds.length)
      (⟨Char.ofNat (Narrow.digitsValue 8 ds), true⟩ :: after,
        (if ds.length < whole.length then
          ["warning: the ambiguous octal escape \\".toList ++ whole
            ++ " is being\n\tinterpreted as the 2-byte sequence \\0".toList ++ ds ++ ", ".toList
            ++ whole.drop 2]
        else []) ++ warnings)
    else
      let (after, warnings) := unescape n cs
      let d := ((letterEscapes.find? fun e => e.1 = c).map (·.2)).getD c
      (⟨d, true⟩ :: after, warnings)
  | n + 1, c :: cs =>
    let (after, warnings) := unescape n cs
    (⟨c, false⟩ :: after, warnings)

/-- What stands before a mark and a closing bracket, and what follows them. -/
def upToClosing (mark : Char) : List Spelled → Option (Narrow × List Spelled)
  | a :: b :: rest =>
    if a = ⟨mark, false⟩ ∧ b = ⟨']', false⟩ then some ([], rest)
    else (upToClosing mark (b :: rest)).map fun r => (a.c :: r.1, r.2)
  | _ => none

/-- What stands before a closing bracket, and what follows it. -/
def upToBracket : List Spelled → Option (Narrow × List Spelled)
  | [] => none
  | a :: rest =>
    if a = ⟨']', false⟩ then some ([], rest)
    else if a.escaped then none
    else (upToBracket rest).map fun r => (a.c :: r.1, r.2)

/-- A repeated character after an opening bracket, and what follows it. -/
def readRepeat (cs : List Spelled) : Option (Except Narrow (Element × List Spelled)) :=
  match cs with
  | a :: star :: rest =>
    if star = ⟨'*', false⟩ then
      match upToBracket rest with
      | none => none
      | some (digits, rest) =>
        let base := if digits.head? = some '0' then 8 else 10
        if digits.all fun d => (Narrow.digit? base d).isSome then
          some (.ok (.repeated a.c (Narrow.digitsValue base digits), rest))
        else
          some (.error ("invalid repeat count ".toList ++ Quoting.phrase digits
            ++ " in [c*n] construct".toList))
    else none
  | _ => none

/-- Whether what follows a star and digits is a closing bracket. -/
def isStarred (cs : List Spelled) : Bool :=
  match cs with
  | star :: rest =>
    star = ⟨'*', false⟩ &&
      ((rest.dropWhile fun d => Narrow.isDigit d.c).head? = some ⟨']', false⟩)
  | [] => false

/-- A class after an opening bracket, and what follows it. -/
def readClass (mark : Char) (cs : List Spelled) :
    Option (Except Narrow (Element × List Spelled)) :=
  match upToClosing mark cs with
  | none => none
  | some (name, rest) =>
    if name = [] then
      some (.error (if mark = ':' then "missing character class name '[::]'".toList
        else "missing equivalence class character '[==]'".toList))
    else if mark = ':' then
      if (Narrow.class? name).isSome then some (.ok (.named name, rest))
      else if isStarred cs then none
      else some (.error ("invalid character class ".toList ++ Quoting.phrase name))
    else
      match name with
      | [c] => some (.ok (.like c, rest))
      | _ =>
        if isStarred cs then none
        else some (.error (name ++ ": equivalence class operand must be a single character".toList))

/-- What an opening bracket begins, and what follows it. -/
def readBracket (cs : List Spelled) : Option (Except Narrow (Element × List Spelled)) :=
  match cs with
  | m :: rest =>
    if (m.c = ':' ∨ m.c = '=') ∧ m.escaped = false then
      (readClass m.c rest).or (readRepeat cs)
    else readRepeat cs
  | [] => none

/-- A character as it is shown in a message. -/
def shownChar (c : Char) : Narrow :=
  if Narrow.isPrintable c then [c] else '\\' :: Quoting.octalDigits c

/-- The elements of a set. The bound is the number of its characters. -/
def readElements : Nat → List Spelled → Except Narrow (List Element)
  | 0, _ => .ok []
  | n + 1, a :: b :: d :: rest =>
    let single : Except Narrow (List Element) :=
      if b = ⟨'-', false⟩ then
        if d.c.toNat < a.c.toNat then
          .error ("range-endpoints of '".toList ++ shownChar a.c ++ ['-'] ++ shownChar d.c
            ++ "' are in reverse collating sequence order".toList)
        else (readElements n rest).map (.range a.c d.c :: ·)
      else (readElements n (b :: d :: rest)).map (.one a.c :: ·)
    if a = ⟨'[', false⟩ then
      match readBracket (b :: d :: rest) with
      | some (.ok (e, rest)) => (readElements n rest).map (e :: ·)
      | some (.error text) => .error text
      | none => single
    else single
  | _ + 1, few => .ok (few.map fun a => .one a.c)

/-- A set, and the warnings for its spelling. -/
def readSet (cs : Narrow) : Except Narrow (List Element) × List Narrow :=
  let (spelled, warnings) := unescape (cs.length + 1) cs
  (readElements (spelled.length + 1) spelled, warnings)

/-- The sets of words, up to the first one that makes no sense, with the warnings so far. -/
def readSets : List Narrow → Except Narrow (List (List Element)) × List Narrow
  | [] => (.ok [], [])
  | w :: ws =>
    match readSet w with
    | (.error text, warnings) => (.error text, warnings)
    | (.ok set, warnings) =>
      let (sets, more) := readSets ws
      (sets.map (set :: ·), warnings ++ more)

/-! ### Spreading out a set -/

def Element.cells : Element → List Cell
  | .one c => [⟨c, true, none⟩]
  | .range a b =>
    ((List.range (b.toNat + 1 - a.toNat)).map fun i =>
      ⟨Char.ofNat (a.toNat + i), i = 0, none⟩)
  | .named name =>
    let members := allChars.filter ((Narrow.class? name).getD fun _ => false)
    let upper := if name = "upper".toList then some true
      else if name = "lower".toList then some false else none
    members.zipIdx.map fun e => ⟨e.1, e.2 = 0, upper⟩
  | .like c => [⟨c, true, none⟩]
  | .repeated c n => (List.range n).map fun i => ⟨c, i = 0, none⟩

def cells (es : List Element) : List Cell := es.flatMap Element.cells

def Element.fills : Element → Bool
  | .repeated _ 0 => true
  | _ => false

/-- A set whose filling element fills it up to a length. -/
def filled (length : Nat) (es : List Element) : List Element :=
  let others := (cells es).length
  es.map fun e =>
    match e with
    | .repeated c 0 => .repeated c (length - others)
    | e => e

/-- The characters of a set. -/
def members (es : List Element) : Narrow := (cells es).map (·.c)

/-- The characters that a set does not have. -/
def others (es : List Element) : Narrow :=
  let present := members es
  allChars.filter fun c => !present.contains c

/-! ### Two sets side by side -/

/-- The cells behind the element to which the first cell belongs. -/
def skipElement (cs : List Cell) : List Cell :=
  (cs.drop 1).dropWhile fun c => !c.begins

/-- What replaces which character, in the order in which it is found, and the cells of the first
set that are left over. The bound is the number of cells. -/
def align : Nat → List Cell → List Cell → Except Narrow (List (Char × Char) × List Cell)
  | 0, left, _ => .ok ([], left)
  | _ + 1, left, [] => .ok ([], left)
  | _ + 1, [], b :: _ =>
    if b.begins ∧ b.upper.isSome then
      .error "misaligned [:upper:] and/or [:lower:] construct".toList
    else .ok ([], [])
  | n + 1, a :: left, b :: right =>
    match b.upper with
    | some upper =>
      if b.begins ∧ ¬ (a.begins ∧ a.upper.isSome) then
        .error "misaligned [:upper:] and/or [:lower:] construct".toList
      else
        (align n (skipElement (a :: left)) (skipElement (b :: right))).map fun r =>
          let changed :=
            if a.upper = some (!upper) then
              if upper then (allChars.filter Narrow.isLower).map fun c => (c, Narrow.toUpper c)
              else (allChars.filter Narrow.isUpper).map fun c => (c, Narrow.toLower c)
            else [(a.c, b.c)]
          (changed ++ r.1, r.2)
    | none => (align n left right).map fun r => ((a.c, b.c) :: r.1, r.2)

/-- What is done with characters. -/
structure Plan where
  replaced : List (Char × Char) := []
  deleted : Narrow := []
  squeezed : Narrow := []
  deriving Repr

/-- The element that ends a set, as a character to go on with. -/
def lastChar (es : List Element) : Except Narrow Char :=
  match es.getLast? with
  | some (.named _) =>
    .error ("when translating with string1 longer than string2,\n"
      ++ "the latter string must not end with a character class").toList
  | some (.one c) | some (.like c) | some (.repeated c _) => .ok c
  | some (.range _ b) => .ok b
  | none => .error "when not truncating set1, string2 must be non-empty".toList

/-- What replaces what, given two sets. -/
def pairUp (complement truncate : Bool) (s1 s2 : List Element) :
    Except Narrow (List (Char × Char)) := do
  if s2.any fun e => match e with | .like _ => true | _ => false then
    .error "[=c=] expressions may not appear in string2 when translating".toList
  if s2.any fun e => match e with
      | .named name => name ≠ "upper".toList && name ≠ "lower".toList
      | _ => false then
    .error ("when translating, the only character classes that may appear in\n"
      ++ "string2 are 'upper' and 'lower'").toList
  if complement then
    let left := others s1
    let right := members s2
    let right ←
      if right.length < left.length ∧ ¬ truncate then do
        let c ← if right = [] then
            Except.error "when not truncating set1, string2 must be non-empty".toList
          else lastChar s2
        pure (right ++ List.replicate (left.length - right.length) c)
      else pure right
    let hasClass := s1.any fun e => match e with | .named _ => true | _ => false
    if hasClass ∧ ¬ (right.length = left.length ∧ right.all fun c => some c = right.head?) then
      .error ("when translating with complemented character classes,\n"
        ++ "string2 must map all characters in the domain to one").toList
    return left.zip right
  else
    let left := cells s1
    let right := cells s2
    let (pairs, rest) ← align (left.length + right.length + 1) left right
    if rest ≠ [] ∧ ¬ truncate then
      if right = [] then .error "when not truncating set1, string2 must be non-empty".toList
      let c ← lastChar s2
      return pairs ++ rest.map fun cell => (cell.c, c)
    else return pairs

/-! ### The program -/

/-- What replaces a character. -/
def replacement (pairs : List (Char × Char)) (c : Char) : Char :=
  (pairs.foldl (fun found e => if e.1 = c then some e.2 else found) none).getD c

/-- A text whose characters are replaced. -/
def translate (pairs : List (Char × Char)) (cs : Narrow) : Narrow := cs.map (replacement pairs)

/-- A text in which some characters are not repeated. -/
def squeeze (set : Narrow) : Narrow → Narrow
  | a :: b :: rest =>
    if a = b ∧ set.contains a then squeeze set (b :: rest) else a :: squeeze set (b :: rest)
  | few => few

/-- A text after a plan was carried out. -/
def Plan.apply (p : Plan) (cs : Narrow) : Narrow :=
  let table := allChars.map (replacement p.replaced)
  let kept := cs.filter fun c => !p.deleted.contains c
  squeeze p.squeezed (kept.map fun c => table[c.toNat]?.getD c)

def table : OptionTable where
  short := [('c', .none), ('C', .none), ('d', .none), ('s', .none), ('t', .none)]
  long := [("complement", .none, 'c'), ("delete", .none, 'd'), ("squeeze-repeats", .none, 's'),
    ("truncate-set1", .none, 't')]
  inFront := true

/-- The plan for two sets, or for one. -/
def plan (complement delete squeezes truncate : Bool) (s1 : List Element)
    (s2 : Option (List Element)) : Except Narrow Plan := do
  if s1.any Element.fills then
    .error "the [c*] repeat construct may not appear in string1".toList
  let first := if complement then others s1 else members s1
  match s2 with
  | none =>
    return if delete then { deleted := first } else { squeezed := first }
  | some s2 =>
    if 1 < (s2.filter Element.fills).length then
      .error "only one [c*] repeat construct may appear in string2".toList
    if delete then
      if s2.any Element.fills then
        .error "the [c*] construct may appear in string2 only when translating".toList
      return { deleted := first, squeezed := if squeezes then members s2 else [] }
    else
      let s2 := filled first.length s2
      let pairs ← pairUp complement truncate s1 s2
      return { replaced := pairs, squeezed := if squeezes then members s2 else [] }

def run (name : Narrow) (args : List Narrow) : Job Nat := do
  let r := table.read args
  match r.fault with
  | some fault => Job.misuse name fault.message 1
  | none =>
    let given (cs : List Char) : Bool := r.options.any fun o => cs.contains o.letter
    let delete := given ['d']
    let squeezes := given ['s']
    let least := if delete = squeezes then 2 else 1
    let most := if delete ∧ ¬ squeezes then 1 else 2
    if r.operands.length < least then
      match r.operands with
      | [] => Job.misuse name "missing operand".toList 1
      | w :: _ =>
        Job.misuse name ("missing operand after ".toList ++ Quoting.phrase w ++ '\n' ::
          (if squeezes then
            "Two strings must be given when both deleting and squeezing repeats."
          else "Two strings must be given when translating.").toList) 1
    else if most < r.operands.length then
      Job.misuse name ("extra operand ".toList
        ++ Quoting.phrase (r.operands[most]?.getD [])
        ++ (if r.operands.length = 2 then
            "\nOnly one string may be given when deleting without squeezing repeats.".toList
          else [])) 1
    else
      let (read, warnings) := readSets r.operands
      for w in warnings do
        Job.complain name w
      let planned : Except Narrow Plan := do
        let sets ← read
        plan (given ['c', 'C']) delete squeezes (given ['t']) (sets.head?.getD []) sets[1]?
      match planned with
      | .error text =>
        Job.complain name text
        return 1
      | .ok plan =>
        match ← Job.takeAll 0 with
        | .error fault =>
          Job.complain name ("read error: ".toList ++ fault.sentence.toList)
          return 1
        | .ok text => Job.finish name (plan.apply text) 0 1

end Translate
end CjsxConversion
