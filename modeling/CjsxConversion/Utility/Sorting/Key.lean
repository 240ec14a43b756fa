import CjsxConversion.Utility.Sorting.Value

/-!
# The keys by which lines are sorted

A key is a part of a line with a manner of comparing it. The fields of a line stand between
separators, or each begins with the white space before it. Lines whose keys are equal are compared
as a whole, unless the sorting is stable.
-/

namespace CjsxConversion
namespace Sorting

/-- How keys are compared. -/
structure Manner where
  skipsStart : Bool := false
  skipsEnd : Bool := false
  dictionary : Bool := false
  printable : Bool := false
  foldsCase : Bool := false
  numbers : Bool := false
  general : Bool := false
  sizes : Bool := false
  months : Bool := false
  versions : Bool := false
  shuffled : Bool := false
  reversed : Bool := false
  deriving DecidableEq, Repr, Inhabited

namespace Manner

/-- Whether a manner says nothing about how keys are compared, but maybe which way round. -/
def isPlain (m : Manner) : Bool := { m with reversed := false } = {}

/-- A manner after one more letter. The flags tell at which ends of a key white space is meant. -/
def add (m : Manner) (start ending : Bool) : Char → Option Manner
  | 'b' => some { m with skipsStart := m.skipsStart || start, skipsEnd := m.skipsEnd || ending }
  | 'd' => some { m with dictionary := true, printable := false }
  | 'f' => some { m with foldsCase := true }
  | 'g' => some { m with general := true }
  | 'h' => some { m with sizes := true }
  | 'i' => some { m with printable := !m.dictionary }
  | 'M' => some { m with months := true }
  | 'n' => some { m with numbers := true }
  | 'R' => some { m with shuffled := true }
  | 'r' => some { m with reversed := true }
  | 'V' => some { m with versions := true }
  | _ => none

/-- The letters of what does not go together, if it does not. -/
def conflict? (m : Manner) : Option Narrow :=
  let kinds := [m.numbers, m.general, m.sizes, m.months,
    m.versions || m.shuffled || m.dictionary || m.printable]
  if (kinds.filter id).length < 2 then none
  else some <| ([(m.dictionary, 'd'), (m.foldsCase, 'f'), (m.general, 'g'), (m.sizes, 'h'),
      (m.printable, 'i'), (m.months, 'M'), (m.numbers, 'n'), (m.shuffled, 'R'),
      (m.versions, 'V')].filter (·.1)).map (·.2)

/-- The characters of a key that count, as they count. -/
def counted (m : Manner) (cs : Narrow) : Narrow :=
  let kept :=
    if m.dictionary then cs.filter fun c => Narrow.isAlnum c || Narrow.isBlank c
    else if m.printable then cs.filter Narrow.isPrintable
    else cs
  if m.foldsCase then kept.map Narrow.toUpper else kept

/-- Keys in their order. -/
def compare (m : Manner) (a b : Narrow) : Ordering :=
  let o :=
    if m.numbers then compareNumbers a b
    else if m.general then compareGeneral a b
    else if m.sizes then compareSizes a b
    else
      let a := m.counted a
      let b := m.counted b
      if m.months then compareMonths a b
      else if m.versions then compareVersions a b
      else Narrow.compare a b
  if m.reversed then o.swap else o

end Manner

/-- A place in a line: a field, and a character of it. Both are counted from zero. -/
structure Place where
  field : Nat := 0
  char : Nat := 0
  deriving DecidableEq, Repr

structure Key where
  start : Place := {}
  ending : Option Place := none
  manner : Manner := {}
  deriving DecidableEq, Repr, Inhabited

/-- White space between fields. -/
def isGap (c : Char) : Bool := Narrow.isBlank c || c = '\n'

/-- What is left of a line behind so many fields. -/
def afterFields (separator : Option Char) : Nat → Narrow → Narrow
  | 0, cs => cs
  | _ + 1, [] => []
  | n + 1, cs =>
    match separator with
    | some t => afterFields separator n ((cs.dropWhile (· ≠ t)).drop 1)
    | none => afterFields separator n ((cs.dropWhile isGap).dropWhile fun c => !isGap c)

/-- What is left of a line behind so many whole fields, the separator after the last one not taken
off. -/
def behindFields (separator : Option Char) : Nat → Narrow → Narrow
  | 0, cs => cs
  | n + 1, cs =>
    match separator with
    | some t => (afterFields separator n cs).dropWhile (· ≠ t)
    | none => afterFields separator (n + 1) cs

namespace Key

/-- Where a key begins in a line: what is left of the line from there on. -/
def from? (k : Key) (separator : Option Char) (line : Narrow) : Narrow :=
  let field := afterFields separator k.start.field line
  (if k.manner.skipsStart then field.dropWhile isGap else field).drop k.start.char

def behind (k : Key) (separator : Option Char) (line : Narrow) : Narrow :=
  match k.ending with
  | none => []
  | some p =>
    if p.char = 0 then behindFields separator (p.field + 1) line
    else
      let field := afterFields separator p.field line
      (if k.manner.skipsEnd then field.dropWhile isGap else field).drop p.char

def part (k : Key) (separator : Option Char) (line : Narrow) : Narrow :=
  let start := k.from? separator line
  start.take (start.length - (k.behind separator line).length)

end Key

/-- Two lines by their keys, the first key that differs deciding. -/
def compareBy (separator : Option Char) : List Key → Narrow → Narrow → Ordering
  | [], _, _ => .eq
  | k :: ks, a, b =>
    (k.manner.compare (k.part separator a) (k.part separator b)).then
      (compareBy separator ks a b)

/-- How lines are sorted. -/
structure Order where
  separator : Option Char := none
  keys : List Key := []
  keysOnly : Bool := false
  reversed : Bool := false
  deriving Repr

/-- Two lines in their order. -/
def Order.compare (o : Order) (a b : Narrow) : Ordering :=
  let byKeys := compareBy o.separator o.keys a b
  if o.keysOnly && o.keys ≠ [] then byKeys
  else byKeys.then (if o.reversed then (Narrow.compare a b).swap else Narrow.compare a b)

end Sorting
end CjsxConversion
