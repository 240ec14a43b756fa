import CjsxConversion.Text.Numerals

/-!
# What the keys of a line are worth

A key is compared by its characters, or by what it says: a number, a number with a unit, a month, or
a version. White space in front of a number or of a month does not count.
-/

namespace CjsxConversion
namespace Sorting

/-- Whole numbers in their order. -/
def compareInts (a b : Int) : Ordering := if a < b then .lt else if b < a then .gt else .eq

/-- A key without the white space in front. -/
def trimmed (cs : Narrow) : Narrow := cs.dropWhile fun c => Narrow.isBlank c || c = '\n'

/-! ### Numbers -/

/-- A decimal fraction at the start of a text: its sign, its digits and how many of them stand
behind the point. Then comes what follows it. -/
def readDecimal (cs : Narrow) : (Int × Nat) × Narrow :=
  let (negative, cs) := match cs with
    | '-' :: rest => (true, rest)
    | cs => (false, cs)
  let whole := cs.takeWhile Narrow.isDigit
  let after := cs.drop whole.length
  let (part, rest) := match after with
    | '.' :: rest => (rest.takeWhile Narrow.isDigit, rest.dropWhile Narrow.isDigit)
    | rest => ([], rest)
  let n : Int := Narrow.digitsValue 10 (whole ++ part)
  ((if negative then -n else n, part.length), rest)

/-- Decimal fractions in their order. -/
def compareDecimals (a b : Int × Nat) : Ordering :=
  compareInts (a.1 * Nat.pow 10 b.2) (b.1 * Nat.pow 10 a.2)

/-- Keys by the number that they begin with. Without digits it is zero. -/
def compareNumbers (a b : Narrow) : Ordering :=
  compareDecimals (readDecimal (trimmed a)).1 (readDecimal (trimmed b)).1

def units : Narrow := "KMGTPEZYRQ".toList

/-- The place of the unit behind a number. Zero has none, and the sign is that of the number. -/
def unitOrder (cs : Narrow) : Int :=
  let ((n, _), rest) := readDecimal cs
  if n = 0 then 0
  else
    let order : Int := match rest with
      | 'k' :: _ => 1
      | c :: _ => match units.findIdx? (· = c) with
        | some i => i + 1
        | none => 0
      | [] => 0
    if n < 0 then -order else order

/-- Keys by a number with a unit. -/
def compareSizes (a b : Narrow) : Ordering :=
  let a := trimmed a
  let b := trimmed b
  (compareInts (unitOrder a) (unitOrder b)).then
    (compareDecimals (readDecimal a).1 (readDecimal b).1)

/-- How keys stand to each other that may be numbers of any form. -/
inductive Rank where
  | none
  | nan
  | number (num : Int) (den : Nat)
  | infinite (negative : Bool)
  deriving DecidableEq, Repr

def rank (cs : Narrow) : Rank :=
  let r := Numerals.readReal cs
  if !r.found then .none
  else
    match r.magnitude with
    | .nan => .nan
    | .infinite => .infinite r.negative
    | .fraction num den =>
      let (num, den) := Numerals.roundTo 64 (-16445) num den
      .number (if r.negative then -num else num) den

def Rank.place : Rank → Nat
  | .none => 0
  | .nan => 1
  | .infinite true => 2
  | .number _ _ => 3
  | .infinite false => 4

def Rank.compare : Rank → Rank → Ordering
  | .number a d, .number b e => compareInts (a * e) (b * d)
  | a, b => Ord.compare a.place b.place

/-- Keys by a number of any form. -/
def compareGeneral (a b : Narrow) : Ordering := (rank a).compare (rank b)

/-! ### Months -/

def months : List Narrow :=
  ["JAN", "FEB", "MAR", "APR", "MAY", "JUN", "JUL", "AUG", "SEP", "OCT", "NOV", "DEC"].map
    String.toList

/-- The number of the month that a key begins with. Without one it is zero. -/
def monthOf (cs : Narrow) : Nat :=
  let name := ((trimmed cs).take 3).map Narrow.toUpper
  match months.findIdx? (· = name) with
  | some i => i + 1
  | none => 0

/-- Keys by the month that they begin with. -/
def compareMonths (a b : Narrow) : Ordering := Ord.compare (monthOf a) (monthOf b)

/-! ### Versions -/

/-- The place of a character among those that are no digits. A digit or the end of the text stands
between the others. -/
def versionPlace : Option Char → Int
  | none => -1
  | some c =>
    if Narrow.isDigit c then 0
    else if Narrow.isLetter c then c.toNat
    else if c = '~' then -2
    else c.toNat + 256

/-- The first characters of two texts that are no digits, compared one by one. What is left of both
texts follows if they are equal. -/
def compareLetters : Narrow → Narrow → Ordering × Narrow × Narrow
  | [], [] => (.eq, [], [])
  | [], b :: bs =>
    if Narrow.isDigit b then (.eq, [], b :: bs)
    else (compareInts (versionPlace none) (versionPlace (some b)), [], b :: bs)
  | a :: as, [] =>
    if Narrow.isDigit a then (.eq, a :: as, [])
    else (compareInts (versionPlace (some a)) (versionPlace none), a :: as, [])
  | a :: as, b :: bs =>
    if Narrow.isDigit a && Narrow.isDigit b then (.eq, a :: as, b :: bs)
    else
      match compareInts (versionPlace (some a)) (versionPlace (some b)) with
      | .eq => compareLetters as bs
      | o => (o, a :: as, b :: bs)

/-- Two versions, part by part: what is no digit by its characters, and digits by their value. The
bound is the length of both. -/
def compareParts : Nat → Narrow → Narrow → Ordering
  | 0, _, _ => .eq
  | n + 1, a, b =>
    if a = [] ∧ b = [] then .eq
    else
      match compareLetters a b with
      | (.eq, a, b) =>
        let da := a.takeWhile Narrow.isDigit
        let db := b.takeWhile Narrow.isDigit
        (Ord.compare (Narrow.digitsValue 10 da) (Narrow.digitsValue 10 db)).then
          (compareParts n (a.drop da.length) (b.drop db.length))
      | (o, _, _) => o

/-- What is left of a text behind the endings at its front: each a dot, a letter, and letters and
digits. The bound is the length of the text. -/
def afterEndings : Nat → Narrow → Narrow
  | n + 1, '.' :: c :: rest =>
    if Narrow.isLetter c || c = '~' then
      afterEndings n (rest.dropWhile fun c => Narrow.isAlnum c || c = '~')
    else '.' :: c :: rest
  | _, cs => cs

/-- How long the endings at the end of a name are. The first character belongs to none. -/
def endingLength : Narrow → Nat
  | [] => 0
  | _ :: rest => if afterEndings (rest.length + 1) rest = [] then rest.length else endingLength rest

def withoutEndings (cs : Narrow) : Narrow :=
  cs.take (cs.length - endingLength cs)

/-- The place of a name by the dots at its front. -/
def dotPlace (cs : Narrow) : Nat :=
  match cs with
  | ['.'] => 0
  | ['.', '.'] => 1
  | '.' :: _ => 2
  | _ => 3

/-- Keys by the versions that they name. -/
def compareVersions : Narrow → Narrow → Ordering
  | [], [] => .eq
  | [], _ => .lt
  | _, [] => .gt
  | a, b =>
    match Ord.compare (dotPlace a) (dotPlace b) with
    | .eq =>
      if dotPlace a < 2 then .eq
      else
        let n := a.length + b.length + 1
        (compareParts n (withoutEndings a) (withoutEndings b)).then (compareParts n a b)
    | o => o

end Sorting
end CjsxConversion
