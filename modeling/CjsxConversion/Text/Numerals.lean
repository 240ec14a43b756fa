import CjsxConversion.Text.Narrow

/-!
# Numerals at the start of a text

Programs read a number from the start of a text and leave what follows it. A whole number may be
written with hexadecimal, octal or decimal digits; a real number with decimal or hexadecimal ones, a
fraction and an exponent.

`roundTo` is the nearest fraction whose numerator has so many binary digits, a tie
going to the even one.
-/

namespace CjsxConversion
namespace Numerals

/-- A number at the start of a text. -/
structure Whole where
  value : Int := 0
  rest : Narrow
  found : Bool := false
  deriving DecidableEq, Repr

/-- A text without the white space at its start. -/
def trimStart (cs : Narrow) : Narrow := cs.dropWhile Narrow.isSpace

/-- The sign at the start of a text, and what follows it. -/
def readSign (cs : Narrow) : Bool × Narrow :=
  match cs with
  | '-' :: rest => (true, rest)
  | '+' :: rest => (false, rest)
  | cs => (false, cs)

/-- The base of the digits at the start of a text, and the digits with what follows them. -/
def readBase (cs : Narrow) : Nat × Narrow :=
  match cs with
  | '0' :: x :: d :: rest =>
    if (x = 'x' ∨ x = 'X') ∧ Narrow.isHexDigit d then (16, d :: rest) else (8, cs)
  | '0' :: _ => (8, cs)
  | cs => (10, cs)

/-- The digits of a base at the start of a text. -/
def digitsOf (base : Nat) (cs : Narrow) : Narrow :=
  cs.takeWhile fun c => (Narrow.digit? base c).isSome

/-- The whole number at the start of a text, in a base that is told apart by its digits, or in a
given one. -/
def readWhole (base? : Option Nat) (cs : Narrow) : Whole :=
  let (negative, unsigned) := readSign (trimStart cs)
  let (base, digits) := match base? with
    | some b => (b, unsigned)
    | none => readBase unsigned
  let ds := digitsOf base digits
  if ds = [] then { rest := cs }
  else
    let n : Int := Narrow.digitsValue base ds
    { value := if negative then -n else n, rest := digits.drop ds.length, found := true }

/-! ### Real numbers -/

/-- How large a number is. -/
inductive Magnitude where
  | fraction (num den : Nat)
  | infinite
  | nan
  deriving DecidableEq, Repr

/-- A real number at the start of a text. -/
structure Real where
  negative : Bool := false
  magnitude : Magnitude := .fraction 0 1
  rest : Narrow
  found : Bool := false
  deriving DecidableEq, Repr

/-- A word of letters at the start of a text, in either case, and what follows it. -/
def readWord (word : String) (cs : Narrow) : Option Narrow :=
  let n := word.length
  if (cs.take n).map Narrow.toLower = word.toList then some (cs.drop n) else none

/-- The exponent behind a mark, and what follows it. -/
def readExponent (marks : List Char) (cs : Narrow) : Int × Narrow :=
  match cs with
  | m :: rest =>
    if marks.contains m then
      let (negative, digits) := readSign rest
      let ds := digitsOf 10 digits
      if ds = [] then (0, cs)
      else
        let n : Int := min (Narrow.digitsValue 10 ds) 20000
        (if negative then -n else n, digits.drop ds.length)
    else (0, cs)
  | [] => (0, cs)

def timesPower (num den base : Nat) (e : Int) : Magnitude :=
  if 0 ≤ e then .fraction (num * Nat.pow base e.toNat) den
  else .fraction num (den * Nat.pow base (-e).toNat)

/-- Digits with a fraction and an exponent at the start of a text. -/
def readDigits (base : Nat) (marks : List Char) (power : Nat) (cs : Narrow) :
    Option (Magnitude × Narrow) :=
  let whole := digitsOf base cs
  let after := cs.drop whole.length
  let part := match after with
    | '.' :: rest => digitsOf base rest
    | _ => []
  let after := match after with
    | '.' :: rest => if whole = [] ∧ part = [] then after else rest.drop part.length
    | _ => after
  if whole = [] ∧ part = [] then none
  else
    let (e, rest) := readExponent marks after
    let num := Narrow.digitsValue base (whole ++ part)
    some (timesPower num (Nat.pow base part.length) power e, rest)

/-- The real number at the start of a text. -/
def readReal (cs : Narrow) : Real :=
  let (negative, unsigned) := readSign (trimStart cs)
  let hexadecimal? := match unsigned with
    | '0' :: x :: rest => if x = 'x' ∨ x = 'X' then readDigits 16 ['p', 'P'] 2 rest else none
    | _ => none
  let word? := match readWord "infinity" unsigned, readWord "inf" unsigned,
      readWord "nan" unsigned with
    | some rest, _, _ => some (Magnitude.infinite, rest)
    | _, some rest, _ => some (.infinite, rest)
    | _, _, some rest => some (.nan, rest)
    | _, _, _ => none
  match (word?.or hexadecimal?).or (readDigits 10 ['e', 'E'] 10 unsigned) with
  | some (magnitude, rest) => { negative, magnitude, rest, found := true }
  | none => { rest := cs }

/-! ### Rounding -/

/-- The nearest whole number to a fraction, a tie going to the even one. -/
def nearest (num den : Nat) : Nat :=
  let q := num / den
  let r := num % den
  if 2 * r < den then q
  else if den < 2 * r then q + 1
  else if q % 2 = 0 then q else q + 1

/-- The number of binary digits. -/
def bitLength (n : Nat) : Nat := if n = 0 then 0 else n.log2 + 1

/-- A fraction with the power of two taken off. -/
def overPower (num den : Nat) (e : Int) : Nat × Nat :=
  if 0 ≤ e then (num, den * Nat.pow 2 e.toNat) else (num * Nat.pow 2 (-e).toNat, den)

/-- The nearest fraction whose numerator has so many binary digits, a tie going to the even one.
Powers of two below the least are not used. -/
def roundTo (bits : Nat) (least : Int) (num den : Nat) : Nat × Nat :=
  if num = 0 then (0, 1)
  else
    let k : Int := (bitLength num : Int) - (bitLength den : Int)
    let low := max (k - bits) least
    let first := overPower num den low
    let e := if Nat.pow 2 bits ≤ first.1 / first.2 then low + 1 else low
    let s := overPower num den e
    let m := nearest s.1 s.2
    if 0 ≤ e then (m * Nat.pow 2 e.toNat, 1) else (m, Nat.pow 2 (-e).toNat)

end Numerals
end CjsxConversion
