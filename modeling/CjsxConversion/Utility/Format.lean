import CjsxConversion.Text.Numerals

/-!
# Formats

A format is a text with directives. A directive says how a value is written: in which notation,
in how many columns, with how many digits. The notations are those of C.
-/

namespace CjsxConversion

/-- How a value is written. -/
structure Directive where
  flags : Narrow := []
  width : Nat := 0
  precision : Option Nat := none
  letter : Char
  deriving DecidableEq, Repr

namespace Directive

def has (d : Directive) (flag : Char) : Bool := d.flags.contains flag

/-- A directive with a width that may be negative, which puts the blanks behind the value. -/
def withWidth (d : Directive) (n : Int) : Directive :=
  if n < 0 then { d with flags := '-' :: d.flags, width := n.natAbs }
  else { d with width := n.natAbs }

/-- The largest width or precision. -/
def largestCount : Nat := 0x7FFFFFFF

/-- Whether the width and the precision are not too large. -/
def isMeasured (d : Directive) : Bool :=
  d.width ≤ largestCount && d.precision.getD 0 ≤ largestCount

/-- A sign and digits, as wide as wanted. -/
def padded (d : Directive) (zeros : Bool) (sign digits : Narrow) : Narrow :=
  let missing := d.width - (sign.length + digits.length)
  if d.has '-' then sign ++ digits ++ List.replicate missing ' '
  else if zeros && d.has '0' then sign ++ List.replicate missing '0' ++ digits
  else List.replicate missing ' ' ++ sign ++ digits

def sign (d : Directive) (negative : Bool) : Narrow :=
  if negative then ['-'] else if d.has '+' then ['+'] else if d.has ' ' then [' '] else []

/-- Digits with zeros in front, as many as the precision asks for. -/
def withPrecision (d : Directive) (digits : Narrow) : Narrow :=
  match d.precision with
  | none => digits
  | some p =>
    let digits := if digits = ['0'] ∧ p = 0 then [] else digits
    List.replicate (p - digits.length) '0' ++ digits

/-- A whole number in decimal digits. -/
def signed (d : Directive) (n : Int) : Narrow :=
  d.padded d.precision.isNone (d.sign (n < 0)) (d.withPrecision (Narrow.ofNat n.natAbs))

/-- A natural number in the notation of the directive. -/
def unsigned (d : Directive) (n : Nat) : Narrow :=
  match d.letter with
  | 'o' =>
    let digits := d.withPrecision (Nat.toDigits 8 n)
    let digits := if d.has '#' ∧ digits.head? ≠ some '0' then '0' :: digits else digits
    d.padded d.precision.isNone [] digits
  | 'x' =>
    d.padded d.precision.isNone (if d.has '#' ∧ n ≠ 0 then ['0', 'x'] else [])
      (d.withPrecision (Nat.toDigits 16 n))
  | 'X' =>
    d.padded d.precision.isNone (if d.has '#' ∧ n ≠ 0 then ['0', 'X'] else [])
      (d.withPrecision ((Nat.toDigits 16 n).map Narrow.toUpper))
  | _ => d.padded d.precision.isNone [] (d.withPrecision (Narrow.ofNat n))

def text (d : Directive) (cs : Narrow) : Narrow :=
  d.padded false [] (cs.take (d.precision.getD cs.length))

/-- A character. -/
def char (d : Directive) (c : Char) : Narrow := d.padded false [] [c]

/-! ### Real numbers -/

/-- Digits with a point before the last so many. A point without digits behind it is written only
if asked for. -/
def withPoint (pointed : Bool) (digits : Narrow) (places : Nat) : Narrow :=
  let digits := List.replicate (places + 1 - digits.length) '0' ++ digits
  let whole := digits.take (digits.length - places)
  let part := digits.drop (digits.length - places)
  if part = [] then if pointed then whole ++ ['.'] else whole else whole ++ '.' :: part

/-- How many digits are computed. Behind them there are zeros only: the fractions that are written
have no smaller parts. -/
def placeLimit : Nat := 20000

/-- The zeros behind the digits that are computed. -/
def furtherZeros (places : Nat) : Narrow := List.replicate (places - placeLimit) '0'

/-- A fraction with so many decimal places. -/
def fixed (pointed : Bool) (num den places : Nat) : Narrow :=
  let n := min places placeLimit
  withPoint pointed (Narrow.ofNat (Numerals.nearest (num * Nat.pow 10 n) den)) n
    ++ furtherZeros places

/-- The power of ten of the first digit of a positive fraction. -/
def leadingPower (num den : Nat) : Int :=
  if den ≤ num then (Narrow.ofNat (num / den)).length - 1
  else
    let z := (Narrow.ofNat (den / num)).length
    if num * Nat.pow 10 (z - 1) ≥ den then 1 - (z : Int) else -(z : Int)

/-- The first digits of a fraction, so many after the first, and the power of ten of the first. -/
def leadingDigits (num den places : Nat) : Narrow × Int :=
  if num = 0 then (List.replicate (places + 1) '0', 0)
  else
    let k := leadingPower num den
    let shift : Int := places - k
    let n := if 0 ≤ shift then Numerals.nearest (num * Nat.pow 10 shift.toNat) den
      else Numerals.nearest num (den * Nat.pow 10 (-shift).toNat)
    let ds := Narrow.ofNat n
    if places + 1 < ds.length then (ds.take (places + 1), k + 1) else (ds, k)

/-- An exponent of at least two digits. -/
def exponentText (mark : Char) (k : Int) : Narrow :=
  let ds := Narrow.ofNat k.natAbs
  [mark, if k < 0 then '-' else '+'] ++ List.replicate (2 - ds.length) '0' ++ ds

/-- A fraction with one digit before the point and an exponent. -/
def scientific (pointed : Bool) (mark : Char) (num den places : Nat) : Narrow :=
  let n := min places placeLimit
  let (ds, k) := leadingDigits num den n
  withPoint pointed ds n ++ furtherZeros places ++ exponentText mark k

/-- Digits without the zeros at the end of their fraction. -/
def withoutZeros (cs : Narrow) : Narrow :=
  let exponent := (cs.reverse.takeWhile fun c => c ≠ 'e' ∧ c ≠ 'E').reverse
  let hasExponent := exponent.length < cs.length
  let digits := if hasExponent then cs.take (cs.length - exponent.length - 1) else cs
  let tail := if hasExponent then cs.drop digits.length else []
  let digits := if digits.contains '.' then
      let kept := (digits.reverse.dropWhile (· = '0')).reverse
      if kept.getLast? = some '.' then kept.dropLast else kept
    else digits
  digits ++ tail

/-- A fraction in the shorter of both notations. -/
def general (d : Directive) (mark : Char) (num den : Nat) : Narrow :=
  let p := match d.precision with
    | none => 6
    | some 0 => 1
    | some p => if d.has '#' then p else min p placeLimit
  let k := (leadingDigits num den (min (p - 1) placeLimit)).2
  let cs := if -4 ≤ k ∧ k < p then fixed (d.has '#') num den (p - 1 - k).toNat
    else scientific (d.has '#') mark num den (p - 1)
  if d.has '#' then cs else withoutZeros cs

/-- A fraction in the notation of the directive, without its sign. -/
def magnitude (d : Directive) (num den : Nat) : Narrow :=
  let places := d.precision.getD 6
  match d.letter with
  | 'e' => scientific (d.has '#') 'e' num den places
  | 'E' => scientific (d.has '#') 'E' num den places
  | 'g' => d.general 'e' num den
  | 'G' => d.general 'E' num den
  | _ => fixed (d.has '#') num den places

/-- The power of two up to which a positive fraction reaches. -/
def binaryPower (num den : Nat) : Int :=
  let k : Int := (Nat.log2 num : Int) - Nat.log2 den
  if num * Nat.pow 2 (-k).toNat < den * Nat.pow 2 k.toNat then k - 1 else k

/-- A fraction in hexadecimal digits with a power of two, the first of which has so many binary
digits. -/
def binary (d : Directive) (head num den : Nat) : Narrow :=
  let wanted := d.precision.getD 16
  let places := min wanted placeLimit
  let (n, k) : Nat × Int := if num = 0 then (0, 0)
    else
      let k := binaryPower num den - (head - 1 : Nat)
      (Numerals.nearest (num * Nat.pow 2 (-k).toNat * Nat.pow 16 places) (den * Nat.pow 2 k.toNat), k)
  let ds := Nat.toDigits 16 n
  let (ds, k) := if places + 1 < ds.length then (ds.take (places + 1), k + 4) else (ds, k)
  let digits := withPoint (d.has '#') ds places
  let digits := if d.precision.isSome then digits ++ furtherZeros wanted
    else
      let kept := (digits.reverse.dropWhile (· = '0')).reverse
      if kept.getLast? = some '.' ∧ ¬ d.has '#' then kept.dropLast else kept
  digits ++ ['p', if k < 0 then '-' else '+'] ++ Narrow.ofNat k.natAbs

def special (d : Directive) (word : String) : Narrow :=
  if Narrow.isUpper d.letter then word.toList.map Narrow.toUpper else word.toList

/-- A real number. In hexadecimal digits, the first one has so many binary digits. -/
def real (d : Directive) (head : Nat) (negative : Bool) (m : Numerals.Magnitude) : Narrow :=
  match m with
  | .fraction num den =>
    match d.letter with
    | 'a' => d.padded true (d.sign negative ++ ['0', 'x']) (d.binary head num den)
    | 'A' =>
      d.padded true (d.sign negative ++ ['0', 'X']) ((d.binary head num den).map Narrow.toUpper)
    | _ => d.padded true (d.sign negative) (d.magnitude num den)
  | .infinite => d.padded false (d.sign negative) (d.special "inf")
  | .nan => d.padded false (d.sign negative) (d.special "nan")

/-- The flags, width, precision and letter at the start of a text. Where a width or a precision has
no digits it is a star, whose number is given elsewhere. -/
structure Shape where
  flags : Narrow
  width : Option Narrow
  precision : Option (Option Narrow)
  rest : Narrow
  deriving Repr

/-- Digits or a star at the start of a text, and what follows them. -/
def readCount (cs : Narrow) : Option Narrow × Narrow :=
  match cs with
  | '*' :: rest => (none, rest)
  | cs =>
    let ds := cs.takeWhile Narrow.isDigit
    (some ds, cs.drop ds.length)

/-- What a directive says before its letter. -/
def readShape (flagChars : Narrow) (cs : Narrow) : Shape :=
  let flags := cs.takeWhile flagChars.contains
  let (width, rest) := readCount (cs.drop flags.length)
  match rest with
  | '.' :: rest =>
    let (precision, rest) := readCount rest
    ⟨flags, width, some precision, rest⟩
  | rest => ⟨flags, width, none, rest⟩

end Directive
end CjsxConversion
