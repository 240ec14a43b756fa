import CjsxConversion.Json.Double
import CjsxConversion.Json.Draft

/-!
# Numerals

A numeral is an optional minus sign, digits without a superfluous leading zero, an optional
fraction and an optional exponent.

A numeral without fraction and exponent is an integer if its value fits into 64
bits, signed or unsigned; `-0` is no integer.

The leading digits that fit into 64 bits are the significand, each further
digit before the point counts as a power of ten, and the value is the significand multiplied or
divided once by a power of ten, each step rounded.
-/

namespace CjsxConversion
namespace Json
namespace Numeral

def digitValue (c : Char) : Nat :=
  c.toNat - 48

/-- The greatest significand, one less than the 64th power of two. -/
def significandMax : Nat := 18446744073709551615

/-- Takes digits into a significand up to the first one that does not fit: the significand and
the digits that are left. -/
def gather : Nat → List Char → Nat × List Char
  | s, [] => (s, [])
  | s, c :: cs =>
    let t := s * 10 + digitValue c
    if t ≤ significandMax then gather t cs else (s, c :: cs)

/-- The value of a row of digits. -/
def value (ds : List Char) : Nat :=
  Nat.ofDigitChars 10 ds 0

/-- A significand times a power of ten. -/
def scale : Nat → Double → Int → Except Fault Double
  | 0, d, _ => .ok d
  | fuel + 1, d, e =>
    if e.natAbs ≤ 308 then
      if d.mantissa = 0 then .ok d
      else if 0 ≤ e then
        let p := d.mul (.powTen e.natAbs)
        if p.isInfinite then .error .hugeNumeral else .ok p
      else .ok (d.div (.powTen e.natAbs))
    else if d.mantissa = 0 then .ok d
    else if 0 ≤ e then .error .hugeNumeral
    else scale fuel (d.div (.powTen 308)) (e + 308)

/-- Three divisions by the greatest power of ten bring every significand to zero. -/
def scaleRounds : Nat := 4

/-- A number that is no integer, with its sign. -/
def float (negative : Bool) (significand : Nat) (exponent : Int) : Except Fault String :=
  (scale scaleRounds (.ofNat significand) exponent).map fun d =>
    if negative then "-" ++ d.render else d.render

/-- The parts of a numeral: digits before the point, after it, and the exponent, whose flag says
that it is negative. -/
structure Parts where
  negative : Bool
  whole : List Char
  fraction : Option (List Char)
  exponent : Option (Bool × List Char)

/-- The greatest exponent that is taken into account, one less than the 31st power of two. -/
def exponentMax : Nat := 2147483647

/-- The distance of the least integer of 64 bits from zero, the 63rd power of two. -/
def negativeMax : Nat := 9223372036854775808

/-- The number that the parts of a numeral spell, as a draft. -/
def draft (p : Parts) : Draft :=
  let (s, dropped) := gather 0 p.whole
  let integral := p.fraction.isNone && p.exponent.isNone && dropped.isEmpty
  if integral && !p.negative then .int s
  else if integral && s ≠ 0 && s ≤ negativeMax then .int (-(s : Int))
  else
    let (t, e) := match p.fraction with
      | none => (s, (dropped.length : Int))
      | some ds =>
        let (t, left) := gather s ds
        (t, (dropped.length : Int) - ((ds.length : Int) - left.length))
    let result : Except Fault String :=
      match p.exponent with
      | none => float p.negative t e
      | some (negative, ds) =>
        if exponentMax < value ds then
          if t ≠ 0 && !negative then .error .hugeNumeral
          else .ok (if p.negative then "-0.0" else "0.0")
        else float p.negative t (if negative then e - value ds else e + value ds)
    match result with
    | .ok shown => .float shown
    | .error f => .bad ⟨f, .noValue, none⟩

/-- A numeral that breaks off: at the end of the text, or at a character that does not belong. -/
def brokenOff (rest : List Char) : Draft :=
  .bad ⟨if rest.isEmpty then .endInValue else .badNumeral, .noValue, some .badNumeral⟩

def readExponent (p : Parts) (cs : List Char) : Draft × Option (List Char) :=
  match cs with
  | [] => (draft p, some cs)
  | c :: rest =>
    if c = 'e' ∨ c = 'E' then
      let (negative, rest) := match rest with
        | '-' :: r => (true, r)
        | '+' :: r => (false, r)
        | r => (false, r)
      let ds := rest.takeWhile Char.isDigit
      let rest := rest.dropWhile Char.isDigit
      if ds.isEmpty then (brokenOff rest, none)
      else (draft { p with exponent := some (negative, ds) }, some rest)
    else (draft p, some cs)

/-- Reads the fraction, if one follows, and what comes after it. -/
def readFraction (p : Parts) (cs : List Char) : Draft × Option (List Char) :=
  match cs with
  | '.' :: rest =>
    let ds := rest.takeWhile Char.isDigit
    let rest := rest.dropWhile Char.isDigit
    if ds.isEmpty then (brokenOff rest, none)
    else readExponent { p with fraction := some ds } rest
  | _ => readExponent p cs

/-- Reads a numeral after its sign: its draft and, if it is whole, the rest of the text. -/
def readUnsigned (negative : Bool) (cs : List Char) : Draft × Option (List Char) :=
  let ds := cs.takeWhile Char.isDigit
  let rest := cs.dropWhile Char.isDigit
  match ds with
  | [] => (brokenOff rest, none)
  | '0' :: _ :: _ => (.bad ⟨.badNumeral, .noValue, some .badNumeral⟩, none)
  | _ => readFraction ⟨negative, ds, none, none⟩ rest

end Numeral
end Json
end CjsxConversion
