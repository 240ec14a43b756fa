/-!
# Binary floating point for numerals

A numeral with a fraction or an exponent has a binary value of 53 significant bits. It is shown
with the fewest decimal digits that single it out, in positional notation or, where the point would
be far from the digits, with an exponent.

`round num den` is the multiple `m · 2 ^ e` nearest to `num / den`, ties going to
the even `m`. The exponent never falls below that of the least subnormal value.

On the decimal grids of 1, 2, … 17 digits, the first grid that has a point within
the interval of numbers rounding to the value gives the digits; of two points the nearer counts,
and where both are equally near the even one.
-/

namespace CjsxConversion
namespace Json

/-- The non-negative value `mantissa · 2 ^ exponent`, with fewer than 54 bits of mantissa. -/
structure Double where
  mantissa : Nat
  exponent : Int
  deriving DecidableEq, Repr

namespace Double

/-- The mantissa that is one bit too long, the 53rd power of two. -/
def mantissaEnd : Nat := 9007199254740992

/-- The least mantissa of full length, the 52nd power of two. -/
def mantissaLeast : Nat := 4503599627370496

/-- The number of binary digits. -/
def bitLength (n : Nat) : Nat :=
  if n = 0 then 0 else n.log2 + 1

/-- `num / (den · 2 ^ e)` as a pair of natural numbers. -/
def scaled (num den : Nat) (e : Int) : Nat × Nat :=
  if 0 ≤ e then (num, den * Nat.pow 2 e.toNat) else (num * Nat.pow 2 (-e).toNat, den)

/-- The nearest natural number to `num / den`, a tie going to the even one. -/
def nearest (num den : Nat) : Nat :=
  let q := num / den
  let r := num % den
  if 2 * r < den then q
  else if den < 2 * r then q + 1
  else if q % 2 = 0 then q else q + 1

/-- The value nearest to a positive fraction. -/
def round (num den : Nat) : Double :=
  let k : Int := (bitLength num : Int) - (bitLength den : Int)
  let low := max (k - 53) (-1074)
  let first := scaled num den low
  let e := if mantissaEnd ≤ first.1 / first.2 then low + 1 else low
  let s := scaled num den e
  let m := nearest s.1 s.2
  if m = mantissaEnd then ⟨mantissaLeast, e + 1⟩ else ⟨m, e⟩

/-- Whether a value lies beyond the largest finite one. -/
def isInfinite (d : Double) : Bool :=
  971 < d.exponent

def fraction (d : Double) : Nat × Nat :=
  if 0 ≤ d.exponent then (d.mantissa * Nat.pow 2 d.exponent.toNat, 1)
  else (d.mantissa, Nat.pow 2 (-d.exponent).toNat)

/-- The value nearest to a product. -/
def mul (a b : Double) : Double :=
  round (a.fraction.1 * b.fraction.1) (a.fraction.2 * b.fraction.2)

/-- The value nearest to a quotient. -/
def div (a b : Double) : Double :=
  round (a.fraction.1 * b.fraction.2) (a.fraction.2 * b.fraction.1)

/-- The value nearest to a natural number. -/
def ofNat (n : Nat) : Double :=
  if n = 0 then ⟨0, 0⟩ else round n 1

/-- The value nearest to a power of ten. -/
def powTen (k : Nat) : Double :=
  round (Nat.pow 10 k) 1

/-! ### Shortest digits -/

/-- The ends of the interval of numbers that round to a positive value, over a common
denominator, together with the value itself: low end, value, high end, denominator. -/
def interval (d : Double) : Nat × Nat × Nat × Nat :=
  let edge := d.mantissa = mantissaLeast ∧ -1074 < d.exponent
  let low := if edge then 4 * d.mantissa - 1 else 4 * d.mantissa - 2
  let e := d.exponent - 2
  if 0 ≤ e then
    let unit := Nat.pow 2 e.toNat
    (low * unit, 4 * d.mantissa * unit, (4 * d.mantissa + 2) * unit, 1)
  else (low, 4 * d.mantissa, 4 * d.mantissa + 2, Nat.pow 2 (-e).toNat)

/-- The number of digits before the decimal point: the least `k` with `num / den < 10 ^ k`. Where
the fraction is below one, counts the zeros after the point negatively. -/
def pointPosition (num den : Nat) : Int :=
  if den ≤ num then (Nat.toDigits 10 (num / den)).length
  else
    let z := (Nat.toDigits 10 (den / num)).length
    -- `den / num` has `z` digits, so the fraction lies between `10 ^ -z` and `10 ^ (1 - z)`.
    if num * Nat.pow 10 (z - 1) ≥ den then 2 - (z : Int) else 1 - (z : Int)

/-- The point of the grid of `n` digits that stands for a value, if the grid has one. -/
def gridPoint? (d : Double) (k : Int) (n : Nat) : Option Nat :=
  let (low, value, high, den) := d.interval
  -- The grid's unit is `10 ^ (k - n)`; `up` and `down` clear it from both sides.
  let shift := (n : Int) - k
  let up := if 0 ≤ shift then Nat.pow 10 shift.toNat else 1
  let down := if 0 ≤ shift then 1 else Nat.pow 10 (-shift).toNat
  let unit := den * down
  let c := value * up / unit
  let closed := d.mantissa % 2 = 0
  let within (x : Nat) : Bool :=
    if closed then low * up ≤ x * unit && x * unit ≤ high * up
    else low * up < x * unit && x * unit < high * up
  let belowGap := value * up - c * unit
  let aboveGap := (c + 1) * unit - value * up
  match within c, within (c + 1) with
  | true, true =>
    some (if belowGap < aboveGap ∨ (belowGap = aboveGap ∧ c % 2 = 0) then c else c + 1)
  | true, false => some c
  | false, true => some (c + 1)
  | false, false => none

/-- The first of some grids that has a point for a value: the point and the number of digits. -/
def firstGrid (d : Double) (k : Int) : List Nat → Nat × Nat
  | [] => (0, 0)
  | n :: rest =>
    match d.gridPoint? k n with
    | some c => (c, n)
    | none => firstGrid d k rest

/-- Decimal digits with the point after the first `k` of them. -/
def positional (digits : List Char) (k : Int) : List Char :=
  if k ≤ 0 then '0' :: '.' :: (List.replicate (-k).toNat '0' ++ digits)
  else
    let n := k.toNat
    if digits.length ≤ n then digits ++ List.replicate (n - digits.length) '0' ++ ['.', '0']
    else digits.take n ++ '.' :: digits.drop n

/-- Digits without the zeros at their end. -/
def stripZeros (ds : List Char) : List Char :=
  (ds.reverse.dropWhile (· = '0')).reverse

/-- Decimal digits with the point after the first of them and the power of ten that moves it
behind the first `k`. The sign of the power is always shown. -/
def scientific (digits : List Char) (k : Int) : List Char :=
  let power := k - 1
  let shown := (if power < 0 then '-' else '+') :: Nat.toDigits 10 power.natAbs
  match digits with
  | [] => []
  | [c] => c :: 'e' :: shown
  | c :: cs => c :: '.' :: (cs ++ 'e' :: shown)

/-- The most zeros that positional notation shows after the point before the first digit. -/
def zerosMost : Nat := 4

/-- The most digits that positional notation shows before the point. -/
def wholeMost : Nat := 16

/-- Decimal digits with the point behind the first `k` of them. -/
def written (digits : List Char) (k : Int) : List Char :=
  if -(zerosMost : Int) ≤ k ∧ k ≤ wholeMost then positional digits k else scientific digits k

/-- The decimal text of a value. -/
def render (d : Double) : String :=
  if d.mantissa = 0 then "0.0"
  else
    let f := d.fraction
    let k := pointPosition f.1 f.2
    let (c, n) := d.firstGrid k (List.range' 1 17)
    let ds := Nat.toDigits 10 c
    -- The point may have grown by one digit, as when 9.99 becomes 10.
    String.ofList (written (stripZeros ds) (k + ((ds.length : Int) - n)))

end Double
end Json
end CjsxConversion
