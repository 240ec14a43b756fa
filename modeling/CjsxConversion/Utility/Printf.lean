import CjsxConversion.Host.Proc
import CjsxConversion.Utility.Escapes
import CjsxConversion.Utility.Format

/-!
# Writing by a format

`printf` writes its arguments by a format, which is used again as long as arguments are left.

`once` goes through the format from left to right and keeps what was written, the
arguments that are left and the complaints. The format is used again where it has used an argument.
-/

namespace CjsxConversion
namespace Printf

/-- How far the writing has come. -/
structure Progress where
  args : List Narrow
  written : List Narrow := []
  complaints : List Narrow := []
  status : Nat := 0
  isOver : Bool := false
  deriving Repr

namespace Progress

/-- Writes a text. -/
def say (p : Progress) (cs : Narrow) : Progress := { p with written := cs :: p.written }

def complain (p : Progress) (cs : Narrow) : Progress :=
  { p with complaints := cs :: p.complaints, status := 1 }

def warn (p : Progress) (cs : Narrow) : Progress := { p with complaints := cs :: p.complaints }

def fail (p : Progress) (cs : Narrow) : Progress := { p.complain cs with isOver := true }

/-- The next argument, which is empty if there is none. -/
def next (p : Progress) : Narrow × Progress := (p.args.head?.getD [], { p with args := p.args.drop 1 })

end Progress

/-- The least number of 64 bits. -/
def leastSigned : Int := -Nat.pow 2 63

/-- The largest number of 64 bits. -/
def largestSigned : Int := Nat.pow 2 63 - 1

/-- Complains about an argument that is no number or is followed by something else. -/
def checkEnd (arg rest : Narrow) (found inRange : Bool) (p : Progress) : Progress :=
  if !inRange then p.complain (Quoting.phrase arg ++ ": Numerical result out of range".toList)
  else if rest = [] then p
  else if !found then p.complain (Quoting.phrase arg ++ ": expected a numeric value".toList)
  else p.complain (Quoting.phrase arg ++ ": value not completely converted".toList)

/-- The number of a character behind a quotation mark, if the argument is one. -/
def charNumber? (arg : Narrow) (p : Progress) : Option (Nat × Progress) :=
  match arg with
  | q :: c :: rest =>
    if q = '\'' ∨ q = '"' then
      some (c.toNat, if rest = [] then p
        else p.warn ("warning: ".toList ++ rest
          ++ ": character(s) following character constant have been ignored".toList))
    else none
  | _ => none

/-- An argument as a whole number with a sign. -/
def signedNumber (arg : Narrow) (p : Progress) : Int × Progress :=
  match charNumber? arg p with
  | some (n, p) => (n, p)
  | none =>
    let w := Numerals.readWhole none arg
    let n := max leastSigned (min w.value largestSigned)
    (n, checkEnd arg w.rest w.found (n = w.value) p)

/-- An argument as a natural number of 64 bits. -/
def unsignedNumber (arg : Narrow) (p : Progress) : Nat × Progress :=
  match charNumber? arg p with
  | some (n, p) => (n, p)
  | none =>
    let w := Numerals.readWhole none arg
    let inRange : Bool := w.value.natAbs < Nat.pow 2 64
    let n := if inRange then (w.value % Nat.pow 2 64).toNat else Nat.pow 2 64 - 1
    (n, checkEnd arg w.rest w.found inRange p)

/-- The binary digits of a real number. -/
def realBits : Nat := 64

/-- The least power of two of a real number. -/
def realLeast : Int := -16445

/-- A real number as it is computed with. -/
def rounded (bits : Nat) (least : Int) (limit : Nat) (m : Numerals.Magnitude) :
    Numerals.Magnitude :=
  match m with
  | .fraction num den =>
    let (a, b) := Numerals.roundTo bits least num den
    if Nat.pow 2 limit * b ≤ a then .infinite else .fraction a b
  | m => m

/-- Whether a real number is neither too large nor, where it is not exact, too small for so many
binary digits above a least power of two. -/
def isInRange (bits : Nat) (least : Int) (m kept : Numerals.Magnitude) : Bool :=
  match m, kept with
  | .fraction _ _, .infinite => false
  | .fraction num den, .fraction a b =>
    num * b = a * den || !(a * Nat.pow 2 (1 - least - bits).toNat < b)
  | _, _ => true

def realNumber (arg : Narrow) (p : Progress) : (Bool × Numerals.Magnitude) × Progress :=
  match charNumber? arg p with
  | some (n, p) => ((false, .fraction n 1), p)
  | none =>
    let r := Numerals.readReal arg
    let m := rounded realBits realLeast 16384 r.magnitude
    ((r.negative, m), checkEnd arg r.rest r.found (isInRange realBits realLeast r.magnitude m) p)

def flagChars : Narrow := "-+ #0'I".toList

/-- The notations that a directive with given flags may have. -/
def allowed (flags : Narrow) (precise : Bool) : Narrow :=
  "aAcdeEfFgGiosuxX".toList.filter fun c =>
    !((flags.contains '\'' || flags.contains 'I') && "aAceEosxX".toList.contains c)
    && !(flags.contains '#' && "cdisu".toList.contains c)
    && !(flags.contains '0' && "cs".toList.contains c)
    && !(precise && c = 'c')

/-- The modifiers of size, which say nothing here. -/
def sizes : Narrow := "lLhjtz".toList

/-- A width or precision that a star takes from the arguments. -/
def starNumber (what : String) (least : Int) (p : Progress) : Int × Progress :=
  if p.args = [] then (0, p)
  else
    let (arg, p) := p.next
    let (n, p) := signedNumber arg p
    if least ≤ n ∧ n ≤ Directive.largestCount then (n, p)
    else (0, p.fail (("invalid " ++ what ++ ": ").toList ++ Quoting.phrase arg))

/-- The directive of a shape, its stars taken from the arguments. -/
def directiveOf (s : Directive.Shape) (letter : Char) (p : Progress) : Directive × Progress :=
  let d : Directive := { flags := s.flags, letter }
  let (d, p) := match s.width with
    | some ds => ({ d with width := Narrow.digitsValue 10 ds }, p)
    | none =>
      let (n, p) := starNumber "field width" (-1 - Directive.largestCount) p
      (d.withWidth n, p)
  match s.precision with
  | none => (d, p)
  | some (some ds) => ({ d with precision := some (Narrow.digitsValue 10 ds) }, p)
  | some none =>
    let (n, p) := if p.isOver then (0, p) else starNumber "precision" leastSigned p
    (if n < 0 then d else { d with precision := some n.toNat }, p)

/-- Writes the next argument as a directive says. -/
def write (d : Directive) (p : Progress) : Progress :=
  let (arg, p) := p.next
  match d.letter with
  | 's' => p.say (d.text arg)
  | 'c' => p.say (d.char (arg.head?.getD '\x00'))
  | 'd' | 'i' =>
    let (n, p) := signedNumber arg p
    p.say (d.signed n)
  | 'o' | 'u' | 'x' | 'X' =>
    let (n, p) := unsignedNumber arg p
    p.say (d.unsigned n)
  | _ =>
    let ((negative, m), p) := realNumber arg p
    p.say (d.real 4 negative m)

/-- Writes an argument whose escapes are read. -/
def writeEscaped (p : Progress) : Progress :=
  if p.args = [] then p
  else
    let (arg, p) := p.next
    let (text, more, fault?) := Escapes.textWith (Escapes.ofProgram true) (arg.length + 1) arg
    let p := p.say text
    match fault? with
    | some text => p.fail text
    | none => if more then p else { p with isOver := true, status := 0 }

/-- Goes once through a format. The bound is its length. -/
def once : Nat → Narrow → Progress → Progress
  | 0, _, p => p
  | _ + 1, [], p => p
  | n + 1, '\\' :: cs, p =>
    match Escapes.ofProgram false cs with
    | (.chars text, rest) => once n rest (p.say text)
    | (.stop, _) => { p with isOver := true, status := 0 }
    | (.fault text, _) => p.fail text
  | n + 1, '%' :: '%' :: cs, p => once n cs (p.say ['%'])
  | n + 1, '%' :: 'b' :: cs, p =>
    let p := writeEscaped p
    if p.isOver then p else once n cs p
  | n + 1, '%' :: 'q' :: cs, p =>
    if p.args = [] then once n cs p
    else
      let (arg, p) := p.next
      once n cs (p.say (Quoting.name arg))
  | n + 1, '%' :: cs, p =>
    let s := Directive.readShape flagChars cs
    let rest := s.rest.dropWhile sizes.contains
    let letter := rest.head?.getD '\x00'
    let shown := '%' :: cs.take (cs.length - rest.length + 1)
    let (d, p) := directiveOf s letter p
    if p.isOver then p
    else if !(allowed s.flags s.precision.isSome).contains letter then
      p.fail (shown ++ ": invalid conversion specification".toList)
    else if !d.isMeasured then p.fail "write error".toList
    else once n (rest.drop 1) (write d p)
  | n + 1, c :: cs, p => once n cs (p.say [c])

/-- Goes through a format as long as it uses arguments. The bound is their number. -/
def repeated : Nat → Narrow → Progress → Progress
  | 0, _, p => p
  | n + 1, format, p =>
    let q := once (format.length + 1) format p
    if q.isOver ∨ q.args = [] ∨ q.args.length = p.args.length then q
    else repeated n format q

/-- Writes arguments by a format. -/
def perform (format : Narrow) (args : List Narrow) : Progress :=
  let p := repeated (args.length + 1) format { args }
  match p.args with
  | extra :: _ =>
    if p.isOver then p
    else p.warn ("warning: ignoring excess arguments, starting with ".toList
      ++ Quoting.phrase extra)
  | [] => p

def run (name : Narrow) (args : List Narrow) : Job Nat := do
  let words := if args.head? = some ['-', '-'] then args.drop 1 else args
  match words with
  | [] => Job.misuse name "missing operand".toList 1
  | format :: args =>
    let p := perform format args
    for text in p.complaints.reverse do
      Job.complain name text
    Job.finish name p.written.reverse.flatten p.status 1

end Printf
end CjsxConversion
