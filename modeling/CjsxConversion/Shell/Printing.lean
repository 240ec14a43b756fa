import CjsxConversion.Shell.State
import CjsxConversion.Utility.Printf

/-!
# Writing words

`echo` writes its words in one line, and `printf` writes them by a format. Both read escapes. The
format is used again as long as it uses words.
-/

namespace CjsxConversion
namespace Shell
namespace Printing

/-- What is written for words, with something behind the last one. -/
def spelled (ending : Narrow) : List Narrow → Narrow
  | [] => ending
  | w :: ws =>
    let (text, more) := Escapes.textOfShell (w.length + 1) w
    if !more then text
    else if ws = [] then text ++ ending
    else text ++ ' ' :: spelled ending ws

/-- Writes words in one line. -/
def echo (args : List Narrow) : Sh Nat := do
  if args.head? = some ['-', 'n'] then say (spelled [] (args.drop 1))
  else say (spelled ['\n'] args)
  return 0

/-- A writing by a format that has begun. -/
structure Progress where
  args : List Narrow
  written : List Narrow := []
  status : Nat := 0
  isOver : Bool := false

abbrev Writing := StateT Progress Sh

def put (cs : Narrow) : Writing Unit := modify fun p => { p with written := cs :: p.written }

/-- Writes what was written so far, and stops. -/
def stop {α : Type} (text : Narrow) : Writing α := do
  let p ← get
  let m : Sh α := do
    say p.written.reverse.flatten
    failWith text
  m

/-- The next word, which is empty if there is none. -/
def take : Writing Narrow := modifyGet fun p => (p.args.head?.getD [], { p with args := p.args.drop 1 })

/-- Complains about a word that is not quite a number. -/
def check (word rest : Narrow) (found inRange : Bool) : Writing Unit := do
  let warn (text : String) : Writing Unit := do
    let m : Sh Unit := complain (word ++ ": ".toList ++ text.toList)
    m
    modify fun p => { p with status := 1 }
  if rest ≠ [] then
    warn (if found then "not completely converted" else "expected numeric value")
  else if !inRange then warn "Numerical result out of range"

/-- The number of the character behind a quotation mark. -/
def charNumber? (w : Narrow) : Option Nat :=
  match w with
  | '\'' :: rest | '"' :: rest => some ((rest.head?.map Char.toNat).getD 0)
  | _ => none

/-- The next word as a whole number with a sign. -/
def takeSigned : Writing Int := do
  let w ← take
  match charNumber? w with
  | some n => return n
  | none =>
    let n := Numerals.readWhole none w
    let v := max Printf.leastSigned (min n.value Printf.largestSigned)
    check w n.rest n.found (v = n.value)
    return v

/-- The next word as a natural number. -/
def takeUnsigned : Writing Nat := do
  let w ← take
  match charNumber? w with
  | some n => return n
  | none =>
    let n := Numerals.readWhole none w
    let inRange : Bool := n.value.natAbs < Nat.pow 2 64
    check w n.rest n.found inRange
    return if inRange then (n.value % Nat.pow 2 64).toNat else Nat.pow 2 64 - 1

/-- The next word as a real number. -/
def takeReal : Writing (Bool × Numerals.Magnitude) := do
  let w ← take
  match charNumber? w with
  | some n => return (false, .fraction n 1)
  | none =>
    let r := Numerals.readReal w
    let m := Printf.rounded 53 (-1074) 1024 r.magnitude
    check w r.rest r.found (Printf.isInRange 53 (-1074) r.magnitude m)
    return (r.negative, m)

/-- Writes the next word as a directive says. -/
def write (d : Directive) : Writing Unit := do
  match d.letter with
  | 's' => put (d.text (← take))
  | 'c' => put (d.char ((← take).head?.getD '\x00'))
  | 'd' | 'i' => put (d.signed (← takeSigned))
  | 'o' | 'u' | 'x' | 'X' => put (d.unsigned (← takeUnsigned))
  | 'b' =>
    let w ← take
    let (text, more) := Escapes.textOfShell (w.length + 1) w
    put (d.text text)
    if !more then modify fun p => { p with isOver := true }
  | _ =>
    let (negative, m) ← takeReal
    put (d.real 1 negative m)

/-- The notations. -/
def letters : Narrow := "bcsdiouxXaAeEfFgG".toList

/-- The next word as a width or a precision. -/
def takeCount : Writing Int := return Int.bmod (← takeSigned) 0x100000000

def directiveOf (s : Directive.Shape) (letter : Char) : Writing Directive := do
  let d : Directive := { flags := s.flags, letter }
  let d ← match s.width with
    | some ds => pure { d with width := Narrow.digitsValue 10 ds }
    | none => do pure (d.withWidth (← takeCount))
  match s.precision with
  | none => return d
  | some (some ds) => return { d with precision := some (Narrow.digitsValue 10 ds) }
  | some none =>
    let n ← takeCount
    return if n < 0 then d else { d with precision := some n.toNat }

/-- Goes once through a format. The bound is its length. -/
def once : Nat → Narrow → Writing Unit
  | 0, _ => return ()
  | _ + 1, [] => return ()
  | n + 1, '\\' :: cs => do
    let (text, rest) := Escapes.ofShell cs
    put text
    once n rest
  | n + 1, '%' :: '%' :: cs => do
    put ['%']
    once n cs
  | n + 1, '%' :: cs => do
    let s := Directive.readShape "#-+ 0".toList cs
    match s.rest with
    | [] => stop "missing format character".toList
    | letter :: rest =>
      let d ← directiveOf s letter
      if !letters.contains letter then
        stop ('%' :: cs.take (cs.length - rest.length) ++ ": invalid directive".toList)
      if !d.isMeasured then stop "xvsnprintf failed".toList
      write d
      if !(← get).isOver then once n rest
  | n + 1, c :: cs => do
    put [c]
    once n cs

/-- Goes through a format as long as it uses words. The bound is their number. -/
def repeated : Nat → Narrow → Writing Unit
  | 0, _ => return ()
  | n + 1, format => do
    let before := (← get).args.length
    once (format.length + 1) format
    let p ← get
    if p.isOver ∨ p.args = [] ∨ p.args.length = before then return ()
    repeated n format

/-- Writes words by a format. -/
def printf (args : List Narrow) : Sh Nat := do
  let words ← match args with
    | ['-', '-'] :: ws => pure ws
    | ('-' :: c :: _) :: _ => failWith ("Illegal option -".toList ++ [c])
    | ws => pure ws
  match words with
  | [] => failWith "usage: printf format [arg ...]".toList
  | format :: args =>
    let ((), p) ← (repeated (args.length + 1) format).run { args }
    say p.written.reverse.flatten
    return p.status

end Printing
end Shell
end CjsxConversion
