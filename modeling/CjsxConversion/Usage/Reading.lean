import CjsxConversion.Text.Utf8
import CjsxConversion.Usage.Fault
import CjsxConversion.Usage.Switch

/-!
# Reading the arguments

Arguments are read from left to right, and the first problem stops the reading. What a switch or
the input was given is looked at only when the next parameter begins, or at the end: a word that
belongs to no parameter hides what is wrong with the value before it.

Two dashes alone end the switches. `--name` and `--name=value` give a switch by its
name, `-abc` gives switches by their letters, and everything else, a single dash included, is a
value or the input. After a letter whose switch takes a value, the rest of the word is the value.

Main results:
* `Word.ofOctets_plain`: a word that does not begin with a dash is no switch.
* `Reading.run_append`: arguments may be read in two parts.
-/

namespace CjsxConversion

/-- What an argument looks like. -/
inductive Word where
  | divider
  | long (name : Octets) (value : Option Octets)
  | letters (body : Octets)
  | plain
  deriving DecidableEq, Repr

namespace Word

def dash : UInt8 := 45

def equals : UInt8 := 61

/-- The parts before and behind the first equals sign. -/
def cutAtEquals (b : Octets) : Octets × Option Octets :=
  match b.dropWhile (· ≠ equals) with
  | [] => (b, none)
  | _ :: value => (b.takeWhile (· ≠ equals), some value)

/-- Classifies an argument. -/
def ofOctets (b : Octets) : Word :=
  match b with
  | [] => .plain
  | c :: rest =>
    if c ≠ dash then .plain
    else
      match rest with
      | [] => .plain
      | d :: body =>
        if d ≠ dash then .letters rest
        else if body = [] then .divider
        else
          let (name, value) := cutAtEquals body
          .long name value

/-- A word that does not begin with a dash is no switch. -/
theorem ofOctets_plain (b : Octets) (h : b.head? ≠ some dash) : ofOctets b = .plain := by
  cases b with
  | nil => rfl
  | cons c rest =>
    have hc : c ≠ dash := fun e => h (by simp [e])
    simp [ofOctets, hc]

end Word

/-- A parameter with the value that it was given, if it takes one. -/
structure Given where
  parameter : Parameter
  value : Option String
  deriving DecidableEq, Repr

/-- How far the arguments have been read. What has begun is a parameter that takes a value and came
last, with its value if that has come; once divided, a dash begins no switch. -/
structure Reading where
  given : List Given := []
  begun : Option (Parameter × Option Octets) := none
  divided : Bool := false
  hasInput : Bool := false
  deriving DecidableEq, Repr

namespace Reading

/-- Nothing has been read. -/
def start : Reading := {}

def isGiven (r : Reading) (p : Parameter) : Bool :=
  r.given.any fun g => g.parameter = p

def add (r : Reading) (p : Parameter) (value : Option String) : Reading :=
  { r with given := r.given ++ [⟨p, value⟩] }

/-- Whether a parameter may not be given again. -/
def isSpent (r : Reading) (p : Parameter) : Bool :=
  r.isGiven p && !p.isRepeatable

/-- Takes what a parameter was given. -/
def record (r : Reading) (p : Parameter) (value : Option Octets) : Except Stop Reading :=
  match p.takesValue, value with
  | true, none => .error (.misuse (.missingValue p.text))
  | true, some v =>
    if r.isSpent p then .error (.misuse (.repeated p.text))
    else
      match Utf8.decode? v with
      | some s => .ok (r.add p (some s))
      | none => .error (.misuse .notText)
  | false, _ =>
    if r.isSpent p then .error (.misuse (.repeated p.text)) else .ok (r.add p none)

/-- Takes what the parameter that began last was given. -/
def settle (r : Reading) : Except Stop Reading :=
  match r.begun with
  | none => .ok r
  | some (p, value) => { r with begun := none }.record p value

def beginWith (r : Reading) (p : Parameter) (value : Option Octets) : Except Stop Reading :=
  r.settle.map fun r => { r with begun := some (p, value) }

def give (r : Reading) (s : Switch) (value : Option Octets) : Except Stop Reading :=
  r.settle.bind fun r =>
    match s.purpose with
    | .help => .error .help
    | .version => .error .version
    | _ => r.record (.switch s) value

/-- Reads a name behind two dashes. -/
def long (switches : List Switch) (r : Reading) (name : Octets) (value : Option Octets) :
    Except Stop Reading :=
  match (Utf8.decode? name).bind (Switch.named? switches) with
  | none => .error (.misuse (.unexpected ("--" ++ Utf8.decodeLossy name)))
  | some s =>
    match s.takesValue, value with
    | true, none => r.beginWith (.switch s) none
    | true, some v => r.give s (some v)
    | false, none => r.give s none
    | false, some v => .error (.misuse (.needlessValue s.text (Utf8.decodeLossy v)))

/-- The value behind a letter, which an equals sign may introduce. -/
def attached (b : Octets) : Octets :=
  match b with
  | [] => []
  | c :: rest => if c = Word.equals then rest else b

/-- Reads letters behind one dash, given the octets after them that are no text. -/
def letters (switches : List Switch) (tail : Octets) : Reading → List Char → Except Stop Reading
  | r, [] =>
    if tail = [] then .ok r
    else .error (.misuse (.unexpected ("-" ++ Utf8.decodeLossy tail)))
  | r, c :: cs =>
    match Switch.lettered? switches c with
    | none => .error (.misuse (.unexpected (String.ofList ['-', c])))
    | some s =>
      if s.takesValue then
        let rest := Utf8.encode (String.ofList cs) ++ tail
        if rest = [] then r.beginWith (.switch s) none else r.give s (some (attached rest))
      else
        match r.give s none with
        | .ok r => letters switches tail r cs
        | .error stop => .error stop

def input (r : Reading) (b : Octets) : Except Stop Reading :=
  if r.hasInput then .error (.misuse (.unexpected (Utf8.decodeLossy b)))
  else { r with hasInput := true }.beginWith .input (some b)

/-- Reads a value, or the input where none is waited for. -/
def plain (r : Reading) (b : Octets) : Except Stop Reading :=
  match r.begun with
  | some (p, none) => .ok { r with begun := some (p, some b) }
  | _ => r.input b

def step (switches : List Switch) (r : Reading) (b : Octets) : Except Stop Reading :=
  if r.divided then r.input b
  else
    match Word.ofOctets b with
    | .divider => .ok { r with divided := true }
    | .long name value => r.long switches name value
    | .letters body =>
      let (text, tail) := Utf8.longestText body
      letters switches tail r text.toList
    | .plain => r.plain b

def run (switches : List Switch) : Reading → List Octets → Except Stop Reading
  | r, [] => .ok r
  | r, b :: rest =>
    match r.step switches b with
    | .ok r => run switches r rest
    | .error stop => .error stop

def finish (r : Reading) : Except Stop (List Given) :=
  match r.settle with
  | .error stop => .error stop
  | .ok r =>
    if r.hasInput then .ok r.given
    else .error (.misuse (.missing [Parameter.inputText]))

/-- Arguments may be read in two parts. -/
theorem run_append (switches : List Switch) (r : Reading) (xs ys : List Octets) :
    r.run switches (xs ++ ys) = (r.run switches xs).bind fun r => r.run switches ys := by
  induction xs generalizing r with
  | nil => rfl
  | cons x xs ih =>
    simp only [List.cons_append, run]
    cases r.step switches x with
    | ok r => exact ih r
    | error stop => rfl

end Reading

namespace Given

/-- What the arguments give to the parameters. -/
def ofArguments (c : Catalog) (arguments : List Octets) : Except Stop (List Given) :=
  (Reading.start.run (Switch.all c) arguments).bind Reading.finish

end Given
end CjsxConversion
