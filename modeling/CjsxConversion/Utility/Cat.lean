import CjsxConversion.Host.Proc
import CjsxConversion.Utility.Options

/-!
# Joining files

`cat` writes one file after the other. It can number lines, leave out repeated blank ones, and show
what cannot be seen.
-/

namespace CjsxConversion
namespace Cat

/-- How a text is shown. -/
structure Style where
  numbers : Bool := false
  numbersNonblank : Bool := false
  squeezes : Bool := false
  showsEnds : Bool := false
  showsTabs : Bool := false
  showsControls : Bool := false
  deriving DecidableEq, Repr

/-- Where a text has come to. -/
structure Position where
  atStart : Bool := true
  afterBlank : Bool := false
  line : Nat := 0
  deriving DecidableEq, Repr

def table : OptionTable where
  short := "AbeEnstTuv".toList.map fun c => (c, .none)
  long := [("number-nonblank", .none, 'b'), ("number", .none, 'n'), ("squeeze-blank", .none, 's'),
    ("show-nonprinting", .none, 'v'), ("show-ends", .none, 'E'), ("show-tabs", .none, 'T'),
    ("show-all", .none, 'A')]

/-- A style after one more option. -/
def Style.add (s : Style) (o : GivenOption) : Style :=
  match o.letter with
  | 'A' => { s with showsControls := true, showsEnds := true, showsTabs := true }
  | 'b' => { s with numbersNonblank := true }
  | 'e' => { s with showsControls := true, showsEnds := true }
  | 'E' => { s with showsEnds := true }
  | 'n' => { s with numbers := true }
  | 's' => { s with squeezes := true }
  | 't' => { s with showsControls := true, showsTabs := true }
  | 'T' => { s with showsTabs := true }
  | 'v' => { s with showsControls := true }
  | _ => s

/-- A control character below 128 in letters. -/
def caret (c : Char) : Narrow :=
  if c.toNat < 32 then ['^', Char.ofNat (c.toNat + 64)]
  else if c.toNat = 127 then ['^', '?']
  else [c]

def letters (c : Char) : Narrow :=
  if c.toNat < 128 then caret c else ['M', '-'] ++ caret (Char.ofNat (c.toNat - 128))

/-- How a character within a line is shown, given what follows it. -/
def showChar (s : Style) (c : Char) (next : Option Char) : Narrow :=
  if c = '\t' then if s.showsTabs then ['^', 'I'] else [c]
  else if s.showsControls then letters c
  else if c = '\r' ∧ s.showsEnds ∧ next = some '\n' then ['^', 'M']
  else [c]

/-- The number in front of a line. -/
def numberText (n : Nat) : Narrow := Narrow.padLeft 6 (Narrow.ofNat n) ++ ['\t']

/-- How a text is shown from a position on, and the position behind it. -/
def showFrom (s : Style) : Position → Narrow → Narrow × Position
  | p, [] => ([], p)
  | p, c :: cs =>
    if c = '\n' then
      if p.atStart ∧ p.afterBlank ∧ s.squeezes then showFrom s p cs
      else
        let counted := p.atStart ∧ s.numbers ∧ ¬ s.numbersNonblank
        let line := if counted then p.line + 1 else p.line
        let (rest, q) := showFrom s ⟨true, p.atStart, line⟩ cs
        ((if counted then numberText line else []) ++ (if s.showsEnds then ['$'] else [])
          ++ '\n' :: rest, q)
    else
      let counted := p.atStart ∧ (s.numbers ∨ s.numbersNonblank)
      let line := if counted then p.line + 1 else p.line
      let (rest, q) := showFrom s ⟨false, false, line⟩ cs
      ((if counted then numberText line else []) ++ showChar s c cs.head? ++ rest, q)

/-- Whether an operand leads to the file that standard output leads to, and is not at its end. -/
def feedsItself (number : Nat) : Job Bool := do
  let p ← read
  let s ← get
  match s.openings[number]?, (p.opening? 1).bind fun k => s.openings[k]? with
  | some source, some sink =>
    match source.channel, sink.channel with
    | .file a, .file b =>
      match s.files.get? a with
      | some (.file data _) => return a = b && source.offset < data.length
      | _ => return false
    | _, _ => return false
  | _, _ => return false

def openOperand (path : Narrow) : Job (Except OsFault Nat) := do
  let p ← read
  if path = ['-'] then return (p.opening? 0).elim (.error .badDescriptor) .ok
  else p.openFile path .read

/-- Writes one operand after the other. -/
def writeAll (name : Narrow) (s : Style) : Position → List Narrow → Job Nat
  | _, [] => return 0
  | p, path :: paths => do
    match ← openOperand path with
    | .error fault =>
      Job.complain name (Job.about path fault)
      let _ ← writeAll name s p paths
      return 1
    | .ok n =>
      if ← feedsItself n then
        Job.complain name (Quoting.name path ++ ": input file is output file".toList)
        let _ ← writeAll name s p paths
        return 1
      match ← System.readAll n with
      | .error fault =>
        Job.complain name (Job.about path fault)
        let _ ← writeAll name s p paths
        return 1
      | .ok text =>
        let (shown, p) := showFrom s p text
        match ← if shown = [] then pure (.ok ()) else Job.put 1 shown with
        | .error fault =>
          Job.complain name ("write error: ".toList ++ fault.sentence.toList)
          return 1
        | .ok () => writeAll name s p paths

def run (name : Narrow) (args : List Narrow) : Job Nat := do
  let r := table.read args
  match r.fault with
  | some fault => Job.misuse name fault.message 1
  | none =>
    if ((← read).opening? 1).isNone then
      Job.complain name ("standard output: ".toList ++ OsFault.badDescriptor.sentence.toList)
      return 1
    let paths := if r.operands = [] then [['-']] else r.operands
    let status ← writeAll name (r.options.foldl Style.add {}) {} paths
    if paths.contains ['-'] ∧ ((← read).opening? 0).isNone then
      Job.complain name
        ("closing standard input: ".toList ++ OsFault.badDescriptor.sentence.toList)
      return 1
    return status

end Cat
end CjsxConversion
