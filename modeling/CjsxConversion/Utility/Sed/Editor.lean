import CjsxConversion.Utility.Sed.Substitution
import CjsxConversion.Host.Proc

/-!
# The work of the stream editor

The editor keeps the text that is worked on, the text that it was told to keep, the input that is
left, and what it has written. The input is the operands one after the other; it is read line by
line, and a file is opened when the one before it has ended.

A line that had no end is written without one, and the end is added when
something is written behind it.
-/

namespace CjsxConversion
namespace Sed

/-- What was asked of the editor. -/
structure Settings where
  silent : Bool := false
  extended : Bool := false
  separate : Bool := false
  inPlace : Bool := false
  suffix : Narrow := []
  nulEnds : Bool := false
  width : Nat := 70
  strict : Bool := false
  deriving Repr, Inhabited

def Settings.lineEnd (σ : Settings) : Char := if σ.nulEnds then '\x00' else '\n'

/-- A text that is worked on or kept, and whether its line had an end. -/
structure Space where
  text : Narrow := []
  ended : Bool := true
  deriving DecidableEq, Repr, Inhabited

/-- What is written behind a line. -/
inductive Appendix where
  | text (cs : Narrow)
  | file (path : Narrow)
  deriving Repr

/-- Whether a command is in the middle of its range. -/
inductive RangeState where
  | before
  | within (last : Option Nat)
  | behind
  deriving DecidableEq, Repr, Inhabited

/-- Where something is written. -/
inductive Outlet where
  | output
  | errors
  | file (opening : Nat)
  deriving DecidableEq, Repr, Inhabited

/-- A page that is written. -/
structure Page where
  written : List Narrow := []
  unended : Bool := false
  deriving Repr, Inhabited

namespace Page

/-- A page with a text behind it, whose last line gets its end before. -/
def add (lineEnd : Char) (cs : Narrow) (p : Page) : Page :=
  ⟨cs :: (if p.unended then [lineEnd] :: p.written else p.written), false⟩

def addLine (lineEnd : Char) (cs : Narrow) (ended : Bool) (p : Page) : Page :=
  let q := p.add lineEnd (if ended then cs ++ [lineEnd] else cs)
  { q with unended := !ended }

def content (p : Page) : Narrow := p.written.reverse.flatten

end Page

/-- A file that a script writes. -/
structure Sheet where
  path : Narrow
  outlet : Outlet
  page : Page := {}
  deriving Repr, Inhabited

/-- A file of which lines are put in. -/
structure LineSource where
  path : Narrow
  all : List Narrow
  left : List Narrow
  deriving Repr

/-- The state of the editor: the text that is worked on and the one that is kept, where reading has
come to, and what is written, to standard output, in the place of the file and elsewhere. -/
structure Editor where
  space : Space := {}
  kept : Space := {}
  number : Nat := 0
  replaced : Bool := false
  appendices : List Appendix := []
  ranges : Array RangeState := #[]
  latest : Option (Regex × MatchMode) := none
  lines : List Narrow := []
  source : Option Nat := none
  used : Nat := 0
  name : Narrow := ['-']
  operands : List Narrow := []
  begins : Bool := false
  misses : Bool := false
  output : List Narrow := []
  unended : Bool := false
  edited : Page := {}
  sheets : List Sheet := []
  readers : List LineSource := []
  deriving Inhabited

abbrev Edit := ReaderT Settings (StateT Editor Job)

/-- How the work goes on. -/
inductive Flow where
  | on
  | to (k : Nat)
  | finish
  | drop
  | again
  | quit (status : Nat)
  | quitSilently (status : Nat)
  | stop (text : Narrow) (status : Nat)
  deriving Repr

/-- The state of a range before the first line. A range from line zero has already begun. -/
def RangeState.initial (c : Command) : RangeState :=
  match c.first with
  | some (.line 0) => .within none
  | _ => .before

/-! ### Writing -/

/-- Writes a text to where the script writes. -/
def emit (cs : Narrow) : Edit Unit := do
  let σ ← read
  modify fun e =>
    if σ.inPlace then { e with edited := e.edited.add σ.lineEnd cs }
    else
      let p := (⟨e.output, e.unended⟩ : Page).add σ.lineEnd cs
      { e with output := p.written, unended := p.unended }

/-- Writes a line to where the script writes. -/
def emitLine (cs : Narrow) (ended : Bool) : Edit Unit := do
  let σ ← read
  modify fun e =>
    if σ.inPlace then { e with edited := e.edited.addLine σ.lineEnd cs ended }
    else
      let p := (⟨e.output, e.unended⟩ : Page).addLine σ.lineEnd cs ended
      { e with output := p.written, unended := p.unended }

/-- Writes a line to a file of the script. -/
def emitTo (path cs : Narrow) (ended : Bool) : Edit Unit := do
  let σ ← read
  let e ← get
  match e.sheets.find? fun s => s.path = path with
  | none => return ()
  | some sheet =>
    let start : Page := { sheet.page with written := [] }
    let page := start.addLine σ.lineEnd cs ended
    let keep (page : Page) : Edit Unit := modify fun e => { e with
      sheets := e.sheets.map fun s => if s.path = path then { s with page } else s }
    match sheet.outlet with
    | .output =>
      keep { page with written := [] }
      modify fun e => { e with output := page.written ++ e.output }
    | .errors =>
      keep { page with written := [] }
      let _ ← (Job.put 2 page.content : Job _)
    | .file _ => keep { page with written := page.written ++ sheet.page.written }

/-- Writes what belongs behind the line. -/
def emitAppendices : Edit Unit := do
  let appendices := (← get).appendices
  modify fun e => { e with appendices := [] }
  for a in appendices do
    match a with
    | .text cs => emit cs
    | .file path =>
      match ← (Job.contentOf path : Job _) with
      | .ok cs => emit cs
      | .error _ => emit []

/-! ### Reading -/

/-- Says what is wrong. -/
def warn (text : Narrow) : Edit Unit := (Job.complain "sed".toList text : Job Unit)

/-- Opens the next file. Its lines, or the fault that reading it meets. -/
def openNext (path : Narrow) : Edit (Except OsFault (List Narrow)) := do
  let σ ← read
  let p ← (ReaderT.read : Job Proc)
  let opened : Except OsFault Nat ←
    if path = ['-'] ∧ ¬ σ.inPlace then pure ((p.opening? 0).elim (.error .badDescriptor) .ok)
    else (p.openFile path .read : Act _)
  match opened with
  | .error .badDescriptor =>
    if path = ['-'] then
      modify fun e => { e with name := path }
      return .error .badDescriptor
    else return .ok []
  | .error fault =>
    warn ("can't read ".toList ++ path ++ ": ".toList ++ fault.sentence.toList)
    modify fun e => { e with misses := true }
    return .ok []
  | .ok n =>
    modify fun e => { e with name := path, source := some n, used := 0 }
    match ← (System.readAll n : Act _) with
    | .error fault => return .error fault
    | .ok cs => return .ok (Narrow.linesBy σ.lineEnd cs)

/-- The path of the file that is kept when a file is replaced. -/
def keptPath (suffix path : Narrow) : Narrow :=
  let base := (path.reverse.takeWhile (· ≠ '/')).reverse
  let dir := path.take (path.length - base.length)
  let name :=
    if suffix.contains '*' then suffix.flatMap fun c => if c = '*' then base else [c]
    else base ++ suffix
  if name.contains '/' then name else dir ++ name

/-- Closes the file. Where files are replaced, what was written takes its place. -/
def closeFile : Edit Unit := do
  let σ ← read
  let e ← get
  if σ.inPlace ∧ e.source.isSome then
    let p ← (ReaderT.read : Job Proc)
    let s ← (MonadState.get : Act System)
    match s.files.locate false p.here (System.pathOf e.name) with
    | .error _ => pure ()
    | .ok l =>
      let bits := match (s.files.locate true p.here (System.pathOf e.name)).toOption.bind
          fun l => s.files.get? l with
        | some (.file _ bits) => bits
        | _ => 0o644
      if σ.suffix ≠ [] then
        match s.files.locate false p.here (System.pathOf (keptPath σ.suffix e.name)) with
        | .ok k => (System.rename l k : Act Unit)
        | .error _ => pure ()
      (System.unlink l : Act Unit)
      (modify fun s => { s with
        files := s.files.put l (.file (Narrow.toOctets e.edited.content) bits) } : Act Unit)
  modify fun e => { e with source := none, lines := [], edited := {} }

/-- What is wrong with reading the current file. -/
def readFault (name : Narrow) (fault : OsFault) : Narrow :=
  "read error on ".toList ++ (if name = ['-'] then "stdin".toList else name) ++ ": ".toList
    ++ fault.sentence.toList

/-- Opens the next file to read it. -/
def openToRead (path : Narrow) : Edit (Option Flow) := do
  let σ ← read
  match ← openNext path with
  | .ok lines =>
    modify fun e => { e with lines }
    return none
  | .error fault =>
    if σ.inPlace then
      return some (.stop ("couldn't edit ".toList ++ path ++ ": not a regular file".toList) 4)
    else return some (.stop (readFault path fault) 4)

/-- Reads the next line into the text, or behind it. Without a line there is none; a fault stops
the work. The bound is the number of files. -/
def readLine (ranges : Array RangeState) (behind : Bool) : Nat → Edit (Except Flow Bool)
  | 0 => return .ok false
  | bound + 1 => do
    let σ ← read
    let e ← get
    match e.lines with
    | l :: lines =>
      let ended : Bool := l.getLast? = some σ.lineEnd
      let text := Narrow.chomp σ.lineEnd l
      set { e with
        lines
        used := e.used + l.length
        number := e.number + 1
        space := ⟨if behind then e.space.text ++ σ.lineEnd :: text else text, ended⟩ }
      return .ok true
    | [] =>
      if e.source.isSome then
        closeFile
        modify fun e => { e with begins := σ.separate }
      match e.operands with
      | [] => return .ok false
      | path :: operands =>
        modify fun e =>
          if e.begins then
            { e with number := 0, kept := {}, ranges, begins := false,
                     readers := e.readers.map fun r => { r with left := r.all } }
          else e
        modify fun e => { e with operands }
        match ← openToRead path with
        | some flow => return .error flow
        | none => readLine ranges behind bound

/-- Reads the next line after what belongs behind the last one was written. -/
def nextLine (ranges : Array RangeState) (behind : Bool) : Edit (Except Flow Bool) := do
  emitAppendices
  modify fun e => { e with replaced := false }
  let n := (← get).operands.length
  readLine ranges behind (n + 2)

/-- Whether no file that is left has a line. Files without lines are passed over. The bound is the
number of files. -/
def noneLeft : Nat → Edit Bool
  | 0 => return true
  | bound + 1 => do
    let e ← get
    match e.operands with
    | [] => return true
    | path :: operands =>
      set { e with operands }
      match ← openNext path with
      | .ok (l :: lines) =>
        modify fun e => { e with lines := l :: lines }
        return false
      | _ =>
        modify fun e => { e with source := none }
        noneLeft bound

/-- Whether the current line is the last one. -/
def atLast : Edit Bool := do
  let σ ← read
  let e ← get
  if e.lines ≠ [] then return false
  if σ.separate then return true
  modify fun e => { e with source := none }
  noneLeft (e.operands.length + 1)

/-! ### Picking lines -/

/-- The expression of a matcher, which is the last one that was used if it is empty. -/
def resolve (m : Matcher) : Edit (Option (Regex × MatchMode)) := do
  match m.regex with
  | some r =>
    modify fun e => { e with latest := some (r, m.mode) }
    return some (r, m.mode)
  | none => return (← get).latest

/-- Whether an address picks the line. There is no answer without an expression. -/
def picks (a : Address) : Edit (Option Bool) := do
  let e ← get
  match a with
  | .line n => return some (n = e.number)
  | .step first each => return some (picksStep first each e.number)
  | .last => return some (← atLast)
  | .matching m =>
    match ← resolve m with
    | none => return none
    | some (r, mode) => return some ((r.searchIn mode e.space.text).find? 0).isSome
  | .further n | .multiple n => return some (n = e.number)

def setRange (k : Nat) (s : RangeState) : Edit Unit :=
  modify fun e => { e with ranges := e.ranges.setIfInBounds k s }

/-- Begins a range at the current line. -/
def beginRange (k : Nat) (ending : Address) : Edit Unit := do
  let n := (← get).number
  let upTo (m : Nat) : RangeState := if n < m then .within (some m) else .behind
  setRange k <| match ending with
    | .line m => upTo m
    | .further m => upTo (n + m)
    | .multiple m => if m = 0 then .behind else .within (some (n + (m - n % m)))
    | _ => .within none

/-- Whether a range picks the current line, when it has begun before. -/
def withinRange (k : Nat) (ending : Address) (end? : Option Nat) : Edit (Option Bool) := do
  let n := (← get).number
  match ending, end? with
  | .line _, some m =>
    if m ≤ n then setRange k .behind
    return some (n ≤ m)
  | _, some m =>
    if m ≤ n then setRange k .behind
    return some true
  | ending, none =>
    match ← picks ending with
    | none => return none
    | some ends =>
      if ends then setRange k .behind
      return some true

/-- Whether a range begins at the current line. -/
def beginsRange (first ending : Address) : Edit (Option Bool) := do
  let n := (← get).number
  match first, ending with
  | .line a, .line b => return some (n = a || (a ≤ n && n ≤ b))
  | .line a, _ => return some (a ≤ n)
  | a, _ => picks a

/-- Whether the addresses of a command pick the line. -/
def selects (k : Nat) (c : Command) : Edit (Option Bool) := do
  match c.first, c.last with
  | none, _ => return some true
  | some a, none => picks a
  | some a, some b =>
    match (← get).ranges[k]?.getD .before with
    | .within end? => withinRange k b end?
    | state =>
      let isLine : Bool := match a with
        | .line _ => true
        | _ => false
      if state = .behind ∧ isLine then return some false
      match ← beginsRange a b with
      | some true =>
        beginRange k b
        return some true
      | answer => return answer

end Sed
end CjsxConversion
