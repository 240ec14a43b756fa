import CjsxConversion.Shell.Builtin.Options
import CjsxConversion.Shell.Fields

/-!
# Commands for variables and parameters

Variables are shown to programs, kept from change, taken away, or made to hold in a function only.
Parameters are set, shifted, and read as options. A line of the input is split into variables.
-/

namespace CjsxConversion
namespace Shell
namespace Variables

/-- The variables in the order of their names, as far as they pass a test, each as a command with a
given beginning. -/
def listing (beginning : Narrow) (shown : Variable → Bool) (s : State) : Narrow :=
  let vs := (s.known.filter shown).mergeSort fun a b => Narrow.le a.name b.name
  vs.flatMap fun v =>
    beginning ++ v.name ++ (match v.value with
      | some value => '=' :: singleQuoted value
      | none => []) ++ ['\n']

/-- Changes what is known of a variable, without its value. -/
def changeOrSet (change : Variable → Variable) (word : Narrow) : Sh Unit := do
  let s ← get
  let (name, value) := splitAssignment word
  match value, s.lookUp? name with
  | none, some v => set (s.withVariable (change v))
  | value, old =>
    if !Narrow.isName name then failAbout name "bad variable name"
    let v := change ((old.getD { name }))
    setVariable name value v.exported v.readOnly

/-- Shows variables to programs, or keeps them from change. -/
def mark (change : Variable → Variable) (shown : Variable → Bool) (beginning : Narrow)
    (args : List Narrow) : Sh Nat := do
  let (listed, words) ← match args with
    | ('-' :: c :: cs) :: ws =>
      if c = '-' ∧ cs = [] then pure (false, ws)
      else if c = 'p' then pure (true, ws)
      else failWith ("Illegal option -".toList ++ [c])
    | ws => pure (false, ws)
  if listed ∨ words = [] then say (listing beginning shown (← get))
  else
    for w in words do
      changeOrSet change w
  return 0

/-- Shows variables to programs. -/
def exportVariables (args : List Narrow) : Sh Nat :=
  mark (fun v => { v with exported := true }) (·.exported) "export ".toList args

/-- Keeps variables from change. -/
def readonlyVariables (args : List Narrow) : Sh Nat :=
  mark (fun v => { v with readOnly := true }) (·.readOnly) "readonly ".toList args

/-- Takes variables or functions away. -/
def unsetNames (args : List Narrow) : Sh Nat := do
  let (given, names) ← takeOptions [('v', false), ('f', false)] args
  for name in names do
    if given.getLast?.any fun g => g.1 = 'f' then
      modify fun s => { s with functions := s.functions.filter fun f => f.name ≠ name }
    else
      if !Narrow.isName name then failAbout name "bad variable name"
      unsetVariable name
  return 0

/-- Makes variables hold in a function only. -/
def localVariables (args : List Narrow) : Sh Nat := do
  if (← get).asides = [] then failWith "not in a function".toList
  for w in args do
    makeLocal w false
  return 0

def setParams (params : List Narrow) : Sh Unit :=
  modify fun s => { s with params, optionIndex := 1, optionOffset := none }

/-- Sets options and parameters. -/
def setAll (args : List Narrow) : Sh Nat := do
  if args = [] then say (listing [] (·.value.isSome) (← get))
  else
    let (_, rest, apart) ← takeSettings false (args.length + 1) args
    if rest ≠ [] ∨ apart then setParams rest
  return 0

/-- Leaves out the first parameters. -/
def shift (args : List Narrow) : Sh Nat := do
  let n ← match args with
    | [] => pure 1
    | w :: _ => natOf w
  let s ← get
  if s.params.length < n then failWith "can't shift that many".toList
  setParams (s.params.drop n)
  return 0

/-! ### Options of the script -/

/-- Whether an option of a script has an argument, if there is such an option. -/
def wantsArgument? (c : Char) : Narrow → Option Bool
  | [] => none
  | d :: ds =>
    if d = c then some (ds.head? = some ':')
    else wantsArgument? c (if ds.head? = some ':' then ds.drop 1 else ds)
termination_by ds => ds.length
decreasing_by
  simp only [List.length_cons]
  split
  · simp only [List.length_drop]
    omega
  · omega

/-- Keeps where an option of a script was found. -/
def foundOption (target value : Narrow) (index : Nat) (offset : Option Nat) : Sh Unit := do
  assign "OPTIND".toList (Narrow.ofNat index)
  assign target value
  modify fun s => { s with optionIndex := index, optionOffset := offset }

/-- Reads an option letter of a word whose rest follows it, where the next word has a number. -/
def readOption (known name : Narrow) (words : List Narrow) (index offset : Nat) (c : Char)
    (rest : Narrow) : Sh Nat := do
  let quiet : Bool := known.head? = some ':'
  let left := if rest = [] then none else some offset
  let argument (value : Narrow) : Sh Unit := assign "OPTARG".toList value
  match wantsArgument? c known with
  | none =>
    if quiet then argument [c]
    else
      sayError ("Illegal option -".toList ++ [c, '\n'])
      unsetVariable "OPTARG".toList
    foundOption name ['?'] index left
  | some false =>
    argument []
    foundOption name [c] index left
  | some true =>
    match rest, words[index - 1]? with
    | [], none =>
      if quiet then argument [c]
      else
        sayError ("No arg for -".toList ++ [c] ++ " option\n".toList)
        unsetVariable "OPTARG".toList
      foundOption name [if quiet then ':' else '?'] index none
    | [], some w =>
      argument w
      foundOption name [c] (index + 1) none
    | rest, _ =>
      argument rest
      foundOption name [c] index none
  return 0

/-- Reads the next option of a script. -/
def getopts (args : List Narrow) : Sh Nat := do
  match ← operandsOf args with
  | known :: name :: given =>
    let s ← get
    let words := if given = [] then s.params else given
    let fits : Bool := s.optionIndex ≤ words.length + 1
    let index := if fits then s.optionIndex else 1
    let offset := if fits then s.optionOffset else none
    let begun : Option (Narrow × Nat) := do
      let k ← offset
      let w ← if index ≤ 1 then none else words[index - 2]?
      if k < w.length then some (w.drop k, k) else none
    match begun with
    | some (c :: rest, k) => readOption known name words index (k + 1) c rest
    | _ =>
      match words[index - 1]? with
      | some ['-', '-'] =>
        foundOption name ['?'] (index + 1) none
        return 1
      | some ('-' :: c :: rest) => readOption known name words (index + 1) 2 c rest
      | _ =>
        foundOption name ['?'] index none
        return 1
  | _ => failWith "Usage: getopts optstring var [arg...]".toList

/-! ### Reading a line -/

/-- A line that is being read. -/
structure LineReading where
  stretches : List Stretch := []
  cells : List Cell := []

/-- A line with the current stretch closed. -/
def LineReading.close (l : LineReading) : LineReading :=
  { stretches := ⟨.fields, l.cells.reverse⟩ :: l.stretches }

inductive LineEnd where
  | closed
  | joined
  | missing
  deriving DecidableEq, Repr

/-- A line with the characters of the input that belong to it. -/
def LineReading.add (raw : Bool) : Narrow → LineReading → LineReading × LineEnd
  | [], l => (l.close, .missing)
  | '\n' :: _, l => (l.close, .closed)
  | '\x00' :: cs, l => l.add raw cs
  | '\\' :: cs, l =>
    if raw then { l with cells := .letter '\\' false :: l.cells }.add raw cs
    else
      match cs with
      | [] => (l.close, .missing)
      | '\n' :: _ => (l.close, .joined)
      | c :: cs =>
        let l := l.close
        { l with stretches := ⟨.whole, [.letter c true]⟩ :: l.stretches }.add raw cs
  | c :: cs, l => { l with cells := .letter c false :: l.cells }.add raw cs

/-- Takes a line of standard input. Tells whether there was an end of line. The bound is the number
of lines that are joined. -/
def takeLine (raw : Bool) : Nat → LineReading → Sh (LineReading × Bool)
  | 0, l => return (l.close, false)
  | n + 1, l => do
    let text ← asProc (do
      match (← read).opening? 0 with
      | none => return .error .badDescriptor
      | some n => System.readLine n)
    match l.add raw (text.toOption.getD []) with
    | (l, .joined) => takeLine raw n l
    | (l, lineEnd) => return (l, lineEnd = .closed)

/-- Assigns fields to variables. Variables without a field become empty. -/
def assignFields : List Narrow → List Narrow → Sh Unit
  | [], _ => return ()
  | name :: names, fields => do
    assign name (fields.head?.getD [])
    assignFields names (fields.drop 1)

/-- How many lines may be joined. -/
def lineLimit : Nat := 1000000

/-- Reads a line of standard input into variables. -/
def readLine (args : List Narrow) : Sh Nat := do
  let (given, names) ← takeOptions [('p', true), ('r', false)] args
  if names = [] then failWith "arg count".toList
  let (l, ended) ← takeLine (given.any fun g => g.1 = 'r') lineLimit {}
  let s ← get
  let fields := splitFields s.separators (some names.length) l.stretches.reverse
  assignFields names (fields.map textOf)
  return if ended then 0 else 1

end Variables
end Shell
end CjsxConversion
