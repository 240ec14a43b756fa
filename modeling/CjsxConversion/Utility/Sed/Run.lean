import CjsxConversion.Utility.Options
import CjsxConversion.Utility.Sed.Editor
import CjsxConversion.Utility.Sed.Reader

/-!
# Running the stream editor

`sed` reads its input line by line, runs its script on every line, and writes what the script
leaves of it.

A file that cannot be read is passed over, and told by the status. A script that makes
no sense, or a file that cannot be written, stops the editor before it begins.
-/

namespace CjsxConversion
namespace Sed

def listed (c : Char) : Narrow :=
  if c = '\\' then ['\\', '\\']
  else if Narrow.isPrintable c then [c]
  else Quoting.escaped c

/-- A text as it is listed, in lines of a length. The column is where the text continues. -/
def listAll (lineEnd : Char) (width : Nat) : Nat → Narrow → Narrow
  | _, [] => ['$', lineEnd]
  | column, c :: cs =>
    let front := listed c
    if width ≠ 0 ∧ width - 1 < column + front.length then
      '\\' :: lineEnd :: front ++ listAll lineEnd width front.length cs
    else front ++ listAll lineEnd width (column + front.length) cs

/-- The first line of a text, and whether another one follows it. -/
def firstLine (lineEnd : Char) (cs : Narrow) : Narrow × Bool :=
  let front := cs.takeWhile (· ≠ lineEnd)
  (front, front.length < cs.length)

/-- Changes the text that is worked on. -/
def setText (cs : Narrow) : Edit Unit :=
  modify fun e => { e with space := { e.space with text := cs } }

/-- Writes a text that stands on lines of its own. -/
def emitBlock (cs : Narrow) : Edit Unit :=
  if cs = [] then emit [] else emitLine (Narrow.chomp '\n' cs) true

/-- Takes the next line of a file of which lines are put in. -/
def takeLine (path : Narrow) : Edit (Option Narrow) := do
  let σ ← read
  let e ← get
  let lines ← match e.readers.find? fun r => r.path = path with
    | some r => pure r
    | none =>
      match ← (Job.contentOf path : Job _) with
      | .ok cs =>
        let lines := Narrow.linesBy σ.lineEnd cs
        pure ⟨path, lines, lines⟩
      | .error _ => pure ⟨path, [], []⟩
  modify fun e => { e with
    readers := { lines with left := lines.left.drop 1 } :: e.readers.filter fun r => r.path ≠ path }
  return lines.left.head?

/-- Runs the text as a command, and takes what it writes as the text. -/
def runText (start : Starter) : Edit Unit := do
  let σ ← read
  let cs ← (Job.outputOf start (← get).space.text : Job Narrow)
  setText (Narrow.chomp σ.lineEnd cs)

/-- Replaces what matches. -/
def substitute (start : Starter) (lacking : Narrow) (s : Substitution) : Edit Flow := do
  match ← resolve s.matcher with
  | none => return .stop lacking 1
  | some (regex, mode) =>
    match replace? s regex mode (← get).space.text with
    | none => return .on
    | some cs =>
      setText cs
      modify fun e => { e with replaced := true }
      if s.runs then
        if s.prints && s.printsFirst then
          emitLine (← get).space.text (← get).space.ended
        runText start
      let e ← get
      if s.prints && !(s.runs && s.printsFirst) then emitLine e.space.text e.space.ended
      match s.file with
      | none => return .on
      | some path =>
        emitTo path e.space.text e.space.ended
        return .on

/-- What a jump does with the mark of replacements. -/
def takeReplaced : Edit Bool := do
  let e ← get
  set { e with replaced := false }
  return e.replaced

/-- Goes on to the next line, which takes the place of the text or stands behind it. -/
def advance (ranges : Array RangeState) (behind : Bool) : Edit Flow := do
  if ← atLast then
    let σ ← read
    return if behind ∧ σ.strict then .drop else .finish
  let σ ← read
  let e ← get
  if !behind ∧ !σ.silent then emitLine e.space.text e.space.ended
  match ← nextLine ranges behind with
  | .ok true => return .on
  | .ok false => return .finish
  | .error flow => return flow

/-- Does what a command does. -/
def perform (start : Starter) (ranges : Array RangeState) (lacking : Narrow) (k : Nat)
    (c : Command) : Edit Flow := do
  let σ ← read
  let e ← get
  let text := e.space.text
  match c.action with
  | .opens _ | .nothing => return .on
  | .number =>
    emitLine (Narrow.ofNat e.number) true
    return .on
  | .append cs =>
    set { e with appendices := e.appendices ++ [Appendix.text cs] }
    return .on
  | .insert cs =>
    emitBlock cs
    return .on
  | .change cs =>
    let inside : Bool := match e.ranges[k]? with
      | some (.within _) => c.last.isSome
      | _ => false
    if !inside then emitBlock cs
    return .drop
  | .jump target => return .to target
  | .jumpIf target => if ← takeReplaced then return .to target else return .on
  | .jumpUnless target => if ← takeReplaced then return .on else return .to target
  | .delete => return .drop
  | .deleteFirst =>
    let (front, more) := firstLine σ.lineEnd text
    if more then
      setText (text.drop (front.length + 1))
      return .again
    else return .drop
  | .execute [] =>
    runText start
    modify fun e => { e with space := { e.space with ended := true } }
    return .on
  | .execute command =>
    emit []
    emit (← (Job.outputOf start command : Job Narrow))
    return .on
  | .fileName =>
    emitLine e.name true
    return .on
  | .getKept =>
    set { e with space := e.kept }
    return .on
  | .getKeptBehind =>
    set { e with space := ⟨text ++ σ.lineEnd :: e.kept.text, e.kept.ended⟩ }
    return .on
  | .keep =>
    set { e with kept := e.space }
    return .on
  | .keepBehind =>
    set { e with kept := ⟨e.kept.text ++ σ.lineEnd :: text, e.space.ended⟩ }
    return .on
  | .list width =>
    emit (listAll σ.lineEnd (width.getD σ.width) 0 text)
    return .on
  | .withdrawn letter => return .stop ("INTERNAL ERROR: Bad cmd ".toList ++ [letter]) 4
  | .next => advance ranges false
  | .nextBehind => advance ranges true
  | .print =>
    emitLine text e.space.ended
    return .on
  | .printFirst =>
    let (front, more) := firstLine σ.lineEnd text
    emitLine front (more || e.space.ended)
    return .on
  | .quit status => return .quit status
  | .quitSilently status => return .quitSilently status
  | .readFile path =>
    set { e with appendices := e.appendices ++ [Appendix.file path] }
    return .on
  | .readLine path =>
    match ← takeLine path with
    | some cs => modify fun e => { e with appendices := e.appendices ++ [Appendix.text cs] }
    | none => pure ()
    return .on
  | .substitute s => substitute start lacking s
  | .writeFile path =>
    emitTo path text e.space.ended
    return .on
  | .writeFirst path =>
    let (front, more) := firstLine σ.lineEnd text
    emitTo path front (more || e.space.ended)
    return .on
  | .exchange =>
    set { e with space := e.kept, kept := e.space }
    return .on
  | .translate pairs =>
    setText (text.map fun c => ((pairs.find? fun p => p.1 = c).map (·.2)).getD c)
    return .on
  | .clear =>
    setText []
    return .on

/-- The state of the ranges before the first line. -/
def Script.ranges (s : Script) : Array RangeState := s.commands.map RangeState.initial

/-- What a command, by its number, does to the line. -/
def step (start : Starter) (s : Script) (k : Nat) : Edit Flow := do
  match s.commands[k]? with
  | none => return .finish
  | some c =>
    match ← selects k c with
    | none => return .stop s.lacking 1
    | some picked =>
      if picked != c.negated then perform start s.ranges s.lacking k c
      else
        match c.action with
        | .opens behind => return .to behind
        | _ => return .on

/-- Writes the text, unless lines are not written by themselves. -/
def emitText : Edit Unit := do
  if !(← read).silent then
    let e ← get
    emitLine e.space.text e.space.ended

/-- How the work has ended: with a status, and maybe a message. -/
structure Outcome where
  status : Nat
  message : Option Narrow := none

/-- Runs the script from a command on, line by line. The bound is the number of commands that may
be run. -/
def work (start : Starter) (s : Script) : Nat → Nat → Edit Outcome
  | 0, _ => return ⟨0, none⟩
  | bound + 1, k => do
    match ← step start s k with
    | .on => work start s bound (k + 1)
    | .to target => work start s bound target
    | .again => work start s bound 0
    | .quit status =>
      emitText
      emit []
      emitAppendices
      return ⟨status, none⟩
    | .quitSilently status => return ⟨status, none⟩
    | .stop text status => return ⟨status, some text⟩
    | .finish =>
      emitText
      match ← nextLine s.ranges false with
      | .ok true => work start s bound 0
      | .ok false => return ⟨0, none⟩
      | .error (.stop text status) => return ⟨status, some text⟩
      | .error _ => return ⟨0, none⟩
    | .drop =>
      match ← nextLine s.ranges false with
      | .ok true => work start s bound 0
      | .ok false => return ⟨0, none⟩
      | .error (.stop text status) => return ⟨status, some text⟩
      | .error _ => return ⟨0, none⟩

/-- How many commands may be run. -/
def workLimit : Nat := 2000000

/-- Gives back what was read of the file and not used. -/
def leaveInput : Edit Unit := do
  let e ← get
  match e.source with
  | some n => if e.name = ['-'] then (System.giveBack n e.used e.lines.flatten : Act Unit)
  | none => pure ()

/-- Writes everything to where it belongs. What could not be written, if anything. -/
def deliver : Edit (Option Narrow) := do
  let e ← get
  let about (what : String) (fault : OsFault) : Narrow :=
    ("couldn't " ++ what ++ ": " ++ fault.sentence).toList
  let mut refused : Option Narrow := none
  match ← (Job.put 1 e.output.reverse.flatten : Job _) with
  | .ok () => pure ()
  | .error .badDescriptor => refused := some (about "close stdout" .badDescriptor)
  | .error fault => refused := some (about "flush stdout" fault)
  for sheet in e.sheets do
    match sheet.outlet with
    | .file n =>
      match ← (System.write n sheet.page.content : Act _) with
      | .ok () => pure ()
      | .error fault => refused := refused <|> some (about "flush <unknown>" fault)
    | _ => pure ()
  return refused

/-- Runs a script on files. -/
def edit (start : Starter) (s : Script) : Edit Nat := do
  let outcome ← do
    match ← nextLine s.ranges false with
    | .ok true => work start s workLimit 0
    | .ok false => pure ⟨0, none⟩
    | .error (.stop text status) => pure ⟨status, some text⟩
    | .error _ => pure ⟨0, none⟩
  match outcome.message with
  | some text =>
    warn text
    let _ ← deliver
    return outcome.status
  | none =>
    leaveInput
    closeFile
    match ← deliver with
    | some text =>
      warn text
      return 4
    | none => return if (← get).misses then 2 else outcome.status

/-! ### The command line -/

def table : OptionTable where
  short := [('n', .none), ('e', .one), ('f', .one), ('i', .maybe), ('l', .one), ('E', .none),
    ('r', .none), ('s', .none), ('u', .none), ('z', .none), ('b', .none)]
  long := [("binary", .none, 'b'), ("regexp-extended", .none, 'E'), ("debug", .none, 'b'),
    ("in-place", .maybe, 'i'), ("expression", .one, 'e'), ("file", .one, 'f'),
    ("line-length", .one, 'l'), ("null-data", .none, 'z'), ("zero-terminated", .none, 'z'),
    ("quiet", .none, 'n'), ("posix", .none, 'p'), ("silent", .none, 'n'), ("sandbox", .none, 'b'),
    ("separate", .none, 's'), ("unbuffered", .none, 'u'), ("help", .none, 'H'),
    ("follow-symlinks", .none, 'b')]

/-- The settings after one more option. -/
def Settings.add (σ : Settings) (o : GivenOption) : Settings :=
  match o.letter with
  | 'n' => { σ with silent := true }
  | 'E' | 'r' => { σ with extended := true }
  | 's' => { σ with separate := true }
  | 'i' => { σ with inPlace := true, separate := true, suffix := o.argument.getD [] }
  | 'l' =>
    { σ with width := Narrow.digitsValue 10 ((o.argument.getD []).takeWhile Narrow.isDigit) }
  | 'z' => { σ with nulEnds := true }
  | 'p' => { σ with strict := true }
  | _ => σ

/-- The lines that tell how the editor is used. -/
def usage (name : Narrow) : Narrow :=
  "Usage: ".toList ++ name
    ++ " [OPTION]... \x7bscript-only-if-no-other-script\x7d [input-file]...\n\n".toList
    ++ ([("-n, --quiet, --silent", "suppress automatic printing of pattern space"),
      ("    --debug", "annotate program execution"),
      ("-e script, --expression=script", "add the script to the commands to be executed"),
      ("-f script-file, --file=script-file",
        "add the contents of script-file to the commands to be executed"),
      ("--follow-symlinks", "follow symlinks when processing in place"),
      ("-i[SUFFIX], --in-place[=SUFFIX]",
        "edit files in place (makes backup if SUFFIX supplied)"),
      ("-l N, --line-length=N",
        "specify the desired line-wrap length for the \x60l' command"),
      ("--posix", "disable all extensions."),
      ("-E, -r, --regexp-extended", "use extended regular expressions in the script\n"
        ++ "                 (for portability use POSIX -E)."),
      ("-s, --separate", "consider files as separate rather than as a single,\n"
        ++ "                 continuous long stream."),
      ("    --sandbox", "operate in sandbox mode (disable e/r/w commands)."),
      ("-u, --unbuffered", "load minimal amounts of data from the input files and flush\n"
        ++ "                 the output buffers more often"),
      ("-z, --null-data", "separate lines by NUL characters")].flatMap fun (option, meaning) =>
        ("  " ++ option ++ "\n                 " ++ meaning ++ "\n").toList)
    ++ ("      --help     display this help and exit\n"
      ++ "      --version  output version information and exit\n\n"
      ++ "If no -e, --expression, -f, or --file option is given, then the first\n"
      ++ "non-option argument is taken as the sed script to interpret.  All\n"
      ++ "remaining arguments are names of input files; if no input files are\n"
      ++ "specified, then the standard input is read.\n").toList

/-- Ends with the lines that tell how the editor is used. -/
def showUsage (name : Narrow) : Job Nat := do
  let _ ← Job.put 2 (usage name)
  return 1

/-- Reads the pieces of a script in their order. -/
def readPieces (name : Narrow) : Reader → List GivenOption → Job (Except Nat Reader)
  | r, [] => return .ok r
  | r, o :: rest => do
    let refuse (text : Narrow) (status : Nat) : Job (Except Nat Reader) := do
      Job.complain name text
      return .error status
    let argument := o.argument.getD []
    match o.letter with
    | 'e' =>
      match (readWord argument).run r with
      | .ok (_, r) => readPieces name r rest
      | .error text => refuse text 1
    | 'f' =>
      match ← Job.operand argument with
      | .error .isDirectory => readPieces name r rest
      | .error fault =>
        refuse ("couldn't open file ".toList ++ argument ++ ": ".toList
          ++ fault.sentence.toList) 4
      | .ok text =>
        match (readPiece (.file argument) text).run r with
        | .ok (_, r) => readPieces name r rest
        | .error text => refuse text 1
    | 'E' | 'r' => readPieces name { r with extended := true } rest
    | _ => readPieces name r rest

/-- The files that a script writes. -/
def Script.written (s : Script) : List Narrow :=
  s.commands.toList.flatMap fun c =>
    match c.action with
    | .writeFile path | .writeFirst path => [path]
    | .substitute s => s.file.toList
    | _ => []

/-- Opens the files that a script writes, or tells the first one that cannot be opened. -/
def openSheets : List Sheet → List Narrow → Job (Except (Narrow × OsFault) (List Sheet))
  | sheets, [] => return .ok sheets
  | sheets, path :: rest => do
    if sheets.any fun s => s.path = path then openSheets sheets rest
    else if path = "/dev/stdout".toList then
      openSheets (sheets ++ [{ path, outlet := .output }]) rest
    else if path = "/dev/stderr".toList then
      openSheets (sheets ++ [{ path, outlet := .errors }]) rest
    else
      match ← (← read).openFile path .overwrite with
      | .ok n => openSheets (sheets ++ [{ path, outlet := .file n }]) rest
      | .error fault => return .error (path, fault)

def run (start : Starter) (name : Narrow) (args : List Narrow) : Job Nat := do
  let given := table.read args
  match given.fault with
  | some fault =>
    Job.complain name fault.message
    showUsage name
  | none =>
    let σ := given.options.foldl Settings.add {}
    let pieces := given.options.filter fun o => o.letter = 'e' || o.letter = 'f'
    let (words, files) := match pieces, given.operands with
      | [], script :: files => (given.options ++ [⟨'e', some script⟩], files)
      | _, files => (given.options, files)
    if given.options.any fun o => o.letter = 'H' then
      Job.say (usage name)
      return 0
    else if pieces = [] ∧ given.operands = [] then showUsage name
    else
      match ← readPieces name {} words with
      | .error status => return status
      | .ok r =>
        match r.finish with
        | .error (text, status) =>
          Job.complain name text
          return status
        | .ok script =>
          match ← openSheets [] script.written with
          | .error (path, fault) =>
            Job.complain name ("couldn't open file ".toList ++ path ++ ": ".toList
              ++ fault.sentence.toList)
            return 4
          | .ok sheets =>
            if σ.inPlace ∧ files = [] then
              Job.complain name "no input files".toList
              return 4
            let e : Editor :=
              { operands := if files = [] then [['-']] else files, ranges := script.ranges, sheets }
            let σ := { σ with silent := σ.silent || script.silent }
            let (status, _) ← ((edit start script).run σ).run e
            return status

end Sed
end CjsxConversion
