import CjsxConversion.Host.Proc
import CjsxConversion.Utility.Basename

/-!
# Moving files

`mv` gives files another name, or moves them to a directory under the names that they have.
-/

namespace CjsxConversion
namespace Move

/-- How what is replaced is kept. -/
inductive Backup where
  | simple
  | numbered
  | existing
  deriving DecidableEq, Repr

/-- What is wanted. -/
structure Wish where
  keeps : Bool := false
  asks : Bool := false
  tells : Bool := false
  quiet : Bool := false
  backup : Option Backup := none
  suffix : Narrow := ['~']
  plain : Bool := false
  targets : List Narrow := []
  deriving Repr

def table : OptionTable where
  short := [('b', .none), ('f', .none), ('i', .none), ('n', .none), ('t', .one), ('T', .none),
    ('u', .none), ('v', .none), ('S', .one), ('Z', .none)]
  long := [("backup", .maybe, 'b'), ("force", .none, 'f'), ("interactive", .none, 'i'),
    ("no-clobber", .none, 'n'), ("no-target-directory", .none, 'T'), ("target-directory", .one, 't'),
    ("update", .maybe, 'u'), ("verbose", .none, 'v'), ("suffix", .one, 'S'),
    ("strip-trailing-slashes", .none, 'z')]

/-- The ways to keep what is replaced, by name. -/
def backups : List (String × Option Backup) :=
  [("none", none), ("off", none), ("simple", some .simple), ("never", some .simple),
   ("existing", some .existing), ("nil", some .existing), ("numbered", some .numbered),
   ("t", some .numbered)]

/-- What is wanted after one more option. -/
def Wish.add (w : Wish) (o : GivenOption) : Wish :=
  match o.letter with
  | 'b' => { w with backup := match o.argument with
      | none => some .existing
      | some kind => ((backups.find? fun e => e.1.toList = kind).map (·.2)).getD none }
  | 'f' => { w with keeps := false, asks := false }
  | 'i' => { w with keeps := false, asks := true }
  | 'n' => { w with keeps := true, asks := false }
  | 'S' => { w with suffix := o.argument.getD [], backup := w.backup <|> some .existing }
  | 't' => { w with targets := w.targets ++ o.argument.toList }
  | 'T' => { w with plain := true }
  | 'u' => { w with quiet := o.argument = some "none".toList }
  | 'v' => { w with tells := true }
  | _ => w

/-- A file name in quotation marks. -/
def shown (path : Narrow) : Narrow := Quoting.always path

/-- Whether a path has nothing but slashes behind its last name. -/
def endsInSlash (path : Narrow) : Bool := path.getLast? = some '/'

/-- A path without the slashes at its end. -/
def trimmed (path : Narrow) : Narrow :=
  let t := (path.reverse.dropWhile (· = '/')).reverse
  if t = [] then path.take 1 else t

/-- The path of a file in a directory. -/
def inside (dir source : Narrow) : Narrow :=
  (if endsInSlash dir then dir else dir ++ ['/']) ++ Basename.base source

/-- Where a path leads. A link is followed only if a slash stands behind it. -/
def place (path : Narrow) : Job (Except OsFault Location) := do
  let p ← read
  return (← get).files.locate false p.here (System.pathOf path)

def node (path : Narrow) : Job (Except OsFault (Location × FileNode)) := do
  match ← place path with
  | .error fault => return .error fault
  | .ok l =>
    match (← get).files.get? l with
    | some n => return .ok (l, n)
    | none => return .error .noEntry

def follow (path : Narrow) : Job (Except OsFault FileNode) := do
  let p ← read
  match (← get).files.locate true p.here (System.pathOf path) with
  | .error fault => return .error fault
  | .ok l => return ((← get).files.get? l).elim (.error .noEntry) .ok

/-- Reads a line of standard input and tells whether it says yes. -/
def readYes : Job Bool := do
  match (← read).opening? 0 with
  | none => return false
  | some n =>
    let rec readLine : Nat → Job Narrow
      | 0 => return []
      | k + 1 => do
        match ← System.read n 1 with
        | .ok [c] => if c = '\n' then return [c] else return c :: (← readLine k)
        | _ => return []
    let line ← readLine 4096
    return line.head? = some 'y' || line.head? = some 'Y'

def refuse (name text : Narrow) : Job Nat := do
  Job.complain name text
  return 1

/-- The number of the latest file that is kept under a name with a number. -/
def latestBackup (t : FileTree) (b : Location) : Option Nat :=
  let front := Narrow.ofOctets (b.getLast?.getD []) ++ ['.', '~']
  let numbers := (t.children b.dropLast).filterMap fun l =>
    let name := Narrow.ofOctets (l.getLast?.getD [])
    let digits := (name.drop front.length).takeWhile Narrow.isDigit
    if digits ≠ [] ∧ name = front ++ digits ++ ['~'] then some (Narrow.digitsValue 10 digits)
    else none
  numbers.max?

/-- The ending of the name under which something is kept. -/
def Wish.ending (w : Wish) (t : FileTree) (b : Location) : Option Narrow :=
  let number (latest : Nat) : Narrow := ['.', '~'] ++ Narrow.ofNat (latest + 1) ++ ['~']
  match w.backup with
  | none => none
  | some .simple => some w.suffix
  | some .numbered => some (number ((latestBackup t b).getD 0))
  | some .existing => some ((latestBackup t b).elim w.suffix number)

/-- Moves what stands at a location over what may stand at another one. -/
def rename (source target : Narrow) (w : Wish) (a b : Location) (existing : Bool) :
    Job Nat := do
  let t := (← get).files
  let ending := if existing then w.ending t b else none
  match ending with
  | none => pure ()
  | some ending =>
    System.rename b (b.dropLast ++ [(b.getLast?.getD []) ++ Narrow.toOctets ending])
  System.rename a b
  if w.tells then
    Job.say ("renamed ".toList ++ shown source ++ " -> ".toList ++ shown target
      ++ (match ending with
        | none => []
        | some ending => " (backup: ".toList ++ shown (target ++ ending) ++ [')'])
      ++ ['\n'])
  return 0

/-- Asks whether something is to be replaced, if that is wanted. -/
def agreed (name : Narrow) (w : Wish) (target : Narrow) : Job Bool := do
  if w.asks then
    let _ ← Job.put 2 (name ++ ": overwrite ".toList ++ shown target ++ "? ".toList)
    readYes
  else return true

/-- What stands at a target, and where. The empty path stands for the current directory. -/
def destination (target : Narrow) : Job (Except OsFault (Location × Option FileNode)) := do
  let t := (← get).files
  if target = [] then return .ok ((← read).here, some .directory)
  match ← place (trimmed target) with
  | .error fault => return .error fault
  | .ok b =>
    let old := t.get? b
    if endsInSlash target ∧ old.isSome then
      match ← follow target with
      | .ok .directory => return .ok (b, old)
      | .ok _ => return .error .notDirectory
      | .error fault => return .error fault
    else return .ok (b, old)

def moveOne (name : Narrow) (w : Wish) (source target : Narrow) : Job Nat := do
  let cannot (fault : OsFault) : Job Nat := refuse name
    ("cannot move ".toList ++ shown source ++ " to ".toList ++ shown target
      ++ ": ".toList ++ fault.sentence.toList)
  let last := Basename.base source
  let isDots : Bool := last = ['.'] || last = ['.', '.']
  let intoItself : Job Nat := refuse name ("cannot move ".toList ++ shown source
    ++ " to a subdirectory of itself, ".toList ++ shown target)
  match ← node source with
  | .error fault =>
    refuse name ("cannot stat ".toList ++ shown source ++ ": ".toList ++ fault.sentence.toList)
  | .ok (a, n) =>
    match ← destination target with
    | .error .noEntry => cannot .noEntry
    | .error fault =>
      refuse name ("cannot stat ".toList ++ shown target ++ ": ".toList ++ fault.sentence.toList)
    | .ok (b, none) =>
      if isDots then cannot .busy
      else if endsInSlash target ∧ n ≠ .directory then cannot .notDirectory
      else if a.isPrefixOf b then intoItself
      else rename source target w a b false
    | .ok (b, some old) =>
      if w.keeps then refuse name ("not replacing ".toList ++ shown target)
      else if a = b then
        refuse name (shown source ++ " and ".toList ++ shown target
          ++ " are the same file".toList)
      else if w.quiet then return 0
      else if !(← agreed name w target) then return 1
      else if old = .directory ∧ n ≠ .directory ∧ w.backup.isNone then
        refuse name ("cannot overwrite directory ".toList ++ shown target
          ++ " with non-directory".toList)
      else if old ≠ .directory ∧ n = .directory ∧ w.backup.isNone then
        refuse name ("cannot overwrite non-directory ".toList ++ shown target
          ++ " with directory ".toList ++ shown source)
      else if isDots ∨ target = [] then cannot .busy
      else if a.isPrefixOf b then intoItself
      else if old = .directory ∧ (← get).files.children b ≠ [] ∧ w.backup.isNone then
        refuse name ("cannot overwrite ".toList ++ shown target ++ ": ".toList
          ++ OsFault.notEmpty.sentence.toList)
      else rename source target w a b true

/-- Moves files one after the other. -/
def moveAll (name : Narrow) (w : Wish) (target : Narrow → Narrow) : List Narrow → Job Nat
  | [] => return 0
  | source :: rest => do
    let first ← moveOne name w source (target source)
    let others ← moveAll name w target rest
    return max first others

def run (name : Narrow) (args : List Narrow) : Job Nat := do
  let r := table.read args
  match r.fault with
  | some fault => Job.misuse name fault.message 1
  | none =>
    let w := r.options.foldl Wish.add {}
    let about (what : String) (dir : Narrow) (fault : OsFault) : Job Nat :=
      refuse name (what.toList ++ shown dir ++ ": ".toList ++ fault.sentence.toList)
    let careful (m : Job Nat) : Job Nat :=
      if w.backup.isSome ∧ w.keeps then
        Job.misuse name "options --backup and --no-clobber are mutually exclusive".toList 1
      else m
    let asFile (source target : Narrow) : Job Nat := do
      -- A file that replaces nothing is moved before the options are looked at closely.
      match w.backup.isSome && w.keeps, ← node source, ← destination target with
      | true, .ok (a, n), .ok (b, none) =>
        if n ≠ .directory ∧ ¬ endsInSlash target then System.rename a b
      | _, _, _ => pure ()
      careful (moveAll name w (fun _ => target) [source])
    match w.targets, r.operands with
    | _ :: _ :: _, _ => refuse name "multiple target directories specified".toList
    | _, [] => Job.misuse name "missing file operand".toList 1
    | [dir], sources =>
      if w.plain then
        refuse name ("cannot combine --target-directory (-t) and "
          ++ "--no-target-directory (-T)").toList
      else
        match ← follow dir with
        | .ok .directory => careful (moveAll name w (inside dir) sources)
        | .ok _ => about "target directory " dir .notDirectory
        | .error fault => about "target directory " dir fault
    | [], [source] =>
      Job.misuse name ("missing destination file operand after ".toList ++ shown source) 1
    | [], operands =>
      let sources := operands.dropLast
      let target := operands.getLast?.getD []
      match ← follow target, w.plain, sources with
      | _, true, [source] => asFile source target
      | _, true, _ =>
        Job.misuse name ("extra operand ".toList ++ shown ((operands.drop 2).head?.getD [])) 1
      | .ok .directory, _, sources => careful (moveAll name w (inside target) sources)
      | _, _, [source] => asFile source target
      | .ok _, _, _ => about "target " target .notDirectory
      | .error fault, _, _ => about "target " target fault

end Move
end CjsxConversion
