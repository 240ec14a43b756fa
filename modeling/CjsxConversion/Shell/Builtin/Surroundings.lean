import CjsxConversion.Shell.Builtin.Options

/-!
# Commands for the surroundings of the shell

The current directory has a name, which is how the script has come there; links in it are not
followed. The mask says which permission bits new files lack.
-/

namespace CjsxConversion
namespace Shell
namespace Surroundings

/-! ### The current directory -/

def pathOfNames (names : List Narrow) : Narrow :=
  '/' :: List.intercalate ['/'] names

def pathOfLocation (l : Location) : Narrow := pathOfNames (l.map Narrow.ofOctets)

/-- The names of a path, where two dots take the name before them away. -/
def namesOfPath (names : List Narrow) (path : Narrow) : List Narrow :=
  (Narrow.splitOn '/' path).foldl (fun names p =>
    if p = [] ∨ p = ['.'] then names
    else if p = ['.', '.'] then names.dropLast
    else names ++ [p]) names

/-- The path to which one leads from the current directory, by its names alone. -/
def pathFrom (directory path : Narrow) : Narrow :=
  if path.head? = some '/' then pathOfNames (namesOfPath [] path)
  else pathOfNames (namesOfPath (namesOfPath [] directory) path)

/-- Where there is a directory, if there is one. -/
def directoryAt (path : Narrow) : Sh (Option Location) := do
  let s ← get
  let t := (← act get).files
  match t.locate true s.proc.here (System.pathOf path) with
  | .ok l => return if t.isDirectory l then some l else none
  | .error _ => return none

/-- Whether a path leads from the current directory and from nowhere else. -/
def isDotted (path : Narrow) : Bool :=
  match path with
  | '/' :: _ | ['.'] | '.' :: '/' :: _ | ['.', '.'] | '.' :: '.' :: '/' :: _ => true
  | _ => false

/-- The first of some directories below which there is a given one. -/
def searchDirectory (target : Narrow) : List Narrow → Sh (Option (Narrow × Bool))
  | [] => return none
  | dir :: dirs => do
    let path := if dir = [] then target
      else if dir.getLast? = some '/' then dir ++ target else dir ++ '/' :: target
    match ← directoryAt path with
    | some _ => return some (path, dir ≠ [])
    | none => searchDirectory target dirs

/-- Goes to another directory. -/
def cd (args : List Narrow) : Sh Nat := do
  let (given, words) ← takeOptions [('L', false), ('P', false)] args
  let s ← get
  let physical : Bool := given.getLast?.any fun g => g.1 = 'P'
  let back : Bool := words.head? = some ['-']
  let target := match words with
    | [] => (s.value? "HOME".toList).getD []
    | w :: _ => if back then (s.value? "OLDPWD".toList).getD [] else w
  let target := if target = [] then ['.'] else target
  let found ← if isDotted target then pure none
    else searchDirectory target (Narrow.splitOn ':' ((s.value? "CDPATH".toList).getD []))
  let (path, elsewhere) := found.getD (target, false)
  let named := pathFrom s.directory path
  match ← directoryAt (if physical then path else named) with
  | none => failWith ("can't cd to ".toList ++ target)
  | some l =>
    let named := if physical then pathOfLocation l else named
    setVariable "OLDPWD".toList (some s.directory) true
    setVariable "PWD".toList (some named) true
    modify fun s => { s with directory := named, proc := { s.proc with here := l } }
    if back ∨ elsewhere then say (named ++ ['\n'])
    return 0

/-- Shows the current directory. -/
def pwd (args : List Narrow) : Sh Nat := do
  let (given, _) ← takeOptions [('L', false), ('P', false)] args
  let s ← get
  say ((if given.getLast?.any fun g => g.1 = 'P' then pathOfLocation s.proc.here
    else s.directory) ++ ['\n'])
  return 0

/-! ### The mask of new files -/

/-- The letters of three permission bits. -/
def bitLetters (bits : Nat) : Narrow :=
  (if bits &&& 4 = 0 then [] else ['r']) ++ (if bits &&& 2 = 0 then [] else ['w'])
    ++ if bits &&& 1 = 0 then [] else ['x']

/-- The permission bits that new files may have, by letters. -/
def maskLetters (mask : Nat) : Narrow :=
  let bits := 0o777 - mask
  "u=".toList ++ bitLetters (bits / 64 % 8) ++ ",g=".toList ++ bitLetters (bits / 8 % 8)
    ++ ",o=".toList ++ bitLetters (bits % 8)

/-- The permission bits of letters, for whom they are meant. -/
def bitsOf (who : Narrow) (letters : Narrow) : Nat :=
  let one := letters.foldl (fun n c =>
    n ||| if c = 'r' then 4 else if c = 'w' then 2 else if c = 'x' then 1 else 0) 0
  let all : Bool := who = [] || who.contains 'a'
  (if all || who.contains 'u' then one * 64 else 0)
    ||| (if all || who.contains 'g' then one * 8 else 0)
    ||| if all || who.contains 'o' then one else 0

/-- Permission bits changed as a clause says, if it makes sense. The bound is its length. -/
def changeBits (who : Narrow) : Nat → Narrow → Nat → Option Nat
  | 0, _, bits => some bits
  | _ + 1, [], bits => some bits
  | n + 1, sign :: cs, bits =>
    let letters := cs.takeWhile fun c => "rwxXst".toList.contains c
    let rest := cs.drop letters.length
    let given := bitsOf who letters
    match sign with
    | '+' => changeBits who n rest (bits ||| given)
    | '-' => changeBits who n rest (bits &&& (0o777 - given))
    | '=' => changeBits who n rest ((bits &&& (0o777 - bitsOf who "rwx".toList)) ||| given)
    | _ => none

/-- Permission bits changed as clauses say, if they make sense. -/
def changeAll : List Narrow → Nat → Option Nat
  | [], bits => some bits
  | clause :: clauses, bits =>
    let who := clause.takeWhile fun c => "ugoa".toList.contains c
    let rest := clause.drop who.length
    if rest = [] then none
    else (changeBits who (rest.length + 1) rest bits).bind (changeAll clauses)

/-- Shows or sets the mask of new files. -/
def umask (args : List Narrow) : Sh Nat := do
  let (given, words) ← takeOptions [('S', false)] args
  let mask := (← get).proc.mask
  match words with
  | [] =>
    let digits := Nat.toDigits 8 mask
    say ((if given.isEmpty then List.replicate (4 - digits.length) '0' ++ digits
      else maskLetters mask) ++ ['\n'])
  | w :: _ =>
    let mask ←
      if w.head?.any Narrow.isDigit then
        if w.all Narrow.isOctal then pure (Narrow.digitsValue 8 w % 0o1000)
        else failWith ("Illegal number: ".toList ++ w)
      else
        match changeAll (Narrow.splitOn ',' w) (0o777 - mask) with
        | some bits => pure (0o777 - bits)
        | none => failWith ("Illegal mode: ".toList ++ w)
    modify fun s => { s with proc := { s.proc with mask } }
  return 0

/-- Shows how much time was used, which is nothing. -/
def times (_ : List Narrow) : Sh Nat := do
  let line := "0m0.000000s 0m0.000000s\n".toList
  say (line ++ line)
  return 0

/-- Shows the limits of the process, of which there are none. -/
def ulimit (args : List Narrow) : Sh Nat := do
  let letters := "HSatfdsmcnpvwr".toList.map fun c => (c, false)
  let _ ← takeOptions letters args
  say "unlimited\n".toList
  return 0

end Surroundings
end Shell
end CjsxConversion
