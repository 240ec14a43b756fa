import CjsxConversion.Shell.Builtin.Options

/-!
# What the names of commands stand for

The name of a command stands for an alias while the script is read, and later for a function, a
command of the shell or a program. Programs are searched in the directories of a path.
-/

namespace CjsxConversion
namespace Shell

/-- What kind of command of the shell a name stands for. -/
structure BuiltinKind where
  special : Bool := false
  regular : Bool := true
  assigns : Bool := false
  deriving DecidableEq, Repr

/-- The commands of the shell. -/
def builtinKinds : List (String × BuiltinKind) :=
  let special : BuiltinKind := { special := true }
  let marking : BuiltinKind := { special := true, assigns := true }
  let late : BuiltinKind := { regular := false }
  [(".", special), (":", special), ("[", late), ("alias", { assigns := true }), ("bg", {}),
   ("break", special), ("cd", {}), ("chdir", {}), ("command", {}), ("continue", special),
   ("echo", late), ("eval", special), ("exec", special), ("exit", special),
   ("export", marking), ("false", {}), ("fg", {}), ("getopts", {}), ("hash", {}), ("jobs", {}),
   ("kill", {}), ("local", marking), ("printf", late), ("pwd", {}), ("read", {}),
   ("readonly", marking), ("return", special), ("set", special), ("shift", special),
   ("test", late), ("times", special), ("trap", special), ("true", {}), ("type", {}),
   ("ulimit", {}), ("umask", {}), ("unalias", {}), ("unset", special), ("wait", {})]

/-- What kind of command of the shell a name stands for, if it does. -/
def kindOf? (name : Narrow) : Option BuiltinKind :=
  (builtinKinds.find? fun e => e.1.toList = name).map (·.2)

/-- What the name of a command stands for. -/
inductive Found where
  | function (f : Function)
  | builtin (kind : BuiltinKind)
  | program (path : Narrow)
  | nothing (fault : OsFault)

def State.searchPath (s : State) : Narrow := (s.value? "PATH".toList).getD []

/-- The path on which the usual programs are found. -/
def usualPath : Narrow := "/usr/local/sbin:/usr/local/bin:/usr/sbin:/usr/bin:/sbin:/bin".toList

/-- The paths that a program may have. -/
def pathsOnPath (searchPath name : Narrow) : List Narrow :=
  (Narrow.splitOn ':' searchPath).map fun dir =>
    if dir = [] then name else dir ++ '/' :: name

/-- The first of some paths where there is a file that may be run. -/
def firstFile (t : FileTree) (here : Location) : OsFault → List Narrow → Found
  | fault, [] => .nothing fault
  | fault, p :: ps =>
    match t.locate true here (System.pathOf p) with
    | .error f =>
      firstFile t here (if f = .noEntry ∨ f = .notDirectory then fault else f) ps
    | .ok l =>
      match t.get? l with
      | none => firstFile t here fault ps
      | some (.file _ mode) =>
        if mode &&& 0o111 = 0 then firstFile t here .denied ps else .program p
      | some _ => firstFile t here .denied ps

/-- Searches a program. Its place is kept in mind. -/
def searchProgram (searchPath? : Option Narrow) (name : Narrow) : Sh Found := do
  if name.contains '/' then return .program name
  let s ← get
  let t := (← act get).files
  let path := searchPath?.getD s.searchPath
  let found := firstFile t s.proc.here .noEntry (pathsOnPath path name)
  match found, searchPath? with
  | .program p, none =>
    let others := s.places.filter fun e => e.1 ≠ name
    set { s with places := others ++ [(name, p)] }
  | _, _ => pure ()
  return found

/-- What the name of a command stands for. Functions may be left out. -/
def findCommand (functions : Bool) (searchPath? : Option Narrow) (name : Narrow) : Sh Found := do
  let s ← get
  let f? := if functions then s.functions.find? fun f => f.name = name else none
  match f?, kindOf? name with
  | some f, _ => return .function f
  | none, some kind => return .builtin kind
  | none, none => searchProgram searchPath? name

/-- What is said about a program that cannot be run. -/
def execSentence (fault : OsFault) : String :=
  if fault = .noEntry ∨ fault = .notDirectory then "not found" else fault.sentence

namespace Names

/-- Whether something stands where a path leads. -/
def isThere (path : Narrow) : Sh Bool := do
  let s ← get
  let t := (← act get).files
  return match t.locate true s.proc.here (System.pathOf path) with
    | .ok l => (t.get? l).isSome
    | .error _ => false

def aliasText (a : Narrow × Narrow) : Narrow := a.1 ++ '=' :: singleQuoted a.2 ++ ['\n']

/-- Says what a name stands for, in a sentence or shortly. -/
def describe (searchPath? : Option Narrow) (inSentence : Bool) (name : Narrow) : Sh Nat := do
  let s ← get
  let tell (sentence : Narrow) (short : Narrow) : Sh Nat := do
    say ((if inSentence then name ++ sentence else short) ++ ['\n'])
    return 0
  let known := if searchPath?.isNone then (s.places.find? fun e => e.1 = name).map (·.2) else none
  if (keywords.any fun k => k.toList = name) then tell " is a shell keyword".toList name
  else
    match s.reader.aliases.find? fun a => a.1 = name with
    | some a =>
      if inSentence then tell (" is an alias for ".toList ++ a.2) name
      else
        say ("alias ".toList ++ aliasText a)
        return 0
    | none =>
      match known, ← findCommand true searchPath? name with
      | _, .function _ => tell " is a shell function".toList name
      | _, .builtin kind =>
        tell (if kind.special then " is a special shell builtin" else " is a shell builtin").toList
          name
      | some path, _ => tell (" is a tracked alias for ".toList ++ path) path
      | none, .program path =>
        if ← isThere path then tell (" is ".toList ++ path) path
        else
          if inSentence then say (name ++ ": not found\n".toList)
          return 127
      | none, .nothing _ =>
        if inSentence then say (name ++ ": not found\n".toList)
        return 127

/-- Says what names stand for. -/
def describeAll : List Narrow → Sh Nat
  | [] => return 0
  | name :: names => do
    let status ← describe none true name
    return status ||| (← describeAll names)

/-- Says what names stand for. -/
def type (args : List Narrow) : Sh Nat := do describeAll (← operandsOf args)

/-- Says what a name stands for, where no command is to be run. -/
def command (args : List Narrow) : Sh Nat := do
  let (given, words) ← takeOptions [('p', false), ('v', false), ('V', false)] args
  let asked := given.filter fun g => g.1 ≠ 'p'
  match asked, words with
  | _ :: _, name :: _ =>
    describe (if given.any fun g => g.1 = 'p' then some usualPath else none)
      (asked.any fun g => g.1 = 'V') name
  | _, _ => return 0

/-- Shows, finds or forgets the places of programs. -/
def hash (args : List Narrow) : Sh Nat := do
  let (given, names) ← takeOptions [('r', false)] args
  if !given.isEmpty then
    modify fun s => { s with places := [] }
    return 0
  if names = [] then
    let bucket (e : Narrow × Narrow) : Nat := hashOf e.1 % 0x8000 % 31
    let sorted := (← get).places.mergeSort fun a b => bucket a ≤ bucket b
    say (sorted.flatMap fun e => e.2 ++ ['\n'])
    return 0
  let mut status := 0
  for name in names do
    match ← findCommand true none name with
    | .nothing fault =>
      complain (name ++ ": ".toList ++ (execSentence fault).toList)
      status := 1
    | _ => pure ()
  return status

/-- Shows or sets aliases. -/
def aliases (args : List Narrow) : Sh Nat := do
  if args = [] then
    let sorted := (← get).reader.aliases.mergeSort fun a b => bucketOf a.1 ≤ bucketOf b.1
    say (sorted.flatMap aliasText)
    return 0
  let mut status := 0
  for w in args do
    let tail := w.drop 1
    let name := w.take 1 ++ tail.takeWhile (· ≠ '=')
    if tail.contains '=' then
      let value := w.drop (name.length + 1)
      modify fun s =>
        let old := s.reader.aliases
        let new := if old.any fun a => a.1 = name then
            old.map fun a => if a.1 = name then (name, value) else a
          else old ++ [(name, value)]
        { s with reader := { s.reader with aliases := new } }
    else
      match (← get).reader.aliases.find? fun a => a.1 = w with
      | some a => say (aliasText a)
      | none =>
        sayError ("alias: ".toList ++ w ++ " not found\n".toList)
        status := 1
  return status

/-- Takes aliases away. -/
def unalias (args : List Narrow) : Sh Nat := do
  let (given, names) ← takeOptions [('a', false)] args
  let keep (test : Narrow → Bool) : Sh Unit := modify fun s =>
    { s with reader := { s.reader with aliases := s.reader.aliases.filter fun a => test a.1 } }
  if !given.isEmpty then
    keep fun _ => false
    return 0
  let mut status := 0
  for name in names do
    if (← get).reader.aliases.any fun a => a.1 = name then keep (· ≠ name)
    else
      sayError ("unalias: ".toList ++ name ++ " not found\n".toList)
      status := 1
  return status

end Names
end Shell
end CjsxConversion
