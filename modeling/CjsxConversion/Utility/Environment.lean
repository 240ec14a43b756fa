import CjsxConversion.Host.Proc
import CjsxConversion.Utility.Options

/-!
# Running in another environment

`env` changes the environment and turns into another program, or shows the environment.
-/

namespace CjsxConversion
namespace Environment

def options : OptionTable where
  short := [('i', .none), ('u', .one), ('C', .one), ('0', .none), ('v', .none), ('S', .one)]
  long := [("ignore-environment", .none, 'i'), ("unset", .one, 'u'), ("chdir", .one, 'C'),
    ("null", .none, '0'), ("debug", .none, 'v'), ("split-string", .one, 'S')]
  inFront := true

/-- An environment in which a variable is set. -/
def withSetting (name value : Narrow) (environment : List (Narrow × Narrow)) :
    List (Narrow × Narrow) :=
  if environment.any fun e => e.1 = name then
    environment.map fun e => if e.1 = name then (name, value) else e
  else environment ++ [(name, value)]

/-- The words of a text between white space. -/
def wordsOf (cs : Narrow) : List Narrow :=
  ((Narrow.splitOn ' ' cs).flatMap (Narrow.splitOn '\t')).filter (· ≠ [])

/-- The assignments at the front of words, and what follows them. -/
def takeAssignments : List Narrow → List (Narrow × Narrow) × List Narrow
  | [] => ([], [])
  | w :: ws =>
    if w.contains '=' then
      let name := w.takeWhile (· ≠ '=')
      let (more, rest) := takeAssignments ws
      ((name, w.drop (name.length + 1)) :: more, rest)
    else ([], w :: ws)

/-- The paths that a program may have. -/
def pathsOf (environment : List (Narrow × Narrow)) (name : Narrow) : List Narrow :=
  if name.contains '/' then [name]
  else
    let path := ((environment.find? fun e => e.1 = "PATH".toList).map (·.2)).getD []
    (Narrow.splitOn ':' path).map fun dir => if dir = [] then name else dir ++ '/' :: name

/-- Turns into the first program of some paths that can be run. -/
def become (start : Starter) (call : Call) : OsFault → List Narrow → Job (Except OsFault ProcEnd)
  | fault, [] => return .error fault
  | fault, p :: ps => do
    match ← start p call with
    | .ok ending => return .ok ending
    | .error .denied => become start call .denied ps
    | .error _ => become start call fault ps

def runIn (start : Starter) (name : Narrow) (p : Proc) (program : Narrow) (args : List Narrow) :
    Job ProcEnd := do
  let paths := pathsOf p.environment program
  match ← become start ⟨program, args⟩ .noEntry paths p with
  | .ok ending => return ending
  | .error fault =>
    Job.complain name (Quoting.always program ++ ": ".toList ++ fault.sentence.toList)
    if fault = .noEntry ∧ program.any Narrow.isSpace then
      Job.complain name "use -[v]S to pass options in shebang lines".toList
    return .exited (if fault = .noEntry then 127 else 126)

def run (start : Starter) (name : Narrow) (args : List Narrow) : Job ProcEnd := do
  let p ← read
  let args := match args with
    | ('-' :: 'S' :: text) :: rest => wordsOf text ++ rest
    | args => args
  let r := options.read args
  match r.fault with
  | some fault => return .exited (← Job.misuse name fault.message 125)
  | none =>
    let words := match r.operands with
      | ['-'] :: ws => ws
      | ws => ws
    let has (c : Char) : Bool := r.options.any fun o => o.letter = c
    let fresh : Bool := has 'i' || r.operands.head? = some ['-']
    let removed := r.options.filterMap fun o => if o.letter = 'u' then o.argument else none
    let kept := if fresh then [] else p.environment.filter fun e => !removed.contains e.1
    let (given, words) := takeAssignments words
    let environment := given.foldl (fun es e => withSetting e.1 e.2 es) kept
    match words with
    | [] =>
      let ending := if has '0' then '\x00' else '\n'
      let text := environment.flatMap fun e => e.1 ++ '=' :: e.2 ++ [ending]
      return .exited (← Job.finish name text 0 125)
    | program :: args =>
      let here : Except (Narrow × OsFault) Location ← match (r.options.filterMap fun o =>
          if o.letter = 'C' then o.argument else none).getLast? with
        | none => pure (.ok p.here)
        | some dir => do
          let t := (← get).files
          pure (match t.locate true p.here (System.pathOf dir) with
            | .ok l => if t.isDirectory l then .ok l else .error (dir, OsFault.notDirectory)
            | .error fault => .error (dir, fault))
      match here with
      | .ok here => runIn start name { p with environment, here } program args
      | .error (dir, fault) =>
        Job.complain name ("cannot change directory to ".toList ++ Quoting.always dir
          ++ ": ".toList ++ fault.sentence.toList)
        return .exited 125

end Environment
end CjsxConversion
