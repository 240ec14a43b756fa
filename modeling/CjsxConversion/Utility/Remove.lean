import CjsxConversion.Host.Proc
import CjsxConversion.Utility.Move

/-!
# Removing files

`rm` removes files, and directories with all that is in them if it is told to.
-/

namespace CjsxConversion
namespace Remove

/-- What is wanted. -/
structure Wish where
  forces : Bool := false
  descends : Bool := false
  empties : Bool := false
  tells : Bool := false
  asks : Bool := false
  asksOnce : Bool := false
  deriving Repr

def table : OptionTable where
  short := [('d', .none), ('f', .none), ('i', .none), ('I', .none), ('r', .none), ('R', .none),
    ('v', .none)]
  long := [("dir", .none, 'd'), ("force", .none, 'f'), ("interactive", .maybe, 'i'),
    ("one-file-system", .none, 'x'), ("no-preserve-root", .none, 'N'),
    ("preserve-root", .maybe, 'P'), ("recursive", .none, 'r'), ("verbose", .none, 'v')]

/-- What is wanted after one more option. -/
def Wish.add (w : Wish) (o : GivenOption) : Wish :=
  match o.letter with
  | 'd' => { w with empties := true }
  | 'f' => { w with forces := true, asks := false, asksOnce := false }
  | 'i' =>
    match (o.argument.map String.ofList).getD "always" with
    | "never" | "no" | "none" => { w with asks := false, asksOnce := false }
    | "once" => { w with forces := false, asks := false, asksOnce := true }
    | _ => { w with forces := false, asks := true, asksOnce := false }
  | 'I' => { w with forces := false, asks := false, asksOnce := true }
  | 'r' | 'R' => { w with descends := true }
  | 'v' => { w with tells := true }
  | _ => w

/-- Whether a path names a directory by dots. -/
def isDots (path : Narrow) : Bool :=
  let last := Basename.base path
  last = ['.'] || last = ['.', '.']

/-- What a file is called in a question. -/
def kindOf (n : FileNode) : String :=
  match n with
  | .directory => "directory"
  | .link _ => "symbolic link"
  | .sink | .full => "character special file"
  | .file [] _ => "regular empty file"
  | .file _ _ => "regular file"

/-- Asks a question, if questions are asked. -/
def agreed (name : Narrow) (w : Wish) (question : Narrow) : Job Bool := do
  if w.asks then
    let _ ← Job.put 2 (name ++ ": ".toList ++ question ++ "? ".toList)
    Move.readYes
  else return true

/-- Tells that something was removed. -/
def tell (w : Wish) (kind path : Narrow) : Job Unit := do
  if w.tells then Job.say ("removed ".toList ++ kind ++ Quoting.always path ++ ['\n'])

/-- Says that something cannot be removed. -/
def cannot (name path : Narrow) (fault : OsFault) : Job Nat := do
  Job.complain name ("cannot remove ".toList ++ Quoting.always path ++ ": ".toList
    ++ fault.sentence.toList)
  return 1

/-- Removes what stands at a location. The bound is the depth of the tree. -/
def removeAt (name : Narrow) (w : Wish) : Nat → Location → Narrow → Job Nat
  | 0, _, _ => return 1
  | depth + 1, l, path => do
    match (← get).files.get? l with
    | none => return 0
    | some .directory =>
      let children := (← get).files.children l
      if ¬ w.descends ∧ ¬ w.empties then cannot name path .isDirectory
      else if ¬ w.descends ∧ children ≠ [] then cannot name path .notEmpty
      else
        if children ≠ [] then
          if !(← agreed name w ("descend into directory ".toList ++ Quoting.always path)) then
            return 0
        let mut status := 0
        for child in children do
          let part := Narrow.ofOctets (child.getLast?.getD [])
          let below := (if Move.endsInSlash path then path else path ++ ['/']) ++ part
          status := max status (← removeAt name w depth child below)
        if (← get).files.children l ≠ [] then return status
        if ← agreed name w ("remove directory ".toList ++ Quoting.always path) then
          System.unlink l
          tell w "directory ".toList path
        return status
    | some n =>
      if ← agreed name w ("remove ".toList ++ (kindOf n).toList ++ [' '] ++ Quoting.always path) then
        System.unlink l
        tell w [] path
      return 0

def removeOne (name : Narrow) (w : Wish) (path : Narrow) : Job Nat := do
  match ← Move.node path with
  | .error fault =>
    if w.forces ∧ (fault = .noEntry ∨ fault = .notDirectory) then return 0
    else cannot name path fault
  | .ok (l, n) =>
    let children := (← get).files.children l
    let goesOn : Bool := n = .directory && (w.descends || (w.empties && children.isEmpty))
    if goesOn ∧ isDots path then
      Job.complain name ("refusing to remove '.' or '..' directory: skipping ".toList
        ++ Quoting.always path)
      return 1
    if goesOn ∧ l = [] then
      Job.complain name "it is dangerous to operate recursively on '/'".toList
      Job.complain name "use --no-preserve-root to override this failsafe".toList
      return 1
    removeAt name w ((← get).files.entries.length + 1) l path

def run (name : Narrow) (args : List Narrow) : Job Nat := do
  let r := table.read args
  match r.fault with
  | some fault => Job.misuse name fault.message 1
  | none =>
    let w := r.options.foldl Wish.add {}
    if r.operands = [] then
      if w.forces then return 0 else Job.misuse name "missing operand".toList 1
    else
      if w.asksOnce && (w.descends || 3 < r.operands.length) then
        let _ ← Job.put 2 (name ++ ": remove ".toList ++ Narrow.ofNat r.operands.length
          ++ (if r.operands.length = 1 then " argument" else " arguments").toList
          ++ (if w.descends then " recursively? " else "? ").toList)
        if !(← Move.readYes) then return 0
      let mut status := 0
      for path in r.operands do
        status := max status (← removeOne name w path)
      return status

end Remove
end CjsxConversion
