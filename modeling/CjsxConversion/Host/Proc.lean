import CjsxConversion.Host.System
import CjsxConversion.Utility.Quoting

/-!
# Processes

A process is what a running program has for itself: its number, its directory, its open files
under the numbers that it uses for them, its environment, and the signals that it ignores.

Files are opened by path; the paths of the standard streams lead to what the process has open.
-/

namespace CjsxConversion

/-- How a process ends. -/
inductive ProcEnd where
  | exited (status : Nat)
  | killed (signal : Nat)
  deriving DecidableEq, Repr, Inhabited

/-- A process. -/
structure Proc where
  id : Nat
  parent : Nat
  here : Location := []
  mask : Nat := FileTree.usualMask
  descriptors : List (Nat × Nat) := []
  environment : List (Narrow × Narrow) := []
  ignored : List Nat := []
  deriving Repr, Inhabited

/-- How a program is called. -/
structure Call where
  name : Narrow
  args : List Narrow
  deriving Repr, Inhabited

/-- What a process does. -/
abbrev Job := ReaderT Proc Act

/-- What a process becomes that is called to run the program of a path, if that can be run. -/
abbrev Starter := Narrow → Call → Job (Except OsFault ProcEnd)

namespace Proc

/-- The open file of a number. -/
def opening? (p : Proc) (fd : Nat) : Option Nat :=
  (p.descriptors.find? fun e => e.1 = fd).map (·.2)

/-- The number of the open file that a path stands for. -/
def standard? (cs : Narrow) : Option Nat :=
  if cs = "/dev/stdin".toList then some 0
  else if cs = "/dev/stdout".toList then some 1
  else if cs = "/dev/stderr".toList then some 2
  else if Narrow.startsWith "/dev/fd/".toList cs then Narrow.toNat? (cs.drop 8)
  else none

/-- Opens what a process has open once more. -/
def reopen (p : Proc) (fd : Nat) (mode : OpenMode) : Act (Except OsFault Nat) := do
  let s ← get
  match (p.opening? fd).bind fun k => s.openings[k]? with
  | none => return .error .noEntry
  | some o =>
    let n ← System.addOpening { mode.opening o.channel with
      offset := if mode = .append then o.offset else 0 }
    match o.channel, s.files with
    | .file l, files =>
      if mode = .overwrite then
        match files.get? l with
        | some (.file _ bits) => set { (← get) with files := files.put l (.file [] bits) }
        | _ => pure ()
    | _, _ => pure ()
    return .ok n

def openFile (p : Proc) (path : Narrow) (mode : OpenMode) : Act (Except OsFault Nat) :=
  match standard? path with
  | some fd => p.reopen fd mode
  | none => System.openPath p.here (System.pathOf path) mode (0o666 &&& (0o777 - p.mask % 0o1000))

/-- The value of a variable of the environment. -/
def setting? (p : Proc) (name : String) : Option Narrow :=
  (p.environment.find? fun e => e.1 = name.toList).map (·.2)

end Proc

namespace Job

/-- Writes to an open file. -/
def put (fd : Nat) (text : Narrow) : Job (Except OsFault Unit) := do
  match (← read).opening? fd with
  | none => return .error .badDescriptor
  | some n => System.write n text

/-- Writes to standard output. What cannot be written is lost. -/
def say (text : Narrow) : Job Unit := do
  if text ≠ [] then
    let _ ← put 1 text

/-- Writes a line to standard error, behind the name of the program. -/
def complain (name text : Narrow) : Job Unit := do
  let _ ← put 2 (name ++ ": ".toList ++ text ++ ['\n'])

/-- Reads all that is left of an open file. -/
def takeAll (fd : Nat) : Job (Except OsFault Narrow) := do
  match (← read).opening? fd with
  | none => return .error .badDescriptor
  | some n => System.readAll n

/-- The content of the file that a path leads to. -/
def contentOf (path : Narrow) : Job (Except OsFault Narrow) := do
  match ← (← read).openFile path .read with
  | .error fault => return .error fault
  | .ok n => System.readAll n

/-- The content of an operand. A dash stands for standard input. -/
def operand (path : Narrow) : Job (Except OsFault Narrow) :=
  if path = ['-'] then takeAll 0 else contentOf path

/-- The sentence of a fault behind the name of a file. -/
def about (path : Narrow) (fault : OsFault) : Narrow :=
  Quoting.name path ++ ": ".toList ++ fault.sentence.toList

/-- What every program shows for options that it does not understand. -/
def misuse (name text : Narrow) (status : Nat) : Job Nat := do
  complain name text
  let _ ← put 2 ("Try '".toList ++ name ++ " --help' for more information.\n".toList)
  return status

/-- Writes the whole output of a program, and tells its status. -/
def finish (name text : Narrow) (status failure : Nat) : Job Nat := do
  if text = [] then return status
  match ← put 1 text with
  | .ok () => return status
  | .error fault =>
    complain name ("write error: ".toList ++ fault.sentence.toList)
    return failure

/-- What a command of the shell writes to its standard output. -/
def outputOf (start : Starter) (command : Narrow) : Job Narrow := do
  let p ← read
  let k ← System.newStream []
  let n ← System.addOpening { channel := .stream k, writes := true }
  let id ← System.newProcess
  let child := { p with
    id, parent := p.id, descriptors := (1, n) :: p.descriptors.filter fun e => e.1 ≠ 1 }
  let _ ← start "/bin/sh".toList ⟨"sh".toList, ["-c".toList, command]⟩ child
  return System.contentOf (← get) k

end Job
end CjsxConversion
