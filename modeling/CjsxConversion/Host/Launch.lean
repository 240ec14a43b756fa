import CjsxConversion.Host.Basic
import CjsxConversion.Shell.Evaluator
import CjsxConversion.Utility.Basename
import CjsxConversion.Utility.Cat
import CjsxConversion.Utility.Condition
import CjsxConversion.Utility.Echo
import CjsxConversion.Utility.Environment
import CjsxConversion.Utility.Move
import CjsxConversion.Utility.Remove
import CjsxConversion.Utility.Sed.Run
import CjsxConversion.Utility.Sorting.Run
import CjsxConversion.Utility.Translate

/-!
# Starting programs

What the operating system does when it is asked to start a program: it finds the file, refuses
what cannot be run, and runs it to its end. A name without a slash is searched on the path. A file
whose first line names an interpreter is run by that.

This is one launcher among others: a session takes any, and only the program that is run picks this
one, whose shell and utilities are part of the machine.
-/

namespace CjsxConversion

/-! ### Images -/

/-- The image that a path leads to, if it may be run. -/
def FileTree.image (t : FileTree) (here : Location) (path : Narrow) : Except OsFault Octets := do
  let l ← t.locate true here (System.pathOf path)
  match t.get? l with
  | none => .error .noEntry
  | some (.file data mode) => if mode &&& 0o111 = 0 then .error .denied else .ok data
  | some _ => .error .denied

/-- The interpreter that the first line of a script names, and the option that stands there. -/
def interpreter? (data : Narrow) : Option (Narrow × List Narrow) :=
  match data with
  | '#' :: '!' :: rest =>
    let line := ((rest.takeWhile (· ≠ '\n')).dropWhile Narrow.isBlank).reverse
    let line := (line.dropWhile Narrow.isBlank).reverse
    let program := line.takeWhile fun c => !Narrow.isBlank c
    let argument := (line.drop program.length).dropWhile Narrow.isBlank
    if program = [] then none
    else some (program, if argument = [] then [] else [argument])
  | _ => none

/-- How many octets of a file are looked at to find its interpreter. -/
def headLimit : Nat := 256

/-- The program that is run for a call, and how it is called in the end. The bound is the number of
interpreters that may be chained. -/
def FileTree.program (t : FileTree) (here : Location) :
    Nat → Narrow → Call → Except OsFault (Utility × Call)
  | 0, _, _ => .error .tooManyLinks
  | n + 1, path, call => do
    let data ← t.image here path
    match Utility.ofImage? data with
    | some u => return (u, call)
    | none =>
      match interpreter? (Narrow.ofOctets (data.take headLimit)) with
      | none => .error .notExecutable
      | some (interpreter, options) =>
        t.program here n interpreter ⟨interpreter, options ++ path :: call.args⟩

/-- How many interpreters may be chained. -/
def chainLimit : Nat := 6

/-- How many octets a word may have that a program is given, with the one that ends it. -/
def wordLimit : Nat := 131072

/-- How many octets all words may have together. -/
def wordsLimit : Nat := 2097152

def fits (environment : List (Narrow × Narrow)) (words : List Narrow) : Bool :=
  words.all (fun w => w.length < wordLimit)
    && words.foldl (fun n w => n + w.length + 9) 0
      + environment.foldl (fun n e => n + e.1.length + e.2.length + 10) 0 < wordsLimit

/-! ### Running -/

/-- Runs a built-in program. -/
def Utility.run (start : Starter) (u : Utility) (call : Call) : Job ProcEnd :=
  match u with
  | .sh => Shell.run start call.name call.args
  | .env => Environment.run start call.name call.args
  | .sed => ended (Sed.run start)
  | .cat => ended Cat.run
  | .tr => ended Translate.run
  | .sort => ended Sorting.run
  | .printf => ended Printf.run
  | .basename => ended Basename.run
  | .mv => ended Move.run
  | .rm => ended Remove.run
  | .echo => ended Echo.run
  | .test => ended Condition.run
  | .bracket => ended Condition.runBracketed
  | .true => return .exited 0
  | .false => return .exited 1
where
  /-- Runs a program that ends with a status. -/
  ended (f : Narrow → List Narrow → Job Nat) : Job ProcEnd :=
    return .exited (← f call.name call.args)

/-- Turns a process into the program of a path. The bound is the number of programs that may have
started each other. -/
def execute : Nat → Starter
  | 0, _, _ => return .error .denied
  | n + 1, path, call => do
    let p ← read
    if !fits p.environment (call.name :: call.args) then return .error .listTooLong
    match (← get).files.program p.here chainLimit path call with
    | .error fault => return .error fault
    | .ok (u, call) => return .ok (← u.run (execute n) call)

/-- How many programs may have started each other. -/
def processLimit : Nat := 2000

/-- How many steps programs may take together. -/
def stepLimit : Nat := 400000

namespace Host

/-- The paths at which a program is searched, or why it is not. -/
def candidates (h : Host) (program : Narrow) : Except OsFault (List Narrow) :=
  if program.contains '/' then .ok [program]
  else if program = [] then .error .noEntry
  else if FileTree.nameLimit < program.length then .error .nameTooLong
  else .ok (h.searchPath.map fun dir => Narrow.ofOctets (dir.join (System.pathOf program)).spelling)

/-- Runs the first of some programs that can be run. A refusal counts if none can. -/
def runFirst (call : Call) : OsFault → List Narrow → Job (Except OsFault ProcEnd)
  | fault, [] => return .error fault
  | fault, path :: paths => do
    match ← execute processLimit path call with
    | .ok ending => return .ok ending
    | .error .denied => runFirst call .denied paths
    | .error f =>
      if f = .noEntry ∨ f = .notDirectory then
        runFirst call (if fault = .denied then fault else f) paths
      else return .error f

def environment (h : Host) : List (Narrow × Narrow) :=
  let dirs := h.searchPath.map fun dir => Narrow.ofOctets dir.spelling
  [("HOME".toList, "/root".toList), ("PATH".toList, List.intercalate [':'] dirs)]

/-- Runs a program with standard input, and waits for its end. -/
def runCall (h : Host) (paths : List Narrow) (call : Call) (input : Octets) :
    Except OsFault Exit × Host :=
  let act : Act (Except OsFault Exit) := do
    let output ← System.newStream []
    let errors ← System.newStream []
    let reading ← System.openText (Narrow.ofOctets input)
    let writing ← System.addOpening { channel := .stream output, writes := true }
    let complaining ← System.addOpening { channel := .stream errors, writes := true }
    let id ← System.newProcess
    let p : Proc :=
      { id, parent := id - 1, here := h.here, mask := h.mask, environment := h.environment
        descriptors := [(0, reading), (1, writing), (2, complaining)] }
    match ← runFirst call .noEntry paths p with
    | .error fault => return .error fault
    | .ok ending =>
      let s ← get
      let status := match ending with
        | .exited n => some n
        | .killed _ => none
      return .ok
        { status
          output := Narrow.toOctets (s.contentOf output)
          errors := Narrow.toOctets (s.contentOf errors) }
  let (answer, s) := act.run { files := h.files, budget := stepLimit }
  (answer, { h with files := s.files })

/-- Starts a program with arguments and standard input, and waits for its end. -/
def launch (program : Octets) (args : List Octets) (input : Octets) (h : Host) :
    Except IoFault Exit × Host :=
  if (program :: args).any fun w => w.contains 0 then (.error .nulInArgument, h)
  else
    let name := Narrow.ofOctets program
    match h.candidates name with
    | .error fault => (.error fault.toIoFault, h)
    | .ok paths =>
      let (answer, h) := h.runCall paths ⟨name, args.map Narrow.ofOctets⟩ input
      (answer.mapError OsFault.toIoFault, h)

end Host
end CjsxConversion
