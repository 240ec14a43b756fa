import CjsxConversion.Shell.Builtin.Options

/-!
# Commands for the order of commands

Loops are broken, functions are left, the shell is ended. What is to be done when a signal arrives
is kept, and signals are sent. Whoever waits for a command in the background learns its status.
-/

namespace CjsxConversion
namespace Shell
namespace Control

/-- Breaks loops, or goes on with their next round. -/
def leaveLoops (skip : Skip) (args : List Narrow) : Sh Nat := do
  let n ← match args with
    | [] => pure 1
    | w :: _ => do
      let n ← natOf w
      if n = 0 then failWith ("Illegal number: ".toList ++ w)
      pure n
  modify fun s =>
    let n := min n s.loops
    if n = 0 then s else { s with skip, skipCount := n }
  return 0

def leaveFunction (args : List Narrow) : Sh Nat := do
  match args with
  | [] =>
    let s ← get
    set { s with skip := .functionAsIs }
    return s.status
  | w :: _ =>
    let n ← natOf w
    modify fun s => { s with skip := .function }
    return n

def exitShell (args : List Narrow) : Sh Nat := do
  match args with
  | [] => pure ()
  | w :: _ =>
    let n ← natOf w
    modify fun s => { s with lastStatus := some n }
  throw .exit

/-- Keeps what is to be done when signals arrive. -/
def setTraps (action : Option Narrow) : List Narrow → Sh Nat
  | [] => return 0
  | w :: ws => do
    match signalOf? w 0 with
    | none =>
      sayError ("trap: ".toList ++ w ++ ": bad trap\n".toList)
      return 1
    | some n =>
      modify fun s =>
        let others := s.traps.filter fun t => t.1 ≠ n
        { s with traps := match action with
          | some text => (n, text) :: others
          | none => others }
      setTraps (if action = some ['-'] then none else action) ws

/-- Shows or sets what is to be done when signals arrive. -/
def trap (args : List Narrow) : Sh Nat := do
  match ← operandsOf args with
  | [] =>
    let s ← get
    let sorted := s.traps.mergeSort fun a b => a.1 ≤ b.1
    say (sorted.flatMap fun t =>
      "trap -- ".toList ++ singleQuoted t.2 ++ ' ' :: signalName t.1 ++ ['\n'])
    return 0
  | w :: ws =>
    let isNumber : Bool := (Narrow.toNat? w).any fun n => n ≤ signalLimit
    if ws = [] ∨ isNumber then setTraps none (w :: ws)
    else setTraps (if w = ['-'] then none else some w) ws

/-! ### Signals -/

/-- How signals are sent. -/
def killUsage : String :=
  "Usage: kill [-s sigspec | -signum | -sigspec] [pid | job]... or\nkill -l [exitstatus]"

/-- Lists the signals, or names the one of a status. -/
def listSignals (words : List Narrow) : Sh Nat := do
  match words with
  | [] =>
    say ("0\n".toList ++ ((List.range signalLimit).map (· + 1)).flatMap fun n =>
      signalName n ++ ['\n'])
  | w :: _ =>
    let n ← natOf w
    let n := if 128 < n then n - 128 else n
    if 0 < n ∧ n ≤ signalLimit then say (signalName n ++ ['\n'])
    else failWith ("invalid signal number or exit status: ".toList ++ w)
  return 0

/-- Whether there is a process of a number. -/
def isAlive (id : Nat) : Sh Bool := do
  let s ← get
  return id = s.proc.id ∨ id = s.proc.parent ∨ id = s.mainId
    ∨ s.jobs.any fun j => j.1 = id

/-- Sends a signal to processes. -/
def sendAll (n : Nat) : List Narrow → Sh Nat
  | [] => return 0
  | w :: ws => do
    let id ← natOf w
    let alive ← isAlive id
    if alive then
      if n ≠ 0 then act (System.signal id n)
      takeSignals
    else complain "No such process\n".toList
    let status ← sendAll n ws
    return if alive then status else 1

/-- Sends signals. -/
def kill (args : List Narrow) : Sh Nat := do
  let given? := match args with
    | ('-' :: cs) :: _ => signalOf? cs 1
    | _ => none
  match given?, args with
  | some n, _ :: words => if words = [] then failWith killUsage.toList else sendAll n words
  | _, args =>
    let (given, words) ← takeOptions [('l', false), ('s', true)] args
    let mut chosen : Option Nat := none
    for g in given do
      match g with
      | ('s', some w) =>
        match signalOf? w 1 with
        | some n => chosen := some n
        | none => failWith ("invalid signal number or name: ".toList ++ w)
      | _ => pure ()
    if given.any fun g => g.1 = 'l' then
      if chosen.isSome then failWith killUsage.toList
      listSignals words
    else if words = [] then failWith killUsage.toList
    else sendAll (chosen.getD 15) words

/-! ### Jobs -/

/-- Waits for commands in the background, which have ended already. -/
def wait (args : List Narrow) : Sh Nat := do
  let words ← operandsOf args
  let mut status := if words = [] then 0 else 127
  for w in words do
    if w.head? = some '%' then failWith ("No such job: ".toList ++ w)
    let id ← natOf w
    status := (((← get).jobs.find? fun j => j.1 = id).map (·.2)).getD 127
  return status

/-- Shows the commands in the background that have not ended, of which there are none. -/
def jobs (args : List Narrow) : Sh Nat := do
  let _ ← takeOptions [('l', false), ('p', false)] args
  return 0

/-- Refuses to go on with a command in the background. -/
def resume (args : List Narrow) : Sh Nat := do
  let _ ← operandsOf args
  failWith "No current job".toList

end Control
end Shell
end CjsxConversion
