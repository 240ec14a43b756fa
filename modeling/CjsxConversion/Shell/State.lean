import CjsxConversion.Host.Proc
import CjsxConversion.Shell.Reader
import CjsxConversion.Text.Numerals

/-!
# What a shell keeps in mind

A shell has variables, functions, parameters and options; it knows what is to be done when a signal
arrives, and how far it has come in the text of its script.

A command may leave the usual order. Breaking a loop or returning from a function is kept as a
wish, which every list of commands and every loop heeds; an error, the end of the shell and the end
of the process stop everything up to where they are caught.
-/

namespace CjsxConversion
namespace Shell

/-- What is passed over. -/
inductive Skip where
  | none
  | loop
  | round
  | function
  | functionAsIs
  deriving DecidableEq, Repr, Inhabited

/-- Why everything stops. -/
inductive Leave where
  | error
  | failed
  | exit
  | gone (ending : ProcEnd)
  deriving DecidableEq, Repr, Inhabited

structure Variable where
  name : Narrow
  value : Option Narrow := none
  exported : Bool := false
  readOnly : Bool := false
  deriving DecidableEq, Repr, Inhabited

/-- What a function had set aside: a variable as it was, or the options. -/
inductive Aside where
  | ofName (name : Narrow) (old : Option Variable)
  | options (old : List Char)
  deriving Repr

structure Function where
  name : Narrow
  line : Nat
  body : Command

/-- What a shell keeps in mind. What was set aside and what redirections bring back stand with the
latest first, and the trap of number zero is for the end of the shell. -/
structure State where
  proc : Proc
  mainId : Nat
  name : Narrow
  params : List Narrow := []
  known : List Variable := []
  functions : List Function := []
  asides : List (List Aside) := []
  options : List Char := []
  traps : List (Nat × Narrow) := []
  arrived : List Nat := []
  reader : Reader := {}
  speaker : Option Narrow := none
  line : Nat := 0
  status : Nat := 0
  innerStatus : Nat := 0
  lastStatus : Option Nat := none
  skip : Skip := .none
  skipCount : Nat := 0
  loops : Nat := 0
  depth : Nat := 0
  backgroundId : Option Nat := none
  jobs : List (Nat × Nat) := []
  optionIndex : Nat := 1
  optionOffset : Option Nat := none
  directory : Narrow := []
  lostOutput : Bool := false
  places : List (Narrow × Narrow) := []
  redirected : List (List (Nat × Option Nat)) := []

/-- What a shell does. -/
abbrev Sh := ExceptT Leave (StateT State Act)

/-- Does something whose stopping is caught. -/
def attempt {α : Type} (m : Sh α) : Sh (Except Leave α) :=
  ExceptT.mk (m.run >>= fun r => pure (.ok r))

/-- Does something to the system. -/
def act {α : Type} (m : Act α) : Sh α := ExceptT.lift (StateT.lift m)

/-- Does something as a process. -/
def asProc {α : Type} (m : Job α) : Sh α := do act (m.run (← get).proc)

/-! ### Messages -/

/-- Writes to standard error. -/
def sayError (text : Narrow) : Sh Unit := do
  let _ ← asProc (Job.put 2 text)

/-- Writes to standard output. -/
def say (text : Narrow) : Sh Unit := do
  if text ≠ [] then
    match ← asProc (Job.put 1 text) with
    | .ok () => return ()
    | .error _ => modify fun s => { s with lostOutput := true }

/-- A complaint. -/
def complain (text : Narrow) : Sh Unit := do
  let s ← get
  let speaker := match s.speaker with
    | some cs => cs ++ ": ".toList
    | none => []
  sayError (s.name ++ ": ".toList ++ Narrow.ofNat s.line ++ ": ".toList ++ speaker ++ text ++ ['\n'])

/-- An error. -/
def failWith {α : Type} (text : Narrow) : Sh α := do
  modify fun s => { s with status := 2 }
  complain text
  throw .error

def failAbout {α : Type} (word : Narrow) (text : String) : Sh α :=
  failWith (word ++ ": ".toList ++ text.toList)

/-- An error in the text of a script. -/
def failScript {α : Type} (fault : ScriptFault) : Sh α := do
  modify fun s => { s with line := fault.line }
  failWith ("Syntax error: ".toList ++ fault.text)

/-! ### Numbers -/

/-- The whole number that a word spells. -/
def intOf (w : Narrow) : Sh Int := do
  let n := Numerals.readWhole (some 10) w
  if n.found ∧ n.rest.all Narrow.isSpace ∧ -(Nat.pow 2 63 : Int) ≤ n.value ∧ n.value < Nat.pow 2 63 then
    return n.value
  else failWith ("Illegal number: ".toList ++ w)

/-- The natural number that a word spells. -/
def natOf (w : Narrow) : Sh Nat := do
  let n ← intOf w
  if 0 ≤ n ∧ n < Nat.pow 2 31 then return n.toNat else failWith ("Illegal number: ".toList ++ w)

/-! ### Options -/

def State.has (s : State) (option : Char) : Bool := s.options.contains option

/-- The options with their names, in the order in which they are shown. -/
def optionNames : List (String × Option Char) :=
  [("errexit", some 'e'), ("noglob", some 'f'), ("ignoreeof", some 'I'), ("interactive", some 'i'),
   ("monitor", some 'm'), ("noexec", some 'n'), ("stdin", some 's'), ("xtrace", some 'x'),
   ("verbose", some 'v'), ("vi", some 'V'), ("emacs", some 'E'), ("noclobber", some 'C'),
   ("allexport", some 'a'), ("notify", some 'b'), ("nounset", some 'u'),
   ("privileged", some 'p'), ("nolog", none), ("debug", none)]

/-- Sets an option, or takes it back. -/
def State.setOption (s : State) (option : Char) (value : Bool) : State :=
  let others := s.options.filter (· ≠ option)
  { s with options := if value then option :: others else others }

def State.optionLetters (s : State) : Narrow :=
  (optionNames.reverse.filterMap (·.2)).filter s.has

/-! ### Variables -/

def State.lookUp? (s : State) (name : Narrow) : Option Variable :=
  s.known.find? fun v => v.name = name

def State.value? (s : State) (name : Narrow) : Option Narrow :=
  (s.lookUp? name).bind (·.value)

/-- Puts a variable in the place of the one of its name, or behind the others. -/
def putVariable (v : Variable) : List Variable → List Variable
  | [] => [v]
  | w :: ws => if w.name = v.name then v :: ws else w :: putVariable v ws

def State.withVariable (s : State) (v : Variable) : State :=
  { s with known := putVariable v s.known }

def State.withoutVariable (s : State) (name : Narrow) : State :=
  { s with known := s.known.filter fun v => v.name ≠ name }

/-- What happens when a variable gets another value. -/
def noticeChange (name : Narrow) (value : Option Narrow) : Sh Unit := do
  if name = "OPTIND".toList then
    let n ← match value with
      | some cs => natOf cs
      | none => pure 1
    modify fun s => { s with optionIndex := max n 1, optionOffset := none }
  if name = "PATH".toList then modify fun s => { s with places := [] }

def setVariable (name : Narrow) (value : Option Narrow) (exported readOnly : Bool := false) :
    Sh Unit := do
  let s ← get
  let old := (s.lookUp? name).getD { name }
  if old.readOnly then failAbout name "is read only"
  let seen : Bool := old.exported || exported || s.has 'a'
  set (s.withVariable { name := name, value := value, exported := seen, readOnly := readOnly })
  noticeChange name value

/-- Gives a variable a value, if its name is one. -/
def assign (name value : Narrow) (exported : Bool := false) : Sh Unit := do
  if !Narrow.isName name then failAbout name "bad variable name"
  setVariable name (some value) exported

/-- Takes a variable away. -/
def unsetVariable (name : Narrow) : Sh Unit := do
  let s ← get
  match s.lookUp? name with
  | none => return ()
  | some v =>
    if v.readOnly then failAbout name "is read only"
    set (s.withoutVariable name)
    noticeChange name none

/-- The name and the value of a word that assigns one. -/
def splitAssignment (word : Narrow) : Narrow × Option Narrow :=
  let name := word.takeWhile (· ≠ '=')
  (name, if name.length < word.length then some (word.drop (name.length + 1)) else none)

/-- A number for a name, in which its first character counts most. -/
def hashOf (name : Narrow) : Nat :=
  match name with
  | [] => 0
  | c :: _ => name.foldl (fun n c => n + c.toNat) (c.toNat * 16)

/-- The place of a name in the table of variables. -/
def bucketOf (name : Narrow) : Nat := hashOf name % 39

/-- The variables that programs see. -/
def State.environment (s : State) : List (Narrow × Narrow) :=
  let shown := s.known.filterMap fun v =>
    if v.exported then v.value.map fun value => (v.name, value) else none
  shown.mergeSort fun a b => bucketOf a.1 ≤ bucketOf b.1

/-- A text between single quotation marks. What cannot stand there is written between others. The
bound is the length of the text. -/
def singleQuotedWithin : Nat → Narrow → Narrow
  | 0, _ => []
  | n + 1, cs =>
    let plain := cs.takeWhile (· ≠ '\'')
    let marks := (cs.drop plain.length).takeWhile (· = '\'')
    let rest := cs.drop (plain.length + marks.length)
    let front := ['\''] ++ plain ++ ['\'']
    if marks = [] then front
    else front ++ ['"'] ++ marks ++ ['"'] ++ if rest = [] then [] else singleQuotedWithin n rest

/-- A text between single quotation marks. -/
def singleQuoted (cs : Narrow) : Narrow := singleQuotedWithin (cs.length + 1) cs

/-- The separators between fields. -/
def State.separators (s : State) : Narrow := (s.value? "IFS".toList).getD " \t\n".toList

/-! ### Local variables -/

/-- Sets a variable aside, so that it comes back later. -/
def setAside (a : Aside) : Sh Unit :=
  modify fun s =>
    match s.asides with
    | [] => s
    | frame :: frames => { s with asides := (a :: frame) :: frames }

/-- Makes a word that may assign a value hold for a while. -/
def makeLocal (word : Narrow) (exported : Bool) : Sh Unit := do
  let s ← get
  if word = ['-'] then setAside (.options s.options)
  else
    let (name, value) := splitAssignment word
    if !Narrow.isName name then failAbout name "bad variable name"
    let old := s.lookUp? name
    match value with
    | some value => setVariable name (some value) exported (old.any (·.readOnly))
    | none => if old.isNone then setVariable name none exported
    setAside (.ofName name old)

def bringBack : List Aside → State → State
  | [], s => s
  | .options old :: rest, s => bringBack rest { s with options := old }
  | .ofName name none :: rest, s => bringBack rest (s.withoutVariable name)
  | .ofName _ (some v) :: rest, s => bringBack rest (s.withVariable v)

/-- Brings back what was set aside latest, down to so many frames. -/
def dropAsides (count : Nat) : Sh Unit :=
  modify fun s =>
    let extra := s.asides.take (s.asides.length - count)
    bringBack extra.flatten { s with asides := s.asides.drop extra.length }

/-! ### Signals -/

/-- The signals with their names. -/
def signals : List (Nat × String) :=
  [(1, "HUP"), (2, "INT"), (3, "QUIT"), (4, "ILL"), (5, "TRAP"), (6, "ABRT"), (7, "BUS"),
   (8, "FPE"), (9, "KILL"), (10, "USR1"), (11, "SEGV"), (12, "USR2"), (13, "PIPE"), (14, "ALRM"),
   (15, "TERM"), (17, "CHLD"), (18, "CONT"), (19, "STOP"), (20, "TSTP"), (21, "TTIN"),
   (22, "TTOU"), (23, "URG"), (24, "XCPU"), (25, "XFSZ"), (26, "VTALRM"), (27, "PROF"),
   (28, "WINCH"), (29, "IO"), (30, "PWR"), (31, "SYS"), (34, "RTMIN"), (64, "RTMAX")]

/-- The largest number of a signal. -/
def signalLimit : Nat := 64

def signalName (n : Nat) : Narrow :=
  if n = 0 then "EXIT".toList
  else
    match signals.find? fun e => e.1 = n with
    | some e => e.2.toList
    | none =>
      if 34 < n ∧ n ≤ 49 then "RTMIN+".toList ++ Narrow.ofNat (n - 34)
      else if 49 < n ∧ n < 64 then "RTMAX-".toList ++ Narrow.ofNat (64 - n)
      else Narrow.ofNat n

/-- The signal of a name or a number. Zero counts as one where it is allowed. -/
def signalOf? (cs : Narrow) (least : Nat) : Option Nat :=
  match Narrow.toNat? cs with
  | some n => if n ≤ signalLimit then some n else none
  | none =>
    (((List.range (signalLimit + 1)).drop least).find? fun n =>
      signalName n = cs.map Narrow.toUpper)

/-- The signals that do nothing unless something is to be done. -/
def harmlessSignals : List Nat := [17, 18, 23, 28]

/-- Takes the signals that were sent to the shell. -/
def takeSignals : Sh Unit := do
  let s ← get
  let sent := (← act get).signals
  for (id, n) in sent do
    if id = s.proc.id then
      act (modify fun t => { t with signals := t.signals.filter fun e => e ≠ (id, n) })
      match s.traps.find? fun e => e.1 = n with
      | some (_, []) => pure ()
      | some _ =>
        if n = 9 then throw (.gone (.killed n))
        modify fun s => { s with arrived := s.arrived.filter (· ≠ n) ++ [n] }
      | none =>
        if s.proc.ignored.contains n then pure ()
        else if n = 0 ∨ harmlessSignals.contains n then pure ()
        else throw (.gone (.killed n))

/-- What is said about the end of a process by a signal. -/
def signalSentence (n : Nat) : Option String :=
  match n with
  | 2 | 13 => none
  | 1 => some "Hangup"
  | 3 => some "Quit"
  | 4 => some "Illegal instruction"
  | 5 => some "Trace/breakpoint trap"
  | 6 => some "Aborted"
  | 7 => some "Bus error"
  | 8 => some "Floating point exception"
  | 9 => some "Killed"
  | 10 => some "User defined signal 1"
  | 11 => some "Segmentation fault"
  | 12 => some "User defined signal 2"
  | 14 => some "Alarm clock"
  | 15 => some "Terminated"
  | 24 => some "CPU time limit exceeded"
  | 25 => some "File size limit exceeded"
  | 26 => some "Virtual timer expired"
  | 27 => some "Profiling timer expired"
  | 29 => some "I/O possible"
  | 30 => some "Power failure"
  | 31 => some "Bad system call"
  | n => some ("Signal " ++ toString n)

/-- The status of a process that was waited for. -/
def statusOf (ending : ProcEnd) : Sh Nat :=
  match ending with
  | .exited n => return n
  | .killed n => do
    match signalSentence n with
    | some text => sayError (text.toList ++ ['\n'])
    | none => pure ()
    return n + 128

/-- Does what must not go on without a bound. -/
def takeStep : Sh Unit := do
  if !(← act System.step) then throw (.gone (.killed 13))

end Shell
end CjsxConversion
