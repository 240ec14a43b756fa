import CjsxConversion.Shell.Builtin.Control
import CjsxConversion.Shell.Builtin.Names
import CjsxConversion.Shell.Builtin.Surroundings
import CjsxConversion.Shell.Builtin.Variables
import CjsxConversion.Shell.Parser
import CjsxConversion.Shell.Printing
import CjsxConversion.Shell.Redirection
import CjsxConversion.Shell.Test

/-!
# Running commands

Commands run one after the other, and each has a status. Loops, functions and lists heed the wish to
pass over what follows. What runs in a process of its own starts from what the shell keeps in mind,
and leaves nothing of it behind.

The commands of a pipeline run one after the other, too: the first one writes all it has to write
before the next one reads it. A command that writes without an end is stopped, as it would be when
nobody reads any more.

The functions that run commands call each other; their bound is larger than any script
needs. How long a script may run is bounded by the steps of the system.
-/

namespace CjsxConversion
namespace Shell

/-! ### Processes -/

/-- What is left of a signal's arrival in another process: only that it is ignored. -/
def State.ignoredTraps (s : State) : List (Nat × Narrow) := s.traps.filter fun t => t.2 = []

/-- The process in which a program is run. -/
def State.programProc (s : State) (id : Nat) : Proc :=
  { s.proc with
    id, parent := s.proc.id, environment := s.environment
    ignored := s.proc.ignored ++ (s.ignoredTraps.map (·.1)).filter (· ≠ 0) }

/-- Runs the first of some paths that can be run. A file that is no program is a script. -/
def tryPaths (start : Starter) (args : List Narrow) (name : Narrow) :
    OsFault → List Narrow → Job (Except OsFault ProcEnd)
  | fault, [] => return .error fault
  | fault, p :: ps => do
    let answer ← start p ⟨name, args⟩
    let answer ← match answer with
      | .error .notExecutable =>
        let shell := "/bin/sh".toList
        start shell ⟨shell, p :: args⟩
      | answer => pure answer
    match answer with
    | .ok ending => return .ok ending
    | .error f =>
      tryPaths start args name (if f = .noEntry ∨ f = .notDirectory then fault else f) ps

/-- The status of a program that could not be run. -/
def statusOfFault (fault : OsFault) : Nat :=
  if fault = .noEntry ∨ fault = .notDirectory ∨ fault = .tooManyLinks ∨ fault = .nameTooLong then
    127
  else 126

/-- Turns a process into a program. It stays as it is only if the program cannot be run. -/
def becomeProgram (start : Starter) (paths : List Narrow) (name : Narrow) (args : List Narrow)
    (id : Nat) : Sh (Except OsFault ProcEnd) := do
  let p := (← get).programProc id
  act ((tryPaths start args name .noEntry paths).run p)

/-- Does something in a process of its own. -/
def inChild (finish : Except Leave Unit → Sh ProcEnd) (id : Nat) (body : Sh Unit) : Sh ProcEnd := do
  let s ← get
  set { s with
    proc := { s.proc with id, parent := s.proc.id }
    traps := s.ignoredTraps, arrived := [], jobs := [], redirected := [] }
  let ending ← finish (← attempt body)
  set s
  return ending

/-- A way to standard output that ends in a stream. -/
def writeToStream (k : Nat) : Sh Unit := do
  let n ← act (System.addOpening { channel := .stream k, writes := true })
  modify fun s => s.setDescriptor 1 (some n)

/-- Standard input from an open file. -/
def readFrom (n : Nat) : Sh Unit := modify fun s => s.setDescriptor 0 (some n)

/-- Lets something take a part of the steps that are left only. -/
def withPart {α : Type} (m : Sh α) : Sh α := do
  let all := (← act get).budget
  let part := all / 4
  act (modify fun t => { t with budget := part })
  let answer ← m
  act (modify fun t => { t with budget := all - (part - t.budget) })
  return answer

/-! ### Passing over -/

/-- What is passed over at the end of a round of a loop. -/
def takeSkip : Sh Skip := do
  let s ← get
  match s.skip with
  | .loop | .round =>
    if s.skipCount ≤ 1 then
      set { s with skip := .none, skipCount := 0 }
      return s.skip
    else
      set { s with skipCount := s.skipCount - 1 }
      return .loop
  | skip => return skip

def Skip.goesOn (skip : Skip) : Bool := skip = .none || skip = .round

/-- Runs a body for each value of a variable. -/
def runEach (name : Narrow) (body : Sh Nat) : Nat → List Narrow → Sh Nat
  | status, [] => return status
  | _, v :: vs => do
    takeStep
    setVariable name (some v)
    let status ← body
    if (← takeSkip).goesOn then runEach name body status vs else return status

/-- Runs a body as long as a test succeeds, or fails. The bound is the number of rounds. -/
def repeatWhile (untilTrue : Bool) (test body : Sh Nat) : Nat → Nat → Sh Nat
  | 0, status => return status
  | n + 1, status => do
    takeStep
    let i ← test
    let skip ← takeSkip
    if skip = .none then
      if (i = 0) = untilTrue then return status
      let status ← body
      if (← takeSkip).goesOn then repeatWhile untilTrue test body n status else return status
    else
      let status := if skip = .function then i else status
      if skip.goesOn then repeatWhile untilTrue test body n status else return status

/-- How many rounds a loop may have. -/
def roundLimit : Nat := 100000000

/-! ### Simple commands -/

def setStatus (status : Nat) : Sh Unit := modify fun s => { s with status }

/-- Keeps the line of a command. -/
def setLine (line : Nat) : Sh Unit := modify fun s => { s with line }

/-- The fields of the first words, up to a word that has any, and the words behind it. -/
def takeFirst (back : Option Command → Sh Narrow) : List Word → Sh (List Narrow × List Word)
  | [] => return ([], [])
  | w :: ws => do
    match ← expandFields back w with
    | [] => takeFirst back ws
    | fields => return (fields, ws)

/-- The beginning of a simple command. -/
structure Beginning where
  fields : List Narrow
  words : List Word
  bare : Bool := false
  searchPath : Option Narrow := none
  special : Option Bool := none
  assigns : Bool := false

/-- Goes on to the next field behind some fields. -/
def nextField (back : Option Command → Sh Narrow) (i : Nat) (b : Beginning) :
    Sh (Option Narrow × Beginning) := do
  match b.fields[i]? with
  | some w => return (some w, b)
  | none =>
    let (fields, words) ← takeFirst back b.words
    let b := { b with fields := b.fields ++ fields, words }
    return (b.fields[i]?, b)

/-- Passes over the options of a command that runs another one. There is none if the command only
tells what a name stands for. The bound is the number of fields. -/
def passOptions (back : Option Command → Sh Narrow) :
    Nat → Nat → Option Narrow → Beginning → Sh (Option Beginning × Beginning)
  | 0, _, _, b => return (none, b)
  | n + 1, i, path, b => do
    let (w?, b) ← nextField back i b
    let found (i : Nat) (b : Beginning) : Option Beginning :=
      some { b with fields := b.fields.drop i, bare := true, searchPath := path }
    match w? with
    | none => return (none, b)
    | some ['-', '-'] =>
      let (w?, b) ← nextField back (i + 1) b
      return (if w?.isSome then found (i + 1) b else none, b)
    | some ('-' :: c :: cs) =>
      if (c :: cs).all (· = 'p') then passOptions back n (i + 1) (some usualPath) b
      else return (none, b)
    | some _ => return (found i b, b)

/-- What the first field of a command says about its other words. The bound is the number of
commands before the command. -/
def lookAhead (back : Option Command → Sh Narrow) : Nat → Beginning → Sh Beginning
  | 0, b => return b
  | n + 1, b => do
    let name := b.fields.head?.getD []
    let s ← get
    if !b.bare && s.functions.any (fun f => f.name = name) then return b
    match kindOf? name with
    | none => return b
    | some kind =>
      if !kind.regular then return b
      let b := { b with assigns := kind.assigns, special := b.special.or (some kind.special) }
      if name = "command".toList then
        match ← passOptions back 10000 1 b.searchPath b with
        | (some b, _) => lookAhead back n b
        | (none, b) => return b
      else return b

/-- The fields of the words behind the beginning of a command. -/
def expandRest (back : Option Command → Sh Narrow) (assigns : Bool) : List Word → Sh (List Narrow)
  | [] => return []
  | w :: ws => do
    let front ←
      if assigns ∧ w.isAssignment then do pure [← expandText back { homes := true } w]
      else expandFields back w
    return front ++ (← expandRest back assigns ws)

/-- Makes the assignments in front of a command, for good or for a while. -/
def assignAll (back : Option Command → Sh Narrow) (isLocal exported : Bool) :
    List Word → Sh (List Narrow)
  | [] => return []
  | w :: ws => do
    let text ← expandText back { homes := true } w
    if isLocal then makeLocal text true
    else
      let (name, value) := splitAssignment text
      setVariable name (some (value.getD [])) exported
    return text :: (← assignAll back isLocal exported ws)

/-- Shows a command before it is run. -/
def trace (file : Option Nat) (words : List Narrow) : Sh Unit := do
  let s ← get
  if s.has 'x' then
    let line := (s.value? "PS4".toList).getD [] ++ List.intercalate [' '] words ++ ['\n']
    match file with
    | some n =>
      let _ ← act (System.write n line)
    | none => pure ()

/-- A command of the shell that needs nothing but what the shell keeps in mind. -/
def simpleBuiltin? (name : String) : Option (List Narrow → Sh Nat) :=
  match name with
  | ":" | "true" => some fun _ => return 0
  | "false" => some fun _ => return 1
  | "[" => some (Test.run true)
  | "test" => some (Test.run false)
  | "alias" => some Names.aliases
  | "bg" | "fg" => some Control.resume
  | "break" => some (Control.leaveLoops .loop)
  | "cd" | "chdir" => some Surroundings.cd
  | "command" => some Names.command
  | "continue" => some (Control.leaveLoops .round)
  | "echo" => some Printing.echo
  | "exit" => some Control.exitShell
  | "export" => some Variables.exportVariables
  | "getopts" => some Variables.getopts
  | "hash" => some Names.hash
  | "jobs" => some Control.jobs
  | "kill" => some Control.kill
  | "local" => some Variables.localVariables
  | "printf" => some Printing.printf
  | "pwd" => some Surroundings.pwd
  | "read" => some Variables.readLine
  | "readonly" => some Variables.readonlyVariables
  | "return" => some Control.leaveFunction
  | "set" => some Variables.setAll
  | "shift" => some Variables.shift
  | "times" => some Surroundings.times
  | "trap" => some Control.trap
  | "type" => some Names.type
  | "ulimit" => some Surroundings.ulimit
  | "umask" => some Surroundings.umask
  | "unalias" => some Names.unalias
  | "unset" => some Variables.unsetNames
  | "wait" => some Control.wait
  | _ => none

/-- Runs a program in a process of its own, and waits for it. -/
def runProgram (start : Starter) (path : Narrow) (searchPath : Narrow) (name : Narrow)
    (args : List Narrow) : Sh Nat := do
  let id ← act System.newProcess
  let paths := if name.contains '/' then [path]
    else path :: (pathsOnPath searchPath name).filter (· ≠ path)
  match ← becomeProgram start paths name args id with
  | .ok ending => statusOf ending
  | .error fault =>
    complain (name ++ ": ".toList ++ (execSentence fault).toList)
    return statusOfFault fault

/-- Turns the shell into a program. -/
def execProgram (start : Starter) (args : List Narrow) : Sh Nat := do
  match args with
  | [] => return 0
  | name :: args =>
    let s ← get
    let paths := if name.contains '/' then [name] else pathsOnPath s.searchPath name
    match ← becomeProgram start paths name args s.proc.id with
    | .ok ending => throw (.gone ending)
    | .error fault =>
      complain (name ++ ": ".toList ++ (execSentence fault).toList)
      setStatus (statusOfFault fault)
      throw .failed

/-- The path of a script that is to be read here. -/
def scriptPath (name : Narrow) : Sh Narrow := do
  if name.contains '/' then return name
  let s ← get
  let t := (← act get).files
  let isFile (p : Narrow) : Bool :=
    match t.locate true s.proc.here (System.pathOf p) with
    | .ok l => match t.get? l with
      | some (.file _ _) => true
      | _ => false
    | .error _ => false
  match (pathsOnPath s.searchPath name).find? isFile with
  | some p => return p
  | none => failAbout name "not found"

/-- Does something with another text to read, which may be that of a file. -/
def withText {α : Type} (isFile : Bool) (text : Narrow) (m : Sh α) : Sh α := do
  let r := (← get).reader
  modify fun s => { s with reader :=
    { isFile, rest := text, documents := r.documents, aliases := r.aliases } }
  let answer ← attempt m
  modify fun s => { s with reader :=
    { r with documents := s.reader.documents, aliases := s.reader.aliases } }
  match answer with
  | .ok a => return a
  | .error leave => throw leave

/-- Shows what has been read of a file, if that is wanted: the text is what was left before, and
what is left of it is a function of it. -/
def showRead (before : Narrow) (left : Narrow → Narrow) : Sh Unit := do
  let s ← get
  if s.reader.isFile && s.has 'v' then
    sayError (before.take (before.length - (left before).length))

/-- Does something with other parameters, as a function. -/
def withParams (params : List Narrow) (m : Sh Nat) : Sh Nat := do
  let old ← get
  set { old with
    params, optionIndex := 1, optionOffset := none, loops := 0, depth := old.depth + 1 }
  let answer ← attempt m
  modify fun s => { s with
    params := old.params, optionIndex := old.optionIndex, optionOffset := old.optionOffset
    loops := old.loops, depth := old.depth
    skip := if s.skip = .function ∨ s.skip = .functionAsIs then .none else s.skip }
  match answer with
  | .ok status => return status
  | .error leave => throw leave

/-- How many functions may be open. -/
def depthOfFunctions : Nat := 1000

/-- The status with which the shell ends, as far as it is known. -/
def settleStatus (byExit : Bool) : Sh Unit :=
  modify fun s =>
    let status := match s.lastStatus with
      | some n => if byExit ∨ s.skip = .functionAsIs then n else s.status
      | none => s.status
    { s with status, lastStatus := none, skip := .none, loops := 0 }

/-- Does something with the speaker of complaints. -/
def speakingAs (name : Narrow) (m : Sh Nat) : Sh Nat := do
  let old := (← get).speaker
  modify fun s => { s with speaker := some name, lostOutput := false }
  let answer ← attempt (do
    let status ← m
    if (← get).lostOutput then
      complain (name ++ ": I/O error".toList)
      return status ||| 1
    else return status)
  modify fun s => { s with speaker := old, lostOutput := false }
  match answer with
  | .ok status => return status
  | .error leave => throw leave

mutual

/-- Runs a command. With the flag, its status is tested. -/
def evaluate (start : Starter) : Nat → Command → Bool → Sh Nat
  | 0, _, _ => throw (.gone (.killed 11))
  | n + 1, c, tested => do
    if (← get).has 'n' then return (← get).status
    runTraps start n
    let back := substitute start n
    let mut mayFail := false
    match c with
    | .negate body =>
      let i ← evaluate start n body true
      setStatus (if (← get).skip ≠ .none then i else if i = 0 then 1 else 0)
    | .redir line body redirs =>
      setLine line
      let targets ← expandRedirs back redirs
      let depth := (← get).redirected.length
      keepDescriptors targets
      let made ← tryRedirect back targets
      mayFail := !made
      let status ← if made then evaluate start n body tested else pure 2
      dropRedirections depth
      setStatus status
    | .simple line assigns words redirs =>
      mayFail := true
      setLine line
      setStatus (← runSimple start n assigns words redirs tested)
    | .each line name words body =>
      setLine line
      let values ← expandAll back words
      modify fun s => { s with loops := s.loops + 1 }
      let status ← runEach name (evaluate start n body tested) 0 values
      modify fun s => { s with loops := s.loops - 1 }
      setStatus status
    | .loop untilTrue test body =>
      modify fun s => { s with loops := s.loops + 1 }
      let status ← repeatWhile untilTrue (evaluate start n test true)
        (evaluate start n body tested) roundLimit 0
      modify fun s => { s with loops := s.loops - 1 }
      setStatus status
    | .subshell line body redirs =>
      mayFail := true
      setLine line
      let targets ← expandRedirs back redirs
      let id ← act System.newProcess
      let ending ← inChild (finish start n) id do
        redirectAll back targets
        let _ ← evaluate start n body tested
      setStatus (← statusOf ending)
    | .background line body redirs =>
      setLine line
      let targets ← expandRedirs back redirs
      runBehind start n (do
        redirectAll back targets
        let _ ← evaluate start n body false)
    | .pipe isBehind commands =>
      mayFail := true
      if isBehind then
        runBehind start n (do setStatus (← runPipe start n commands none false))
      else setStatus (← runPipe start n commands none tested)
    | .switch line word cases =>
      setLine line
      let text ← expandText back { home := true } word
      setStatus (← runCases start n text cases tested)
    | .both first second =>
      let i ← evaluate start n first true
      if i = 0 ∧ (← get).skip = .none then setStatus (← evaluate start n second tested)
    | .either first second =>
      let i ← evaluate start n first true
      if i ≠ 0 ∧ (← get).skip = .none then setStatus (← evaluate start n second tested)
    | .sequence first second =>
      let _ ← evaluate start n first tested
      if (← get).skip = .none then setStatus (← evaluate start n second tested)
    | .choice test yes no =>
      let i ← evaluate start n test true
      if (← get).skip = .none then
        if i = 0 then setStatus (← evaluate start n yes tested)
        else
          match no with
          | some no => setStatus (← evaluate start n no tested)
          | none => setStatus 0
    | .define line name body =>
      modify fun s => { s with
        functions := ⟨name, line, body⟩ :: s.functions.filter fun f => f.name ≠ name }
      setStatus 0
    runTraps start n
    let s ← get
    if mayFail ∧ s.has 'e' ∧ ¬ tested ∧ s.status ≠ 0 then throw .failed
    return s.status

/-- Runs the command of the first case that matches a text. -/
def runCases (start : Starter) :
    Nat → Narrow → List (List Word × Option Command) → Bool → Sh Nat
  | 0, _, _, _ => return 0
  | _ + 1, _, [], _ => return 0
  | n + 1, text, (patterns, body) :: cases, tested => do
    let found ← patterns.anyM fun w => do
      return matchesText (← expandPattern (substitute start n) w) text
    if !found then runCases start n text cases tested
    else
      match body with
      | some c => evaluate start n c tested
      | none => return 0

/-- Runs commands of which each reads what the one before it writes. Tells the status of the last
one. -/
def runPipe (start : Starter) : Nat → List Command → Option Nat → Bool → Sh Nat
  | 0, _, _, _ => return 0
  | _ + 1, [], _, _ => return 0
  | n + 1, c :: cs, input, tested => do
    let id ← act System.newProcess
    let body : Sh Unit := do
      match input with
      | some k => readFrom k
      | none => pure ()
      let _ ← evaluate start n c tested
    if cs.isEmpty then statusOf (← inChild (finish start n) id body)
    else
      let k ← act (System.newStream [])
      let ending ← withPart (inChild (finish start n) id do
        writeToStream k
        body)
      let _ ← statusOf ending
      let next ← act (System.addOpening { channel := .stream k, reads := true })
      runPipe start n cs (some next) tested

/-- Runs something that nobody waits for. -/
def runBehind (start : Starter) : Nat → Sh Unit → Sh Unit
  | 0, _ => return ()
  | n + 1, body => do
    let id ← act System.newProcess
    let ending ← withPart (inChild (finish start n) id do
      let k ← act (System.addOpening { channel := .sink, reads := true })
      readFrom k
      body)
    let status := match ending with
      | .exited k => k
      | .killed k => k + 128
    modify fun s => { s with
      jobs := (id, status) :: s.jobs, backgroundId := some id, status := 0 }

def substitute (start : Starter) : Nat → Option Command → Sh Narrow
  | 0, _ => return []
  | _ + 1, none => return []
  | n + 1, some c => do
    let k ← act (System.newStream [])
    let id ← act System.newProcess
    let ending ← inChild (finish start n) id do
      writeToStream k
      let _ ← evaluate start n c false
    let status ← statusOf ending
    takeSignals
    modify fun s => { s with innerStatus := status }
    return System.contentOf (← act get) k

def runSimple (start : Starter) :
    Nat → List Word → List Word → List Redir → Bool → Sh Nat
  | 0, _, _, _, _ => return 0
  | n + 1, assigns, words, redirs, tested => do
    takeStep
    let back := substitute start n
    modify fun s => { s with innerStatus := 0 }
    let (fields, words) ← takeFirst back words
    let b : Beginning := { fields, words }
    let b ← if fields.isEmpty then pure b else lookAhead back 10000 b
    let rest ← expandRest back b.assigns b.words
    let fields := b.fields ++ rest
    let isExec : Bool := fields.head? = some "exec".toList && b.special = some true
    let isLocal : Bool := !fields.isEmpty && b.special ≠ some true
    let depth := (← get).redirected.length
    let frames := (← get).asides.length
    if isLocal then modify fun s => { s with asides := [] :: s.asides }
    let traceFile := (← get).proc.opening? 2
    let targets ← expandRedirs back redirs
    keepDescriptors targets
    let finish (status : Nat) : Sh Nat := do
      dropRedirections depth
      dropAsides frames
      return status
    if !(← tryRedirect back targets) then
      setStatus 2
      if b.special = some true then throw .error
      finish 2
    else
      let texts ← assignAll back isLocal (isExec && fields.length ≠ 1) assigns
      trace traceFile (texts ++ fields)
      match fields with
      | [] =>
        let status := (← get).innerStatus
        finish status
      | name :: args =>
        match ← findCommand (!b.bare) b.searchPath name with
        | .nothing fault =>
          complain (name ++ ": ".toList ++ (execSentence fault).toList)
          finish 127
        | .program path =>
          let searchPath := b.searchPath.getD (← get).searchPath
          let status ← runProgram start path searchPath name args
          finish status
        | .function f =>
          if depthOfFunctions ≤ (← get).depth then
            failWith "Maximum function recursion depth (1000) reached".toList
          let status ← withParams args (evaluate start n f.body tested)
          finish status
        | .builtin _ =>
          match ← attempt (speakingAs name (runBuiltin start n name args tested)) with
          | .ok status =>
            setStatus status
            if isExec then settleRedirections
            finish status
          | .error .error =>
            if b.special = some true then throw .error
            finish (← get).status
          | .error leave => throw leave

/-- Runs a command of the shell. -/
def runBuiltin (start : Starter) : Nat → Narrow → List Narrow → Bool → Sh Nat
  | 0, _, _, _ => return 0
  | n + 1, name, args, tested => do
    match String.ofList name with
    | "eval" =>
      match args with
      | [] => return 0
      | args => withText false (List.intercalate [' '] args) (runText start n tested 0)
    | "." =>
      match ← operandsOf args with
      | [] => return 0
      | file :: _ =>
        let path ← scriptPath file
        match ← asProc (Job.contentOf path) with
        | .error fault => failOpen false path fault
        | .ok text =>
          modify fun s => { s with speaker := some path }
          let status ← withText true text (runText start n false 0)
          modify fun s => { s with
            skip := if s.skip = .function ∨ s.skip = .functionAsIs then .none else s.skip }
          return status
    | "exec" =>
      let words ← match args with
        | ['-', '-'] :: ws => pure ws
        | ws => pure ws
      execProgram start words
    | name =>
      match simpleBuiltin? name with
      | some run => run args
      | none => return 127

/-- Runs the lines of the text that is read. Tells the status of the last one. -/
def runText (start : Starter) : Nat → Bool → Nat → Sh Nat
  | 0, _, status => return status
  | n + 1, tested, status => do
    let r := (← get).reader
    match takeLine.run r with
    | .error fault =>
      showRead r.rest fun text => ((Narrow.lines text).drop (fault.line + 1 - r.line)).flatten
      failScript fault
    | .ok (none, reader) =>
      showRead r.rest fun _ => []
      modify fun s => { s with reader }
      return status
    | .ok (some none, reader) =>
      showRead r.rest fun _ => reader.rest
      modify fun s => { s with reader }
      runText start n tested status
    | .ok (some (some c), reader) =>
      showRead r.rest fun _ => reader.rest
      modify fun s => { s with reader }
      let status ← evaluate start n c tested
      if (← get).skip ≠ .none then return status
      runText start n tested status

/-- Does what is to be done for the signals that have arrived. -/
def runTraps (start : Starter) : Nat → Sh Unit
  | 0 => return ()
  | n + 1 => do
    takeSignals
    let s ← get
    if s.skip ≠ .none then return ()
    match s.arrived with
    | [] => return ()
    | k :: arrived =>
      set { s with arrived, lastStatus := some (s.lastStatus.getD s.status) }
      match s.traps.find? fun t => t.1 = k with
      | some (_, text) =>
        let _ ← withText false text (runText start n false 0)
        if (← get).skip ≠ .function then setStatus (s.lastStatus.getD s.status)
      | none => pure ()
      modify fun t => { t with lastStatus := s.lastStatus }
      runTraps start n

/-- Ends the shell, after what is to be done at its end. -/
def finish (start : Starter) : Nat → Except Leave Unit → Sh ProcEnd
  | 0, _ => return .killed 11
  | n + 1, answer => do
    match answer with
    | .error (.gone ending) => return ending
    | answer =>
      settleStatus (match answer with
        | .error .exit => true
        | _ => false)
      dropRedirections 0
      let s ← get
      match s.traps.find? fun t => t.1 = 0 with
      | none | some (_, []) => return .exited (s.status % 256)
      | some (_, text) =>
        set { s with
          traps := s.traps.filter (fun t => t.1 ≠ 0), lastStatus := some s.status }
        match ← attempt (withText false text (runText start n false 0)) with
        | .error (.gone ending) => return ending
        | .ok _ => return .exited (s.status % 256)
        | .error leave =>
          settleStatus (leave = .exit)
          return .exited ((← get).status % 256)

end

/-! ### Starting -/

/-- How deep a script may be nested. -/
def nestingLimit : Nat := 1000000

/-- What a shell keeps in mind when it starts. -/
def startState (p : Proc) (name : Narrow) : State :=
  let given : List Variable := p.environment.filterMap fun e =>
    if Narrow.isName e.1 then some { name := e.1, value := some e.2, exported := true } else none
  let s : State := { proc := p, mainId := p.id, name, known := given }
  let put (s : State) (name : String) (value : Narrow) : State :=
    let old := (s.lookUp? name.toList).getD { name := name.toList }
    s.withVariable { old with value := some value }
  let s := put s "IFS" " \t\n".toList
  let s := put s "OPTIND" ['1']
  let s := put s "PPID" (Narrow.ofNat p.parent)
  let s := put s "PS1" "# ".toList
  let s := put s "PS2" "> ".toList
  let s := put s "PS4" "+ ".toList
  let s := if (s.lookUp? "PATH".toList).isNone then put s "PATH" usualPath else s
  let here := Surroundings.pathOfLocation p.here
  let s := s.withVariable { name := "PWD".toList, value := some here, exported := true }
  { s with directory := here }

/-- Reads the script from standard input, and runs it. -/
def runInput (start : Starter) : Sh Unit := do
  let text ← asProc (Job.takeAll 0)
  let _ ← withText true (text.toOption.getD []) (runText start nestingLimit false 0)

/-- Runs a shell with words from a command line. -/
def runWords (start : Starter) (args : List Narrow) : Sh Unit := do
  let (isCommand, words, _) ← takeSettings true (args.length + 1) args
  if isCommand then
    match words with
    | [] => failWith "-c requires an argument".toList
    | text :: words =>
      modify fun s => { s with name := words.head?.getD s.name, params := words.drop 1 }
      let _ ← withText false text (runText start nestingLimit false 0)
      if (← get).has 's' ∧ (← get).skip = .none then runInput start
  else
    match words with
    | file :: params =>
      if (← get).has 's' then
        modify fun s => { s with params := words }
        runInput start
      else
        let text ← match ← asProc (Job.contentOf file) with
          | .ok text => pure text
          | .error .isDirectory => pure []
          | .error fault => failOpen false file fault
        modify fun s => { s with name := file, params }
        let _ ← withText true text (runText start nestingLimit false 0)
    | [] =>
      modify fun s => s.setOption 's' true
      runInput start

def run (start : Starter) (name : Narrow) (args : List Narrow) : Job ProcEnd := do
  let p ← read
  let s := startState p name
  let m : Sh ProcEnd := do finish start nestingLimit (← attempt (runWords start args))
  let (answer, _) ← (m.run.run s : Act _)
  return match answer with
    | .ok ending => ending
    | .error (.gone ending) => ending
    | .error _ => .exited 2

end Shell
end CjsxConversion
