import CjsxConversion.Host.Locate
import CjsxConversion.Tool.Chain

/-!
# Tools as transformers

How a tool is given a text and where its result comes from. What a tool needs of the world is a
workbench: scratch files and a way to start programs. What a program does is a parameter.

A scratch file is made if the tool works on one, and removed in the end, whatever
happens. The result counts only if the program says that it succeeded.

Main results:
* `collect_of_failure`: a program that fails gives no text, whatever it wrote.
-/

namespace CjsxConversion

/-- What a tool needs of the world: a scratch file is made with a suffix and a content, and a
program is started with arguments and standard input and waited for. -/
structure Workbench (σ : Type) where
  create : String → Octets → σ → Except IoFault Path × σ
  launch : String → List String → Octets → σ → Except IoFault Exit × σ
  recover : Path → σ → Except IoFault Octets
  discard : Path → σ → σ

/-- What becomes of a machine when a program is started on it with arguments and standard input, and
waited for. -/
abbrev Launcher := Octets → List Octets → Octets → Host → Except IoFault Exit × Host

namespace Host

/-- What the names of scratch files begin with. -/
def scratchBeginning : Octets := Utf8.encode "cjsx-to-jsx-"

def makeScratch (suffix : String) (content : Octets) (h : Host) : Except IoFault Path × Host :=
  let p := h.files.freePath h.here h.scratch scratchBeginning (Utf8.encode suffix)
  match h.files.createNew h.here p (FileTree.masked h.mask 0o600) with
  | .error fault => (.error fault, h)
  | .ok (l, files) => (.ok p, { h with files := files.fill l content })

/-- Removes a scratch file, if it is still there. -/
def discardScratch (p : Path) (h : Host) : Host :=
  match h.files.unlink h.here p with
  | .ok files => { h with files }
  | .error _ => h

/-- A machine as a workbench, given what becomes of it when programs are started. -/
def workbench (launcher : Launcher) : Workbench Host where
  create := makeScratch
  launch := fun program args input h =>
    launcher (Utf8.encode program) (args.map Utf8.encode) input h
  recover := fun p h => h.files.read h.here p
  discard := discardScratch

end Host

namespace ToolSetup

variable {σ : Type}

/-- The program that is started for a command line, and its arguments. -/
def startWords (t : ToolSetup) (c : CommandLine) : Except ToolFault (String × List String) :=
  match t.shell with
  | .direct => .ok (c.program, c.args)
  | .shell => c.render.map fun script => ("sh", ["-c", script])

/-- What the program reads from standard input. -/
def standardInput (t : ToolSetup) (r : Request) : Octets :=
  if t.input = .stdin then Utf8.encode r.text else []

def resultOctets (t : ToolSetup) (b : Workbench σ) (scratch : Option Path) (exit : Exit) (w : σ) :
    Except ToolFault Octets :=
  match t.output, scratch with
  | .stdout, _ => .ok exit.output
  | .inPlace, some p => (b.recover p w).mapError .scratch
  | .inPlace, none =>
    .error (.misconfigured (t.program ++ " writes in place but no scratch file exists"))

def notText (t : ToolSetup) : ToolFault :=
  match t.output with
  | .stdout => .invalidOutput t.program
  | .inPlace => .scratch .notText

/-- The result of a program that has ended. -/
def collect (t : ToolSetup) (b : Workbench σ) (scratch : Option Path) (exit : Exit) (w : σ) :
    Except ToolFault String :=
  if exit.isSuccess then do
    let octets ← t.resultOctets b scratch exit w
    match Utf8.decode? octets with
    | some text => .ok text
    | none => .error t.notText
  else .error (.exited t.program (exit.status.map Int.ofNat) (Utf8.decodeLossy exit.errors))

/-- Runs the program, given the scratch file if the tool works on one. -/
def perform (t : ToolSetup) (b : Workbench σ) (scratch : Option Path) : Transformer σ := fun r w =>
  match t.commandLine r scratch >>= t.startWords with
  | .error fault => (.error fault, w)
  | .ok (program, args) =>
    match b.launch program args (t.standardInput r) w with
    | (.error fault, w) => (.error (.spawn t.program fault), w)
    | (.ok exit, w) => (t.collect b scratch exit w, w)

def invoke (t : ToolSetup) (b : Workbench σ) : Transformer σ := fun r w =>
  if t.usesScratch then
    match b.create t.scratchEnding (Utf8.encode r.text) w with
    | (.error fault, w) => (.error (.scratch fault), w)
    | (.ok p, w) =>
      let (answer, w) := t.perform b (some p) r w
      (answer, b.discard p w)
  else t.perform b none r w

/-- The tool with its program located from a directory. -/
def located (t : ToolSetup) (h : Host) (start : Path) : ToolSetup :=
  { t with program := h.programWord t.program start }

theorem collect_of_failure (t : ToolSetup) (b : Workbench σ) (scratch : Option Path) (exit : Exit)
    (w : σ) (h : exit.isSuccess = false) :
    t.collect b scratch exit w
      = .error (.exited t.program (exit.status.map Int.ofNat) (Utf8.decodeLossy exit.errors)) := by
  simp [collect, h]

end ToolSetup

namespace Toolchain

/-- The tools of a chain as transformers, their programs located from a directory. -/
def transformers (c : Toolchain) (launcher : Launcher) (h : Host) (start : Path) :
    ByStage (Transformer Host) :=
  c.tools.map fun t => (t.located h start).invoke (Host.workbench launcher)

end Toolchain
end CjsxConversion
