import CjsxConversion.Invocation
import CjsxConversion.Report
import CjsxConversion.Usage.Help

/-!
# Sessions

A session is one run of the program on a machine: it reads the arguments, converts the file, and
tells on standard output or standard error how that ended. Which programs do the work is a
parameter.
-/

namespace CjsxConversion

/-- How a run of the program ended. -/
inductive Ending where
  | informed (text : String)
  | misused (fault : UsageFault)
  | converted (input output : Path)
  | failed (failure : Failure)
  deriving DecidableEq, Repr

namespace Ending

def status : Ending → Nat
  | .informed _ | .converted _ _ => 0
  | .misused _ => UsageFault.exitStatus
  | .failed f => f.exitStatus

/-- What is written to standard output. -/
def output : Ending → String
  | .informed text => text
  | .converted input output => Report.success false input output ++ "\n"
  | _ => ""

/-- What is written to standard error. -/
def errors : Ending → String
  | .misused fault => Help.misuseText fault
  | .failed f => Report.failure false f ++ "\n"
  | _ => ""

end Ending

/-- What a session has done by others: the stages, located from a directory, and the linter. -/
structure Tooling (τ : Type) where
  transformers : Path → Toolchain → Host → ByStage (Transformer (World τ))
  startLinter : Path → List Octets → World τ → Except IoFault Exit × World τ

namespace Tooling

/-- Programs of the machine do all of it. -/
def ofLauncher {τ : Type} (launcher : Launcher) : Tooling τ where
  transformers := Converter.toolTransformers launcher
  startLinter := World.launch launcher

end Tooling

namespace Session

/-- The current directory of a machine, unless it has been removed. -/
def workingDir (h : Host) : Except IoFault Path :=
  if h.files.isDirectory h.here then .ok (.ofSegments true h.here)
  else .error OsFault.noEntry.toIoFault

variable {τ : Type}

/-- The converter of the program in a directory. -/
def converter (tools : Tooling τ) (c : Catalog) (dir : Path) : Converter τ where
  workingDir := dir
  catalog := c
  transformers := tools.transformers dir
  startLinter := tools.startLinter

/-- Does what an invocation asks for. -/
def execute (tools : Tooling τ) (c : Catalog) (id : RunId) (i : Invocation) (w : World τ) :
    Ending × World τ :=
  match workingDir w.host with
  | .error fault => (.failed (.io "resolve" (.ofString ".") fault), w)
  | .ok dir =>
    match i.request w.host with
    | .error f => (.failed f, w)
    | .ok r =>
      let (done, w) := (converter tools c dir).convert id r w
      match done.result with
      | .ok summary => (.converted i.input summary.output, w)
      | .error f => (.failed f, w)

def run (tools : Tooling τ) (c : Catalog) (id : RunId) (arguments : List Octets) (w : World τ) :
    Ending × World τ :=
  match Invocation.read c arguments with
  | .error .help => (.informed (Help.text c), w)
  | .error .version => (.informed Help.versionText, w)
  | .error (.misuse fault) => (.misused fault, w)
  | .ok i => execute tools c id i w

end Session
end CjsxConversion
