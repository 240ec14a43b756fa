import CjsxConversion.Failure
import CjsxConversion.Pipeline.Assembly
import CjsxConversion.Pipeline.Run
import CjsxConversion.Configuration
import CjsxConversion.Tool.Invoke

/-!
# Converting a file

A conversion finds out everything that can be wrong before any stage runs, takes the source
through the pipeline, and writes the result only if every stage succeeded. The linter comes last
and cannot make a conversion fail.

The options of the dialect, those of the formatter, a destination that is the
input, a missing linter, the source, the first stage that fails, the destination.

Main results:
* `convert_of_refused`: a request that is refused changes nothing, and nothing happens.
-/

namespace CjsxConversion

/-- A machine and what else the transformers of a conversion know. -/
structure World (τ : Type) where
  host : Host
  memory : τ

/-- Starts a program on the machine of a world with arguments and without input. -/
def World.launch {τ : Type} (launcher : Launcher) (program : Path) (args : List Octets)
    (w : World τ) : Except IoFault Exit × World τ :=
  let (answer, host) := launcher program.spelling args [] w.host
  (answer, { w with host })

/-- A request to convert one file. Without an output the result goes beside the file. -/
structure ConversionRequest where
  input : Path
  output : Option Path := none
  config : Configuration := .usual

/-- What a conversion produced. Whether the linter found nothing to complain about is known only
where it was asked for. -/
structure Summary where
  input : Path
  output : Path
  run : Run
  eslintClean : Option Bool

/-- How a conversion ended, and the events of its run if there was one. -/
structure Conversion where
  result : Except Failure Summary
  events : List Event := []

/-- Converts files relative to a directory. The refusals are the steps of writing the result that
fail by themselves, and the linter is any function of the directory, its arguments and the world. -/
structure Converter (τ : Type) where
  workingDir : Path
  catalog : Catalog := .builtIn
  transformers : Toolchain → Host → ByStage (Transformer (World τ))
  refusals : FileTree.Refusals := .none
  startLinter : Path → List Octets → World τ → Except IoFault Exit × World τ

/-- What is known of a request before any stage runs. -/
structure Prepared where
  options : StageOptions
  input : Path
  output : Path
  eslint : Option Path
  source : Source

namespace Converter

variable {τ : Type}

def toolTransformers (launcher : Launcher) (workingDir : Path) (c : Toolchain) (h : Host) :
    ByStage (Transformer (World τ)) :=
  (c.transformers launcher h workingDir).map
    (.within World.host fun w host => { w with host })

/-- The flag that asks for the linter. -/
def eslintFlag : String := "--eslint-fix"

/-- Locates the linter from a directory, given what is found on the search path. -/
def linterFrom (h : Host) (search : Path → Option Path) (program : String) (start : Path) :
    Except MissingTool Path :=
  match h.programFrom search program start with
  | some p => .ok p
  | none => .error ⟨"eslint", eslintFlag⟩

def findLinter (c : Converter τ) (config : Configuration) (h : Host) :
    Except Failure (Option Path) :=
  if config.eslintFix then
    match linterFrom h h.onSearchPath? config.toolchain.eslint c.workingDir with
    | .ok p => .ok (some p)
    | .error missing => .error (.missingTool missing)
  else .ok none

def readSource (c : Converter τ) (path : Path) (h : Host) : Except Failure Source :=
  let path := c.workingDir.join path
  match h.files.readText h.here path with
  | .ok text => .ok (.place c.workingDir path text)
  | .error fault => .error (.io "read" path fault)

/-- Everything that is checked before any stage runs. -/
def prepare (c : Converter τ) (r : ConversionRequest) (h : Host) : Except Failure Prepared := do
  let options ← (StageOptions.resolve c.catalog r.config.options).mapError .config
  let input := c.workingDir.join r.input
  let output := c.workingDir.join (Destination.choose input r.output).path
  if output.same input then .error (.config (.outputIsInput input))
  let eslint ← c.findLinter r.config h
  let source ← c.readSource input h
  return { options, input, output, eslint, source }

def pipeline (c : Converter τ) (r : ConversionRequest) (p : Prepared) (h : Host) :
    Pipeline (World τ) where
  steps := Pipeline.stepsOf (c.transformers r.config.toolchain h) p.options
  skipFormat := r.config.skipFormat

/-- Runs the linter on a file, given how it is started. One that does not start has not found
the file clean. -/
def lint (start : Path → List Octets → World τ → Except IoFault Exit × World τ)
    (program file : Path) (w : World τ) : Bool × World τ :=
  match start program [Utf8.encode "--fix", file.spelling] w with
  | (.ok exit, w) => (exit.isSuccess, w)
  | (.error _, w) => (false, w)

/-- Runs the linter if it was found. -/
def lintIf (c : Converter τ) (program : Option Path) (file : Path) (w : World τ) :
    Option Bool × World τ :=
  match program with
  | none => (none, w)
  | some program =>
    let (clean, w) := lint c.startLinter program file w
    (some clean, w)

def writeResult (c : Converter τ) (output : Path) (text : String) (w : World τ) :
    Except Failure Unit × World τ :=
  let (written, files) :=
    w.host.files.replaceFile c.refusals w.host.here w.host.mask output (Utf8.encode text)
  (written.mapError (.io "write" output), { w with host := { w.host with files } })

/-- Takes a prepared request through the pipeline, and writes and lints its result. -/
def perform (c : Converter τ) (id : RunId) (r : ConversionRequest) (p : Prepared) (w : World τ) :
    Conversion × World τ :=
  let context : RunContext := ⟨id, p.input, p.output⟩
  let (run, w) := (c.pipeline r p w.host).run context p.source w
  match run.outcome with
  | .error failure => (⟨.error (.stage failure), run.events⟩, w)
  | .ok text =>
    match c.writeResult p.output text w with
    | (.error failure, w) => (⟨.error failure, run.events⟩, w)
    | (.ok (), w) =>
      let (eslintClean, w) := c.lintIf p.eslint p.output w
      (⟨.ok { input := p.input, output := p.output, run, eslintClean }, run.events⟩, w)

def convert (c : Converter τ) (id : RunId) (r : ConversionRequest) (w : World τ) :
    Conversion × World τ :=
  match c.prepare r w.host with
  | .error failure => (⟨.error failure, []⟩, w)
  | .ok p => c.perform id r p w

/-- A request that is refused changes nothing, and nothing happens. -/
theorem convert_of_refused (c : Converter τ) (id : RunId) {r : ConversionRequest} {w : World τ}
    {failure : Failure} (h : c.prepare r w.host = .error failure) :
    c.convert id r w = (⟨.error failure, []⟩, w) := by
  simp [convert, h]

end Converter
end CjsxConversion
