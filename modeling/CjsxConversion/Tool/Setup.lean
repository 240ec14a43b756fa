import CjsxConversion.Pipeline.ByStage
import CjsxConversion.Pipeline.Transformer
import CjsxConversion.Text.Quoted
import CjsxConversion.Text.Search
import CjsxConversion.Tool.Quoting

/-!
# Tools and their command lines

A tool is a program with fixed arguments, a way to hand it the text, and a place where it leaves
its result. Fixed arguments may hold placeholders for the scratch file and for the file that the
text is taken to be; options are appended as they are.
-/

namespace CjsxConversion

/-- How the text reaches the program. -/
inductive InputRoute where
  | stdin
  | tempFile (suffix : String)
  deriving DecidableEq, Repr

/-- Where the program leaves its result. -/
inductive OutputRoute where
  | stdout
  | inPlace
  deriving DecidableEq, Repr

/-- How the program is started. -/
inductive LaunchRoute where
  | direct
  | shell
  deriving DecidableEq, Repr

/-- A program with its arguments. -/
structure CommandLine where
  program : String
  args : List String
  deriving DecidableEq, Repr

namespace CommandLine

/-- The fault of a word that no shell can be given. -/
def unquotable (program word : String) : ToolFault :=
  .misconfigured
    (program ++ ": argument " ++ Quoted.quote word ++ " cannot be passed through a shell")

/-- Words as a shell reads them. -/
def renderWords (program : String) : List String → Except ToolFault (List String)
  | [] => .ok []
  | w :: ws => do
    match ShellWord.quote? w with
    | none => .error (unquotable program w)
    | some q =>
      let qs ← renderWords program ws
      return q :: qs

/-- The command line as a shell reads it. -/
def render (c : CommandLine) : Except ToolFault String :=
  (renderWords c.program (c.program :: c.args)).map (String.intercalate " ")

def display (c : CommandLine) : String :=
  match c.render with
  | .ok s => s
  | .error _ => c.program ++ " " ++ Quoted.quoteList c.args

end CommandLine

/-- A tool: a program and how to use it. The options of the stage follow the fixed arguments if they
are forwarded. -/
structure ToolSetup where
  program : String
  args : List String := []
  input : InputRoute := .stdin
  output : OutputRoute := .stdout
  shell : LaunchRoute := .direct
  forwardOptions : Bool := false
  deriving DecidableEq, Repr

namespace ToolSetup

/-- Stands for the scratch file. -/
def inputPlaceholder : String := "\x7binput\x7d"

/-- Stands for the file that the text is taken to be. -/
def filePlaceholder : String := "\x7bfilepath\x7d"

/-- The suffix of a scratch file for which no other is set. -/
def usualSuffix : String := ".tmp"

/-- Whether the tool works on a scratch file. -/
def usesScratch (t : ToolSetup) : Bool :=
  t.input ≠ .stdin || t.output = .inPlace

/-- How the name of the scratch file ends. -/
def scratchEnding (t : ToolSetup) : String :=
  match t.input with
  | .tempFile suffix => suffix
  | .stdin => usualSuffix

/-- Puts the scratch file in the place of its placeholder. -/
def fillInput (t : ToolSetup) (scratch : Option Path) (arg : String) : Except ToolFault String :=
  if Search.occursIn inputPlaceholder.toList arg.toList then
    match scratch with
    | some p => .ok (Search.replaceAll inputPlaceholder p.text arg)
    | none =>
      .error (.misconfigured
        (t.program ++ " uses " ++ inputPlaceholder ++ " but reads its input from stdin"))
  else .ok arg

/-- Puts the file that the text is taken to be in the place of its placeholder. -/
def fillFile (t : ToolSetup) (file : Option Path) (arg : String) : Except ToolFault String :=
  if Search.occursIn filePlaceholder.toList arg.toList then
    match file with
    | some p => .ok (Search.replaceAll filePlaceholder p.text arg)
    | none =>
      .error (.misconfigured
        (t.program ++ " uses " ++ filePlaceholder ++ " but no file path is known"))
  else .ok arg

/-- Fills the placeholders of an argument, first those for the scratch file. -/
def fill (t : ToolSetup) (r : Request) (scratch : Option Path) (arg : String) :
    Except ToolFault String := do
  let arg ← t.fillInput scratch arg
  t.fillFile (r.filePath <|> scratch) arg

def commandLine (t : ToolSetup) (r : Request) (scratch : Option Path) :
    Except ToolFault CommandLine := do
  let args ← t.args.mapM (t.fill r scratch)
  return ⟨t.program, args ++ if t.forwardOptions then r.options.words else []⟩

def describe (t : ToolSetup) : String :=
  (CommandLine.mk t.program t.args).display

end ToolSetup
end CjsxConversion
