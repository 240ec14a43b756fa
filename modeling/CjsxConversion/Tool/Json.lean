import CjsxConversion.Configuration
import CjsxConversion.ConfigFault
import CjsxConversion.Flag.Json
import CjsxConversion.Json.Reader

/-!
# Tools and configurations as JSON

A mode is written as its name; a scratch file with a suffix is an object under its name. Missing
members have their usual values. Only a configuration refuses members that it does not know.
-/

namespace CjsxConversion

open Json

/-! ### Plain names -/

namespace Stage

/-- Reads a stage from its name. -/
def decoder : Decoder Stage := fun form depth d =>
  (Decoder.name (all.map name) form depth d).map fun i => all[i]?.getD .macroStrip

end Stage

namespace StageStatus

/-- Reads a status from its name. -/
def decoder : Decoder StageStatus := fun form depth d =>
  (Decoder.name (all.map name) form depth d).map fun i => all[i]?.getD .ok

end StageStatus

namespace OutputRoute

/-- The modes. -/
def all : List OutputRoute := [.stdout, .inPlace]

def name : OutputRoute → String
  | .stdout => "stdout"
  | .inPlace => "in_place"

def toJson (m : OutputRoute) : Json := .str m.name

/-- Reads a mode from its name. -/
def decoder : Decoder OutputRoute := fun form depth d =>
  (Decoder.name (all.map name) form depth d).map fun i => all[i]?.getD .stdout

end OutputRoute

namespace LaunchRoute

/-- The modes. -/
def all : List LaunchRoute := [.direct, .shell]

def name : LaunchRoute → String
  | .direct => "direct"
  | .shell => "shell"

def toJson (m : LaunchRoute) : Json := .str m.name

/-- Reads a mode from its name. -/
def decoder : Decoder LaunchRoute := fun form depth d =>
  (Decoder.name (all.map name) form depth d).map fun i => all[i]?.getD .direct

end LaunchRoute

/-! ### Input modes -/

namespace InputRoute

def names : List String := ["stdin", "temp_file"]

def toJson : InputRoute → Json
  | .stdin => .str "stdin"
  | .tempFile suffix => .obj [("temp_file", .obj [("suffix", .str suffix)])]

/-- The members of a scratch file. -/
def layout : Decoder.Record (Option String) where
  title := "struct variant InputMode::TempFile"
  start := none
  fields := [Decoder.slot "suffix" false id (fun _ v => some v) Decoder.string]

/-- Reads a scratch file. -/
def tempFileDecoder : Decoder InputRoute := fun form depth d =>
  match form, d with
  | .text, d | .inline, d@(.obj _ _) =>
    (layout.decode form depth d).map fun s => .tempFile (s.getD ToolSetup.usualSuffix)
  | .inline, d => .error (.wrongType d.describe "struct variant")

/-- Reads a mode. -/
def decoder : Decoder InputRoute :=
  Decoder.choice names
    (fun i => if i = 0 then .ok .stdin else .error (.wrongType "unit variant" "struct variant"))
    (fun i form depth d =>
      if i = 0 then (Decoder.unit form depth d).map fun _ => .stdin
      else tempFileDecoder form depth d)

end InputRoute

/-! ### Tools -/

namespace ToolSetup

/-- A tool that is being read. -/
structure Slots where
  program : Option String := none
  args : Option (List String) := none
  input : Option InputRoute := none
  output : Option OutputRoute := none
  shell : Option LaunchRoute := none
  forwardOptions : Option Bool := none

def toJson (t : ToolSetup) : Json :=
  .obj [("program", .str t.program), ("args", .ofStrings t.args), ("input", t.input.toJson),
    ("output", t.output.toJson), ("shell", t.shell.toJson),
    ("forward_options", .bool t.forwardOptions)]

/-- The members of a tool. -/
def layout : Decoder.Record Slots where
  title := "struct ToolSpec"
  start := {}
  fields := [
    Decoder.slot "program" true Slots.program (fun s v => { s with program := some v })
      Decoder.string,
    Decoder.slot "args" false Slots.args (fun s v => { s with args := some v })
      (Decoder.list Decoder.string),
    Decoder.slot "input" false Slots.input (fun s v => { s with input := some v })
      InputRoute.decoder,
    Decoder.slot "output" false Slots.output (fun s v => { s with output := some v })
      OutputRoute.decoder,
    Decoder.slot "shell" false Slots.shell (fun s v => { s with shell := some v })
      LaunchRoute.decoder,
    Decoder.slot "forward_options" false Slots.forwardOptions
      (fun s v => { s with forwardOptions := some v }) Decoder.bool]

/-- The tool of its parts, those that may be missing having their usual values. -/
def ofSlots (s : Slots) : ToolSetup where
  program := s.program.getD ""
  args := s.args.getD []
  input := s.input.getD .stdin
  output := s.output.getD .stdout
  shell := s.shell.getD .direct
  forwardOptions := s.forwardOptions.getD false

def decoder : Decoder ToolSetup := fun form depth d =>
  (layout.decode form depth d).map ofSlots

end ToolSetup

namespace Toolchain

/-- A toolchain that is being read. -/
structure Slots where
  tools : ByStage (Option ToolSetup) := .replicate none
  eslint : Option String := none

def toJson (c : Toolchain) : Json :=
  .obj (Stage.all.map (fun s => (s.name, (c.tools.get s).toJson)) ++ [("eslint", .str c.eslint)])

/-- The members of a toolchain. -/
def layout : Decoder.Record Slots where
  title := "struct Toolchain"
  start := {}
  fields :=
    Stage.all.map (fun s =>
      Decoder.slot s.name false (fun c => c.tools.get s)
        (fun (c : Slots) v => { c with tools := c.tools.set s (some v) }) ToolSetup.decoder)
    ++ [Decoder.slot "eslint" false Slots.eslint (fun c v => { c with eslint := some v })
          Decoder.string]

/-- The toolchain of its parts, those that are missing having their usual values. -/
def ofSlots (c : Slots) : Toolchain where
  tools := .ofFn fun s => (c.tools.get s).getD (usualTool s)
  eslint := c.eslint.getD usual.eslint

def decoder : Decoder Toolchain := fun form depth d =>
  (layout.decode form depth d).map ofSlots

end Toolchain

/-! ### Configurations -/

namespace Configuration

/-- A configuration that is being read. -/
structure Slots where
  options : Option Settings := none
  skipFormat : Option Bool := none
  eslintFix : Option Bool := none
  toolchain : Option Toolchain := none

def toJson (c : Configuration) : Json :=
  .obj [("options", c.options.toJson), ("skip_format", .bool c.skipFormat),
    ("eslint_fix", .bool c.eslintFix), ("toolchain", c.toolchain.toJson)]

/-- The members of a configuration. No others are allowed. -/
def layout : Decoder.Record Slots where
  title := "struct ConvertConfig"
  start := {}
  closed := true
  fields := [
    Decoder.slot "options" false Slots.options (fun c v => { c with options := some v })
      Settings.decoder,
    Decoder.slot "skip_format" false Slots.skipFormat (fun c v => { c with skipFormat := some v })
      Decoder.bool,
    Decoder.slot "eslint_fix" false Slots.eslintFix (fun c v => { c with eslintFix := some v })
      Decoder.bool,
    Decoder.slot "toolchain" false Slots.toolchain (fun c v => { c with toolchain := some v })
      Toolchain.decoder]

/-- The configuration of its parts, those that are missing having their usual values. -/
def ofSlots (c : Slots) : Configuration where
  options := c.options.getD .empty
  skipFormat := c.skipFormat.getD false
  eslintFix := c.eslintFix.getD false
  toolchain := c.toolchain.getD .usual

def decoder : Decoder Configuration := fun form depth d =>
  (layout.decode form depth d).map ofSlots

def ofText? (text : String) : Except Problem Configuration :=
  (Document.ofText text).decode decoder

/-- The configuration that the text of a file holds. -/
def ofText (origin : Path) (text : String) : Except ConfigFault Configuration :=
  match ofText? text with
  | .ok c => .ok c
  | .error problem => .error (.badFile origin problem.message)

end Configuration
end CjsxConversion
