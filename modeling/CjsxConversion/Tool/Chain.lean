import CjsxConversion.Tool.Setup

/-!
# Toolchains

The tools behind the four stages, and the linter that may be run on the result.
-/

namespace CjsxConversion

/-- The tools behind the stages. -/
structure Toolchain where
  tools : ByStage ToolSetup
  eslint : String
  deriving DecidableEq, Repr

namespace Toolchain

/-- The tool that a stage has where no other is set. -/
def usualTool : Stage → ToolSetup
  | .macroStrip =>
    { program := "cjsx-transform", args := [ToolSetup.inputPlaceholder],
      input := .tempFile ".cjsx" }
  | .dialectConvert => { program := "decaffeinate", forwardOptions := true }
  | .elementSyntax =>
    { program := "babel",
      args := ["--no-babelrc", "--plugins", "transform-react-createelement-to-jsx"] }
  | .format =>
    { program := "prettier", args := ["--stdin-filepath", ToolSetup.filePlaceholder],
      forwardOptions := true }

/-- The toolchain that is used where no other is set. -/
def usual : Toolchain := ⟨.ofFn usualTool, "eslint"⟩

instance : Inhabited Toolchain := ⟨usual⟩

end Toolchain
end CjsxConversion
