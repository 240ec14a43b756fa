import CjsxConversion.ConfigFault
import CjsxConversion.IoFault
import CjsxConversion.Stage

/-!
# Failures of a conversion

The families of failures differ in their label and in the exit status of the program: a stage or
the assembly of the stages gives 1, the configuration 2, a missing tool 3, a file 4.
-/

namespace CjsxConversion

/-- An optional tool that was asked for, by the flag that names the feature, is not there. -/
structure MissingTool where
  tool : String
  feature : String
  deriving DecidableEq, Repr

namespace MissingTool

/-- The sentence shown for a missing tool. -/
def message (m : MissingTool) : String :=
  m.tool ++ " must be present when specifying " ++ m.feature

end MissingTool

/-- Stages were put together wrongly. -/
structure AssemblyFault where
  message : String
  stages : List Stage
  deriving DecidableEq, Repr

/-- Why a conversion did not succeed. -/
inductive Failure where
  | config (fault : ConfigFault)
  | stage (failure : StageFailure)
  | missingTool (missing : MissingTool)
  | assembly (fault : AssemblyFault)
  | io (action : String) (path : Path) (fault : IoFault)
  deriving DecidableEq, Repr

namespace Failure

/-- The label that a failure is reported under. -/
def label : Failure → String
  | .config _ => "Configuration Error"
  | .stage f => f.stage.label ++ " Error"
  | .missingTool _ => "Environment Error"
  | .assembly _ => "Pipeline Error"
  | .io _ _ _ => "I/O Error"

def sentence : Failure → String
  | .config fault => fault.message
  | .stage f => f.sentence
  | .missingTool m => m.message
  | .assembly fault => fault.message
  | .io action path fault => "Could not " ++ action ++ " " ++ path.text ++ ": " ++ fault.message

/-- What is reported under the label. A stage's diagnostic is shown as it is. -/
def message : Failure → String
  | .stage f => f.message
  | f => f.sentence

def exitStatus : Failure → Nat
  | .stage _ | .assembly _ => 1
  | .config _ => 2
  | .missingTool _ => 3
  | .io _ _ _ => 4

/-- No failure is taken for a success. -/
theorem exitStatus_pos (f : Failure) : 0 < f.exitStatus := by
  cases f <;> simp [exitStatus]

end Failure
end CjsxConversion
