import CjsxConversion.IoFault
import CjsxConversion.Text.Blank

/-!
# Faults of tools

What can go wrong when a stage hands a text to its transformer. The diagnostic is what a user is
told: what the tool itself printed about the fault, if it printed anything visible.
-/

namespace CjsxConversion

/-- A transformer gave no text. -/
inductive ToolFault where
  | spawn (program : String) (fault : IoFault)
  | exited (program : String) (status : Option Int) (errors : String)
  | raised (message : String)
  | invalidOutput (program : String)
  | scratch (fault : IoFault)
  | misconfigured (reason : String)
  deriving DecidableEq, Repr

namespace ToolFault

def statusText : Option Int → String
  | some n => toString n
  | none => "unknown"

def message : ToolFault → String
  | .spawn program fault => "Failed to start " ++ program ++ ": " ++ fault.message
  | .exited program status _ => program ++ " exited with status " ++ statusText status
  | .raised text => text
  | .invalidOutput program => program ++ " produced output that is not valid UTF-8"
  | .scratch fault => "Scratch file error: " ++ fault.message
  | .misconfigured reason => reason

/-- What a user is told about a fault. -/
def diagnostic : ToolFault → String
  | .exited program status errors =>
    if Blank.allBlank errors.toList then (exited program status errors).message
    else String.ofList (Blank.trimEnd errors.toList)
  | f => f.message

end ToolFault
end CjsxConversion
