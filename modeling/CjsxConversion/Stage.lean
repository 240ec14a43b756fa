/-!
# Stages

A conversion takes a source through four stages: element macros are expanded, the dialect is
converted to JavaScript, element calls are turned into element syntax, and the result is
formatted. Only the last one may be left out.
-/

namespace CjsxConversion

/-- A stage of the conversion, in the order in which they run. -/
inductive Stage where
  | macroStrip
  | dialectConvert
  | elementSyntax
  | format
  deriving DecidableEq, Repr

namespace Stage

def all : List Stage :=
  [.macroStrip, .dialectConvert, .elementSyntax, .format]

/-- The name of a stage in events and configurations. -/
def name : Stage → String
  | .macroStrip => "macro_strip"
  | .dialectConvert => "dialect_convert"
  | .elementSyntax => "ast_rewrite"
  | .format => "format"

/-- The name of a stage in messages. -/
def label : Stage → String
  | .macroStrip => "CJSX Transform"
  | .dialectConvert => "Decaffeinate"
  | .elementSyntax => "Babel"
  | .format => "Prettier"

/-- Whether a stage may be left out. -/
def isOptional : Stage → Bool
  | .format => true
  | _ => false

def index : Stage → Nat
  | .macroStrip => 0
  | .dialectConvert => 1
  | .elementSyntax => 2
  | .format => 3

end Stage

/-- How a stage ended. -/
inductive StageStatus where
  | ok
  | skip
  | fail
  deriving DecidableEq, Repr

namespace StageStatus

def all : List StageStatus := [.ok, .skip, .fail]

def name : StageStatus → String
  | .ok => "ok"
  | .skip => "skip"
  | .fail => "fail"

end StageStatus

/-- A stage that failed, with the diagnostic of its transformer. -/
structure StageFailure where
  stage : Stage
  message : String
  deriving DecidableEq, Repr

namespace StageFailure

def sentence (f : StageFailure) : String :=
  f.stage.label ++ " failed: " ++ f.message

end StageFailure
end CjsxConversion
