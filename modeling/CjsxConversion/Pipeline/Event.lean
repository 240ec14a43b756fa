import CjsxConversion.Json.Value
import CjsxConversion.Path
import CjsxConversion.Stage

/-!
# Events of a run

Whoever follows a run is told when it starts and ends, and when each of its stages does.
-/

namespace CjsxConversion

/-- The mark that the events of one run share: a number of 128 bits. -/
structure RunId where
  number : BitVec 128
  deriving DecidableEq, Repr, Inhabited

namespace RunId

/-- The mark of no run. -/
def zero : RunId := ⟨0⟩

/-- Lower-case hexadecimal digits of a number, as many as asked for. -/
def hexDigits : Nat → Nat → List Char
  | 0, _ => []
  | n + 1, v => hexDigits n (v / 16) ++ [Nat.digitChar (v % 16)]

def grouped (ds : List Char) : List Char :=
  ds.take 8 ++ '-' :: (ds.drop 8).take 4 ++ '-' :: (ds.drop 12).take 4
    ++ '-' :: (ds.drop 16).take 4 ++ '-' :: ds.drop 20

/-- A mark as text. -/
def render (r : RunId) : String :=
  String.ofList (grouped (hexDigits 32 r.number.toNat))

/-- The value of a hexadecimal digit. -/
def hexValue? (c : Char) : Option Nat :=
  if c.isDigit then some (c.toNat - '0'.toNat)
  else if 'a' ≤ c ∧ c ≤ 'f' then some (c.toNat - 'a'.toNat + 10)
  else if 'A' ≤ c ∧ c ≤ 'F' then some (c.toNat - 'A'.toNat + 10)
  else none

/-- The number that hexadecimal digits spell. -/
def ofHex? (ds : List Char) : Option Nat :=
  ds.foldlM (fun n c => (hexValue? c).map (n * 16 + ·)) 0

/-- The mark that a text spells. -/
def ofText? (s : String) : Option RunId :=
  let ds := s.toList.filter (· ≠ '-')
  if ds.length = 32 then (ofHex? ds).map fun n => ⟨BitVec.ofNat 128 n⟩ else none

end RunId

/-- Something that happened in a run. -/
inductive Happening where
  | pipelineStarted (source output : Path)
  | stageStarted (stage : Stage)
  | stageCompleted (stage : Stage) (octets : Nat)
  | stageFailed (stage : Stage) (error : String)
  | stageSkipped (stage : Stage)
  | pipelineCompleted
  | pipelineFailed (stage : Stage)
  deriving DecidableEq, Repr

namespace Happening

def name : Happening → String
  | .pipelineStarted _ _ => "pipeline.started"
  | .stageStarted _ => "stage.started"
  | .stageCompleted _ _ => "stage.completed"
  | .stageFailed _ _ => "stage.failed"
  | .stageSkipped _ => "stage.skipped"
  | .pipelineCompleted => "pipeline.completed"
  | .pipelineFailed _ => "pipeline.failed"

/-- The name of what happened as it is written in a record of it. -/
def tag (h : Happening) : String :=
  h.name.map fun c => if c = '.' then '_' else c

def stage? : Happening → Option Stage
  | .stageStarted s | .stageCompleted s _ | .stageFailed s _ | .stageSkipped s
  | .pipelineFailed s => some s
  | .pipelineStarted _ _ | .pipelineCompleted => none

def details : Happening → List (String × Json)
  | .pipelineStarted source output => [("source", .str source.text), ("output", .str output.text)]
  | .stageStarted s | .stageSkipped s | .pipelineFailed s => [("stage", .str s.name)]
  | .stageCompleted s n => [("stage", .str s.name), ("bytes", .int n)]
  | .stageFailed s error => [("stage", .str s.name), ("error", .str error)]
  | .pipelineCompleted => []

end Happening

/-- An event: what happened, and in which run. -/
structure Event where
  run : RunId
  happening : Happening
  deriving DecidableEq, Repr

namespace Event

def name (e : Event) : String := e.happening.name

def stage? (e : Event) : Option Stage := e.happening.stage?

/-- An event as JSON, without times. -/
def toJson (e : Event) : Json :=
  .obj (("event", .str e.happening.tag) :: ("run_id", .str e.run.render) :: e.happening.details)

/-- The events whose name has a given beginning. -/
def withBeginning (beginning : String) (es : List Event) : List Event :=
  es.filter fun e => beginning.toList.isPrefixOf e.name.toList

end Event
end CjsxConversion
