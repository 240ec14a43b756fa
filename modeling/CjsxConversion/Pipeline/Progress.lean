import CjsxConversion.Stage

/-!
# Progress of a run

A run awaits one stage after the other until it is done or has failed. When formatting is left
out, a stage that may be skipped is passed over.

Main results:
* `advance_of_failure`: a stage that fails ends the run.
* `distance_advance`: every stage that ends brings the end of the run nearer.
-/

namespace CjsxConversion

namespace Stage

/-- The stages after a stage, in order. -/
def following : Stage → List Stage
  | .macroStrip => [.dialectConvert, .elementSyntax, .format]
  | .dialectConvert => [.elementSyntax, .format]
  | .elementSyntax => [.format]
  | .format => []

/-- Whether a stage is left out when formatting is. -/
def isLeftOut (skipFormat : Bool) (s : Stage) : Bool :=
  skipFormat && s.isOptional

end Stage

/-- Where a run is. -/
inductive Progress where
  | awaiting (s : Stage)
  | done
  | failed
  deriving DecidableEq, Repr

namespace Progress

/-- Where every run starts. -/
def start : Progress := .awaiting .macroStrip

/-- The stage that is about to run. -/
def stage? : Progress → Option Stage
  | .awaiting s => some s
  | _ => none

/-- Whether the run has ended. -/
def isFinal : Progress → Bool
  | .awaiting _ => false
  | _ => true

/-- The name of a state in events and answers. -/
def name : Progress → String
  | .awaiting s => s.name
  | .done => "done"
  | .failed => "failed"

/-- The states in order. -/
def all : List Progress :=
  Stage.all.map .awaiting ++ [.done, .failed]

/-- The first of the stages that are left, or the end. -/
def next : List Stage → Progress
  | [] => .done
  | s :: _ => .awaiting s

/-- The state after the present stage ended. -/
def advance (succeeded skipFormat : Bool) : Progress → Progress
  | .awaiting s =>
    if succeeded then next (s.following.dropWhile (Stage.isLeftOut skipFormat)) else .failed
  | p => p

/-- How many stages may still run. -/
def distance : Progress → Nat
  | .awaiting s => s.following.length + 1
  | _ => 0

/-- The stages that are passed over on the way to another state. -/
def passedUntil : Progress → Progress → List Stage
  | .awaiting s, target =>
    if target = .failed then [] else s.following.takeWhile fun t => .awaiting t ≠ target
  | _, _ => []

@[simp] theorem advance_of_failure (skip : Bool) (s : Stage) :
    advance false skip (.awaiting s) = .failed := rfl

/-- Every stage that ends brings the end of the run nearer. -/
theorem distance_advance (b skip : Bool) (s : Stage) :
    (advance b skip (.awaiting s)).distance < (Progress.awaiting s).distance := by
  cases s <;> cases b <;> cases skip <;> decide

end Progress
end CjsxConversion
