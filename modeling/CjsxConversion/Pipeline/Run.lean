import CjsxConversion.Pipeline.ByStage
import CjsxConversion.Pipeline.Event
import CjsxConversion.Pipeline.Options
import CjsxConversion.Pipeline.Progress
import CjsxConversion.Pipeline.Transformer
import CjsxConversion.Source

/-!
# Runs

A run takes a source through the stages in order, each stage being given exactly what the one
before it returned. The first stage that fails ends the run. What happened is kept in four ways:
as the states that were visited, as one record per stage that was reached, as events, and as the
outcome.

A run is a loop over the states of its progress. Each turn runs the stage that is
awaited, keeps what it did, and moves on; the stages that are passed over on the way are kept too.
The loop ends when no stage is awaited.

Main results:
* `Pipeline.loop_of_final`, `Pipeline.loop_of_awaiting`: a turn of the loop at a time.
-/

namespace CjsxConversion

/-- What every stage of a run may know. -/
structure RunContext where
  id : RunId
  source : Path
  output : Path
  deriving DecidableEq, Repr

namespace RunContext

/-- The file that a stage takes its text to be. -/
def pathFor (c : RunContext) : Stage → Path
  | .macroStrip | .dialectConvert => c.source
  | .elementSyntax | .format => c.output

end RunContext

abbrev Step (σ : Type) := RunContext → String → σ → Except StageFailure String × σ

namespace Step

/-- Hands the text to a transformer, and a fault on as the failure of the stage. -/
def ofTransformer {σ : Type} (s : Stage) (t : Transformer σ) (options : ResolvedFlags) : Step σ :=
  fun c text w =>
    match t { text, options, filePath := some (c.pathFor s) } w with
    | (.ok out, w) => (.ok out, w)
    | (.error fault, w) => (.error ⟨s, fault.diagnostic⟩, w)

end Step

/-- What is kept of a stage that was reached. -/
structure StageRecord where
  stage : Stage
  status : StageStatus
  error : Option String := none
  deriving DecidableEq, Repr

/-- What is kept of a run. -/
structure Run where
  id : RunId
  states : List Progress
  records : List StageRecord
  events : List Event
  outcome : Except StageFailure String

namespace Run

def lastState (r : Run) : Progress :=
  r.states.getLast?.getD .start

/-- Whether every stage succeeded. -/
def succeeded (r : Run) : Bool :=
  match r.outcome with
  | .ok _ => true
  | .error _ => false

def record? (r : Run) (s : Stage) : Option StageRecord :=
  r.records.find? fun e => e.stage = s

/-- Whether the run ended because of a stage, the last that it awaited. -/
def haltedAt (r : Run) (s : Stage) : Bool :=
  r.lastState = .failed && (r.states.filterMap Progress.stage?).getLast? = some s
    && match r.outcome with
      | .ok _ => false
      | .error failure => failure.stage = s

end Run

/-- A run that is under way: the states that were visited with the present one last, one record for
each stage that was reached, what was told to whoever follows, the text that the next stage is
given, and the failure that ended it, if there was one. -/
structure Course where
  id : RunId
  progress : Progress
  states : List Progress
  records : List StageRecord
  events : List Event
  text : String
  failure : Option StageFailure

namespace Course

/-- A run of a source before its first stage. -/
def ofSource (c : RunContext) (source : Source) : Course where
  id := c.id
  progress := .start
  states := [.start]
  records := []
  events := [⟨c.id, .pipelineStarted source.path c.output⟩]
  text := source.text
  failure := none

/-- Something happened, which is told with the mark of the run. -/
def emit (u : Course) (h : Happening) : Course :=
  { u with events := u.events ++ [⟨u.id, h⟩] }

def begin (u : Course) (s : Stage) : Course :=
  u.emit (.stageStarted s)

/-- A stage gave a text, which is handed on. -/
def accept (u : Course) (s : Stage) (out : String) : Course :=
  { u.emit (.stageCompleted s (Utf8.size out)) with
    records := u.records ++ [⟨s, .ok, none⟩]
    text := out }

/-- A stage failed. Nothing is handed on. -/
def refuse (u : Course) (s : Stage) (failure : StageFailure) : Course :=
  { u.emit (.stageFailed s failure.message) with
    records := u.records ++ [⟨s, .fail, some failure.message⟩]
    text := ""
    failure := some failure }

/-- A stage is passed over. -/
def pass (u : Course) (s : Stage) : Course :=
  { u.emit (.stageSkipped s) with records := u.records ++ [⟨s, .skip, none⟩] }

/-- Goes to the state after the present stage, and passes over what lies between. -/
def moveOn (u : Course) (succeeded skipFormat : Bool) : Course :=
  let target := u.progress.advance succeeded skipFormat
  let v := (u.progress.passedUntil target).foldl pass u
  { v with progress := target, states := u.states ++ [target] }

/-- What is kept of a run that has ended. -/
def close (u : Course) : Run :=
  match u.failure with
  | some failure =>
    ⟨u.id, u.states, u.records, (u.emit (.pipelineFailed failure.stage)).events, .error failure⟩
  | none => ⟨u.id, u.states, u.records, (u.emit .pipelineCompleted).events, .ok u.text⟩

end Course

/-- A complete pipeline. -/
structure Pipeline (σ : Type) where
  steps : ByStage (Step σ)
  skipFormat : Bool

namespace Pipeline

variable {σ : Type}

def stepsOf (transformers : ByStage (Transformer σ)) (options : StageOptions) :
    ByStage (Step σ) :=
  .ofFn fun s => .ofTransformer s (transformers.get s) (options.forStage s)

/-- Runs the stage that is awaited, and moves on. -/
def turn (p : Pipeline σ) (c : RunContext) (s : Stage) (u : Course) (w : σ) : Course × σ :=
  match p.steps.get s c u.text w with
  | (.ok out, w) => (((u.begin s).accept s out).moveOn true p.skipFormat, w)
  | (.error failure, w) => (((u.begin s).refuse s failure).moveOn false p.skipFormat, w)

theorem turn_progress (p : Pipeline σ) (c : RunContext) (s : Stage) (u : Course) (w : σ) :
    ∃ b, (p.turn c s u w).1.progress = u.progress.advance b p.skipFormat := by
  unfold turn
  split
  · exact ⟨true, rfl⟩
  · exact ⟨false, rfl⟩

/-- Takes one turn after the other until no stage is awaited. -/
def loop (p : Pipeline σ) (c : RunContext) (u : Course) (w : σ) : Course × σ :=
  match _h : u.progress with
  | .awaiting s => p.loop c (p.turn c s u w).1 (p.turn c s u w).2
  | _ => (u, w)
termination_by u.progress.distance
decreasing_by
  obtain ⟨b, hb⟩ := p.turn_progress c s u w
  rw [hb, _h]
  exact Progress.distance_advance b p.skipFormat s

/-- Takes a source through every stage. -/
def run (p : Pipeline σ) (c : RunContext) (source : Source) (w : σ) : Run × σ :=
  let (u, w) := p.loop c (.ofSource c source) w
  (u.close, w)

/-- A run that has ended is left as it is. -/
theorem loop_of_final (p : Pipeline σ) (c : RunContext) {u : Course} (w : σ)
    (h : u.progress.isFinal = true) : p.loop c u w = (u, w) := by
  unfold loop
  split
  · next hs => simp [hs, Progress.isFinal] at h
  · rfl

/-- A run that awaits a stage takes a turn, and goes on from there. -/
theorem loop_of_awaiting (p : Pipeline σ) (c : RunContext) {u : Course} (w : σ) {s : Stage}
    (h : u.progress = .awaiting s) :
    p.loop c u w = p.loop c (p.turn c s u w).1 (p.turn c s u w).2 := by
  rw [loop]
  split
  · next t ht =>
    rw [h] at ht
    cases ht
    rfl
  · next hn => exact absurd h (hn s)

end Pipeline
end CjsxConversion
