import CjsxConversion.Pipeline.Run

/-!
# Runs along the stages

A run is a loop over states. Seen from its stages it is a recursion on those that are left: a
stage that is left out is noted and the text goes on as it is, a stage that succeeds hands its text
to the rest, and a stage that fails ends everything.

Main results:
* `loop_eq_follow`: from a state that awaits a stage, the loop does what the recursion says.
* `run_eq_follow`: a run is the recursion over all stages.
* `run_preserves`: what every step preserves of the world, the run preserves.
-/

namespace CjsxConversion
namespace Course

/-- What is kept of a run, given what is kept from the present state on. -/
def before (u : Course) (r : Run) : Run :=
  ⟨r.id, u.states.dropLast ++ r.states, u.records ++ r.records, u.events ++ r.events, r.outcome⟩

end Course

namespace Pipeline

variable {σ : Type}

/-- What is known of a run from one of its stages on. -/
def follow (p : Pipeline σ) (c : RunContext) : List Stage → String → σ → Run × σ
  | [], text, w => (⟨c.id, [.done], [], [⟨c.id, .pipelineCompleted⟩], .ok text⟩, w)
  | s :: rest, text, w =>
    if s.isLeftOut p.skipFormat then
      let (r, w) := p.follow c rest text w
      ({ r with
          records := ⟨s, .skip, none⟩ :: r.records
          events := ⟨c.id, .stageSkipped s⟩ :: r.events }, w)
    else
      match p.steps.get s c text w with
      | (.ok out, w) =>
        let (r, w) := p.follow c rest out w
        ({ r with
            states := .awaiting s :: r.states
            records := ⟨s, .ok, none⟩ :: r.records
            events := ⟨c.id, .stageStarted s⟩ :: ⟨c.id, .stageCompleted s (Utf8.size out)⟩ ::
              r.events }, w)
      | (.error failure, w) =>
        (⟨c.id, [.awaiting s, .failed], [⟨s, .fail, some failure.message⟩],
          [⟨c.id, .stageStarted s⟩, ⟨c.id, .stageFailed s failure.message⟩,
            ⟨c.id, .pipelineFailed failure.stage⟩], .error failure⟩, w)

variable (p : Pipeline σ) (c : RunContext)

@[simp] theorem follow_nil (text : String) (w : σ) :
    p.follow c [] text w =
      (⟨c.id, [.done], [], [⟨c.id, .pipelineCompleted⟩], .ok text⟩, w) := rfl

theorem follow_of_leftOut {s : Stage} (hs : s.isLeftOut p.skipFormat = true) (rest : List Stage)
    (text : String) (w : σ) :
    p.follow c (s :: rest) text w =
      ({ (p.follow c rest text w).1 with
          records := ⟨s, .skip, none⟩ :: (p.follow c rest text w).1.records
          events := ⟨c.id, .stageSkipped s⟩ :: (p.follow c rest text w).1.events },
        (p.follow c rest text w).2) := by
  simp [follow, hs]

theorem follow_of_ok {s : Stage} (hs : s.isLeftOut p.skipFormat = false) (rest : List Stage)
    {text out : String} {w v : σ} (h : p.steps.get s c text w = (.ok out, v)) :
    p.follow c (s :: rest) text w =
      ({ (p.follow c rest out v).1 with
          states := .awaiting s :: (p.follow c rest out v).1.states
          records := ⟨s, .ok, none⟩ :: (p.follow c rest out v).1.records
          events := ⟨c.id, .stageStarted s⟩ :: ⟨c.id, .stageCompleted s (Utf8.size out)⟩ ::
            (p.follow c rest out v).1.events },
        (p.follow c rest out v).2) := by
  simp [follow, hs, h]

theorem follow_of_error {s : Stage} (hs : s.isLeftOut p.skipFormat = false) (rest : List Stage)
    {text : String} {failure : StageFailure} {w v : σ}
    (h : p.steps.get s c text w = (.error failure, v)) :
    p.follow c (s :: rest) text w =
      (⟨c.id, [.awaiting s, .failed], [⟨s, .fail, some failure.message⟩],
        [⟨c.id, .stageStarted s⟩, ⟨c.id, .stageFailed s failure.message⟩,
          ⟨c.id, .pipelineFailed failure.stage⟩], .error failure⟩, v) := by
  simp [follow, hs, h]

theorem turn_of_ok {s : Stage} {u : Course} {out : String} {w v : σ}
    (h : p.steps.get s c u.text w = (.ok out, v)) :
    p.turn c s u w = (((u.begin s).accept s out).moveOn true p.skipFormat, v) := by
  simp [turn, h]

theorem turn_of_error {s : Stage} {u : Course} {failure : StageFailure} {w v : σ}
    (h : p.steps.get s c u.text w = (.error failure, v)) :
    p.turn c s u w = (((u.begin s).refuse s failure).moveOn false p.skipFormat, v) := by
  simp [turn, h]

/-- What the loop does from any state that awaits a stage is what the recursion says. -/
def LoopFollows (s : Stage) : Prop :=
  ∀ (u : Course) (w : σ), u.id = c.id → u.progress = .awaiting s → u.failure = none →
    u.states.getLast? = some (.awaiting s) →
    (p.loop c u w).1.close = u.before (p.follow c (s :: s.following) u.text w).1 ∧
      (p.loop c u w).2 = (p.follow c (s :: s.following) u.text w).2

/-- A stage that fails ends the loop as it ends the recursion, whatever stages are left. -/
theorem loop_of_error {s : Stage} (hs : s.isLeftOut p.skipFormat = false) {u : Course}
    (hid : u.id = c.id) (hp : u.progress = .awaiting s)
    (hl : u.states.getLast? = some (.awaiting s)) {failure : StageFailure} {w v : σ}
    (h : p.steps.get s c u.text w = (.error failure, v)) :
    (p.loop c u w).1.close = u.before (p.follow c (s :: s.following) u.text w).1 ∧
      (p.loop c u w).2 = (p.follow c (s :: s.following) u.text w).2 := by
  obtain ⟨visited, hv⟩ := List.getLast?_eq_some_iff.1 hl
  rw [loop_of_awaiting p c w hp, turn_of_error p c h, follow_of_error p c hs s.following h]
  rw [loop_of_final]
  · simp [Course.close, Course.before, Course.moveOn, Course.refuse, Course.begin, Course.emit,
      hid, hp, Progress.passedUntil, hv]
  · simp [Course.moveOn, Course.refuse, Course.begin, Course.emit, hp, Progress.isFinal]

/-- If the stage after a stage is not left out, the loop goes on with that one. -/
theorem loopFollows_of_next {s t : Stage} (hs : s.isLeftOut p.skipFormat = false)
    (ht : t.isLeftOut p.skipFormat = false) (hnext : s.following = t :: t.following)
    (ih : p.LoopFollows c t) : p.LoopFollows c s := by
  intro u w hid hp hf hl
  cases h : p.steps.get s c u.text w with
  | mk answer v =>
    cases answer with
    | error failure => exact p.loop_of_error c hs hid hp hl h
    | ok out =>
      obtain ⟨visited, hv⟩ := List.getLast?_eq_some_iff.1 hl
      have hmove : ((u.begin s).accept s out).moveOn true p.skipFormat =
          { (u.begin s).accept s out with
            progress := .awaiting t
            states := u.states ++ [.awaiting t] } := by
        simp [Course.moveOn, Course.accept, Course.begin, Course.emit, hp, Progress.advance, hnext,
          ht, Progress.next, Progress.passedUntil]
      have hrest := ih _ v (by rw [hmove]; exact hid)
        (show (((u.begin s).accept s out).moveOn true p.skipFormat).progress = _ by rw [hmove])
        (by rw [hmove]; exact hf) (by rw [hmove]; simp)
      rw [loop_of_awaiting p c w hp, turn_of_ok p c h, follow_of_ok p c hs s.following h, hnext,
        hrest.1, hrest.2, hmove]
      simp [Course.before, Course.accept, Course.begin, Course.emit, hid, hv]

/-- If every stage after a stage is left out, the loop passes over them and is done. -/
theorem loopFollows_of_last {s : Stage} (hs : s.isLeftOut p.skipFormat = false)
    (hlast : s.following = [] ∨ s.following = [.format] ∧ p.skipFormat = true) :
    p.LoopFollows c s := by
  intro u w hid hp hf hl
  cases h : p.steps.get s c u.text w with
  | mk answer v =>
    cases answer with
    | error failure => exact p.loop_of_error c hs hid hp hl h
    | ok out =>
      obtain ⟨visited, hv⟩ := List.getLast?_eq_some_iff.1 hl
      rw [loop_of_awaiting p c w hp, turn_of_ok p c h, follow_of_ok p c hs s.following h]
      rcases hlast with hlast | ⟨hlast, hskip⟩
      · rw [loop_of_final]
        · simp [Course.close, Course.before, Course.moveOn, Course.accept, Course.begin, Course.emit,
            hid, hp, hf, hlast, Progress.advance, Progress.next, Progress.passedUntil, hv]
        · simp [Course.moveOn, Course.accept, Course.begin, Course.emit, hp, hlast,
            Progress.advance, Progress.next, Progress.isFinal]
      · have hout : Stage.isLeftOut p.skipFormat .format = true := by
          simp [Stage.isLeftOut, Stage.isOptional, hskip]
        rw [loop_of_final]
        · simp [Course.close, Course.before, Course.moveOn, Course.accept, Course.begin,
            Course.pass, Course.emit, hid, hp, hf, hlast, hout, Progress.advance, Progress.next,
            Progress.passedUntil, follow_of_leftOut, hv]
        · simp [Course.moveOn, Course.accept, Course.begin, Course.emit, hp, hlast, hout,
            Progress.advance, Progress.next, Progress.isFinal]

/-- From a state that awaits a stage, the loop does what the recursion says. -/
theorem loop_eq_follow (s : Stage) (hs : s.isLeftOut p.skipFormat = false) :
    p.LoopFollows c s := by
  have hnever : ∀ t : Stage, t ≠ .format → t.isLeftOut p.skipFormat = false := by
    intro t ht
    cases t <;> simp_all [Stage.isLeftOut, Stage.isOptional]
  -- The stages are taken from the last one backwards, each leaning on the one after it.
  have hformat : Stage.isLeftOut p.skipFormat .format = false → p.LoopFollows c .format :=
    fun h => p.loopFollows_of_last c h (.inl rfl)
  have helement : p.LoopFollows c .elementSyntax := by
    have hs' := hnever .elementSyntax (by decide)
    cases h : p.skipFormat with
    | true => exact p.loopFollows_of_last c hs' (.inr ⟨rfl, h⟩)
    | false =>
      have hf : Stage.isLeftOut p.skipFormat .format = false := by simp [Stage.isLeftOut, h]
      exact p.loopFollows_of_next c hs' hf rfl (hformat hf)
  have hdialect : p.LoopFollows c .dialectConvert :=
    p.loopFollows_of_next c (hnever _ (by decide)) (hnever _ (by decide)) rfl helement
  cases s with
  | macroStrip => exact p.loopFollows_of_next c hs (hnever _ (by decide)) rfl hdialect
  | dialectConvert => exact hdialect
  | elementSyntax => exact helement
  | format => exact hformat hs

/-- A run is the recursion over all stages, after the event that starts it. -/
theorem run_eq_follow (source : Source) (w : σ) :
    p.run c source w =
      ({ (p.follow c Stage.all source.text w).1 with
          events := ⟨c.id, .pipelineStarted source.path c.output⟩ ::
            (p.follow c Stage.all source.text w).1.events },
        (p.follow c Stage.all source.text w).2) := by
  obtain ⟨hrun, hworld⟩ :=
    p.loop_eq_follow c .macroStrip (by simp [Stage.isLeftOut, Stage.isOptional])
      (.ofSource c source) w rfl rfl rfl rfl
  have hall : Stage.all = .macroStrip :: Stage.following .macroStrip := rfl
  rw [hall]
  refine Prod.ext ?_ hworld
  exact hrun.trans (by simp [Course.before, Course.ofSource])

/-- What every step preserves of the world is preserved along the stages. -/
theorem follow_preserves {P : σ → Prop}
    (h : ∀ s text w, P w → P (p.steps.get s c text w).2) (ss : List Stage) (text : String) {w : σ}
    (hw : P w) : P (p.follow c ss text w).2 := by
  induction ss generalizing text w with
  | nil => exact hw
  | cons s rest ih =>
    cases hs : s.isLeftOut p.skipFormat with
    | true =>
      rw [follow_of_leftOut p c hs]
      exact ih text hw
    | false =>
      have hv := h s text w hw
      cases hstep : p.steps.get s c text w with
      | mk answer v =>
        rw [hstep] at hv
        cases answer with
        | ok out =>
          rw [follow_of_ok p c hs rest hstep]
          exact ih out hv
        | error failure =>
          rw [follow_of_error p c hs rest hstep]
          exact hv

/-- What every step preserves of the world, the run preserves. -/
theorem run_preserves {P : σ → Prop} (h : ∀ s text w, P w → P (p.steps.get s c text w).2)
    (source : Source) {w : σ} (hw : P w) : P (p.run c source w).2 := by
  rw [run_eq_follow]
  exact p.follow_preserves c h Stage.all source.text hw

end Pipeline
end CjsxConversion
