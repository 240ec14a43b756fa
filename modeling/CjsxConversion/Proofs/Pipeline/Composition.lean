import CjsxConversion.Proofs.Pipeline.Following

/-!
# Runs as compositions

A run composes its stages from left to right: each one is asked with the text that the one before
it gave, and the first fault is the fault of the whole. Transformers may answer as they like and
change their world as they like, so what they are asked, and how often, is a statement of its own.

`composed` is the composition as a program that can fail and has a state. `Passes` and
`Halts` are the same said stage by stage: every stage succeeds, or one does not. Transformers that
note what they are asked show which requests were made.

Main results:
* `Passes.unique`, `Halts.unique`, `Passes.not_halts`: what happens is determined.
* `follow_noting`: noting changes nothing, and what is noted is what the stages ask.
* `run_eq_composition`: a run is the composition of its stages.
-/

namespace CjsxConversion

/-- A request, with the stage that makes it. -/
structure Asking where
  stage : Stage
  request : Request
  deriving DecidableEq, Repr

namespace Pipeline

variable {σ : Type}

/-- What a stage asks of its transformer. Two stages forward options, and the last two see the
file that the result is written to. -/
def asked (o : StageOptions) (c : RunContext) (text : String) : Stage → Request
  | .macroStrip => ⟨text, .empty, some c.source⟩
  | .dialectConvert => ⟨text, o.dialect, some c.source⟩
  | .elementSyntax => ⟨text, .empty, some c.output⟩
  | .format => ⟨text, o.format, some c.output⟩

/-- The stages that a run goes through. -/
def needed (skipFormat : Bool) : List Stage :=
  if skipFormat then [.macroStrip, .dialectConvert, .elementSyntax]
  else [.macroStrip, .dialectConvert, .elementSyntax, .format]

/-- Transformers that note what they are asked, and otherwise answer as given ones do. -/
def noting (t : ByStage (Transformer σ)) : ByStage (Transformer (σ × List Asking)) :=
  .ofFn fun s r w => ((t.get s r w.1).1, (t.get s r w.1).2, w.2 ++ [⟨s, r⟩])

section Composed

variable (t : ByStage (Transformer σ)) (o : StageOptions) (c : RunContext)

/-- A stage as a program that can fail. -/
def ask (s : Stage) (text : String) : ExceptT StageFailure (StateM σ) String := fun w =>
  match t.get s (asked o c text s) w with
  | (.ok out, v) => (.ok out, v)
  | (.error fault, v) => (.error ⟨s, fault.diagnostic⟩, v)

/-- The stages, composed from left to right. -/
def composed (skipFormat : Bool) (text : String) : ExceptT StageFailure (StateM σ) String := do
  let expanded ← ask t o c .macroStrip text
  let converted ← ask t o c .dialectConvert expanded
  let rewritten ← ask t o c .elementSyntax converted
  if skipFormat then return rewritten
  else ask t o c .format rewritten

/-- Some stages succeed one after the other. Each is given exactly the text that the one before it
returned, and the result is what the last one returned. -/
inductive Passes : List Stage → String → σ → List Asking → String → σ → Prop
  | nil (text : String) (w : σ) : Passes [] text w [] text w
  | cons {s : Stage} {rest : List Stage} {text out result : String} {w v u : σ}
      {askings : List Asking}
      (answer : t.get s (asked o c text s) w = (.ok out, v))
      (passes : Passes rest out v askings result u) :
      Passes (s :: rest) text w (⟨s, asked o c text s⟩ :: askings) result u

/-- Some stages succeed one after the other, until one of them fails. -/
inductive Halts : List Stage → String → σ → List Asking → StageFailure → σ → Prop
  | here {s : Stage} {rest : List Stage} {text : String} {w v : σ} {fault : ToolFault}
      (answer : t.get s (asked o c text s) w = (.error fault, v)) :
      Halts (s :: rest) text w [⟨s, asked o c text s⟩] ⟨s, fault.diagnostic⟩ v
  | later {s : Stage} {rest : List Stage} {text out : String} {w v u : σ}
      {askings : List Asking} {failure : StageFailure}
      (answer : t.get s (asked o c text s) w = (.ok out, v))
      (halts : Halts rest out v askings failure u) :
      Halts (s :: rest) text w (⟨s, asked o c text s⟩ :: askings) failure u

end Composed

section Relations

variable {t : ByStage (Transformer σ)} {o : StageOptions} {c : RunContext}
  {ss : List Stage} {text result result' : String} {w u u' : σ} {askings askings' : List Asking}
  {failure failure' : StageFailure}

/-- What stages that succeed ask and return is determined. -/
theorem Passes.unique (h : Passes t o c ss text w askings result u)
    (h' : Passes t o c ss text w askings' result' u') :
    askings = askings' ∧ result = result' ∧ u = u' := by
  induction h generalizing askings' with
  | nil text w =>
    cases h'
    exact ⟨rfl, rfl, rfl⟩
  | cons answer passes ih =>
    cases h' with
    | cons answer' passes' =>
      rw [answer] at answer'
      cases answer'
      obtain ⟨ha, hr, hu⟩ := ih passes'
      exact ⟨by rw [ha], hr, hu⟩

/-- What stages ask until one of them fails is determined. -/
theorem Halts.unique (h : Halts t o c ss text w askings failure u)
    (h' : Halts t o c ss text w askings' failure' u') :
    askings = askings' ∧ failure = failure' ∧ u = u' := by
  induction h generalizing askings' with
  | here answer =>
    cases h' with
    | here answer' =>
      rw [answer] at answer'
      cases answer'
      exact ⟨rfl, rfl, rfl⟩
    | later answer' _ =>
      rw [answer] at answer'
      cases answer'
  | later answer halts ih =>
    cases h' with
    | here answer' =>
      rw [answer] at answer'
      cases answer'
    | later answer' halts' =>
      rw [answer] at answer'
      cases answer'
      obtain ⟨ha, hf, hu⟩ := ih halts'
      exact ⟨by rw [ha], hf, hu⟩

/-- Stages do not both succeed and fail. -/
theorem Passes.not_halts (h : Passes t o c ss text w askings result u) :
    ¬ Halts t o c ss text w askings' failure u' := by
  induction h generalizing askings' with
  | nil text w => exact fun h' => nomatch h'
  | cons answer passes ih =>
    intro h'
    cases h' with
    | here answer' =>
      rw [answer] at answer'
      cases answer'
    | later answer' halts' =>
      rw [answer] at answer'
      cases answer'
      exact ih halts'

/-- Stages that succeed are each asked once. -/
theorem Passes.map_stage (h : Passes t o c ss text w askings result u) :
    askings.map Asking.stage = ss := by
  induction h with
  | nil text w => rfl
  | cons answer passes ih => rw [List.map_cons, ih]

/-- Until one of them fails, stages are each asked once, and none is asked after that. -/
theorem Halts.stages_in_order (h : Halts t o c ss text w askings failure u) :
    askings.map Asking.stage <+: ss := by
  induction h with
  | here answer => exact ⟨_, rfl⟩
  | later answer halts ih => exact (List.prefix_cons_inj _).2 ih

end Relations

variable (t : ByStage (Transformer σ)) (o : StageOptions) (c : RunContext)

/-- Stages that succeed compose to a success. -/
theorem foldlM_ask_of_passes {ss : List Stage} {text result : String} {w u : σ}
    {askings : List Asking} (h : Passes t o c ss text w askings result u) :
    (ss.foldlM (fun text s => ask t o c s text) text).run w = (.ok result, u) := by
  induction h with
  | nil text w => rfl
  | @cons s rest text out result w v u askings answer passes ih =>
    have hs : ask t o c s text w = (.ok out, v) := by simp [ask, answer]
    simp only [List.foldlM_cons, ExceptT.run, bind, ExceptT.bind, ExceptT.mk, StateT.bind] at ih ⊢
    rw [hs]
    exact ih

/-- Stages one of which fails compose to its failure. -/
theorem foldlM_ask_of_halts {ss : List Stage} {text : String} {failure : StageFailure} {w u : σ}
    {askings : List Asking} (h : Halts t o c ss text w askings failure u) :
    (ss.foldlM (fun text s => ask t o c s text) text).run w = (.error failure, u) := by
  induction h with
  | @here s rest text w v fault answer =>
    have hs : ask t o c s text w = (.error ⟨s, fault.diagnostic⟩, v) := by simp [ask, answer]
    simp only [List.foldlM_cons, ExceptT.run, bind, ExceptT.bind, ExceptT.mk, StateT.bind]
    rw [hs]
    rfl
  | @later s rest text out w v u askings failure answer halts ih =>
    have hs : ask t o c s text w = (.ok out, v) := by simp [ask, answer]
    simp only [List.foldlM_cons, ExceptT.run, bind, ExceptT.bind, ExceptT.mk, StateT.bind] at ih ⊢
    rw [hs]
    exact ih

theorem composed_eq_foldlM (skipFormat : Bool) (text : String) :
    composed t o c skipFormat text =
      (needed skipFormat).foldlM (fun text s => ask t o c s text) text := by
  cases skipFormat <;> simp [composed, needed]

theorem needed_eq_filter (skipFormat : Bool) :
    needed skipFormat = Stage.all.filter fun s => !s.isLeftOut skipFormat := by
  cases skipFormat <;> decide

/-- The request of a step is what its stage asks. -/
theorem ofTransformer_eq_asked (s : Stage) (text : String) (w : σ) :
    Step.ofTransformer s (t.get s) (o.forStage s) c text w =
      match t.get s (asked o c text s) w with
      | (.ok out, v) => (.ok out, v)
      | (.error fault, v) => (.error ⟨s, fault.diagnostic⟩, v) := by
  cases s <;> rfl

/-- The pipeline of four transformers. -/
def ofTransformers (skipFormat : Bool) : Pipeline σ :=
  ⟨stepsOf t o, skipFormat⟩

theorem step_of_ok (skipFormat : Bool) {s : Stage} {text out : String} {w v : σ}
    (h : t.get s (asked o c text s) w = (.ok out, v)) :
    (ofTransformers t o skipFormat).steps.get s c text w = (.ok out, v) := by
  simp [ofTransformers, stepsOf, ofTransformer_eq_asked, h]

theorem step_of_error (skipFormat : Bool) {s : Stage} {text : String} {fault : ToolFault}
    {w v : σ} (h : t.get s (asked o c text s) w = (.error fault, v)) :
    (ofTransformers t o skipFormat).steps.get s c text w =
      (.error ⟨s, fault.diagnostic⟩, v) := by
  simp [ofTransformers, stepsOf, ofTransformer_eq_asked, h]

/-- A step answers as its transformer does, and says whose fault it is. -/
theorem step_of_answer (skipFormat : Bool) {s : Stage} {text : String}
    {answer : Except ToolFault String} {w v : σ} (h : t.get s (asked o c text s) w = (answer, v)) :
    (ofTransformers t o skipFormat).steps.get s c text w =
      (answer.mapError fun fault => ⟨s, fault.diagnostic⟩, v) := by
  cases answer with
  | ok out => exact step_of_ok t o c skipFormat h
  | error fault => exact step_of_error t o c skipFormat h

/-- A step leaves the world as its transformer leaves it. -/
theorem step_world (skipFormat : Bool) (s : Stage) (text : String) (w : σ) :
    ((ofTransformers t o skipFormat).steps.get s c text w).2 =
      (t.get s (asked o c text s) w).2 := by
  cases h : t.get s (asked o c text s) w with
  | mk answer v =>
    cases answer with
    | ok out => rw [step_of_ok t o c skipFormat h]
    | error fault => rw [step_of_error t o c skipFormat h]

theorem noting_get {s : Stage} {r : Request} {w v : σ} {answer : Except ToolFault String}
    (h : t.get s r w = (answer, v)) (log : List Asking) :
    (noting t).get s r (w, log) = (answer, v, log ++ [⟨s, r⟩]) := by
  simp [noting, h]

/-- How an outcome comes about: every stage succeeds, or one of them fails. -/
def Settles (ss : List Stage) (text : String) (w : σ) (askings : List Asking) (v : σ) :
    Except StageFailure String → Prop
  | .ok result => Passes t o c ss text w askings result v
  | .error failure => Halts t o c ss text w askings failure v

theorem settles_cons {s : Stage} {rest : List Stage} {text out : String} {w v u : σ}
    {askings : List Asking} {outcome : Except StageFailure String}
    (answer : t.get s (asked o c text s) w = (.ok out, v))
    (h : Settles t o c rest out v askings u outcome) :
    Settles t o c (s :: rest) text w (⟨s, asked o c text s⟩ :: askings) u outcome := by
  cases outcome with
  | ok result => exact Passes.cons answer h
  | error failure => exact Halts.later answer h

section Settled

variable {t o c} {ss : List Stage} {text : String} {w v : σ} {askings : List Asking}
  {outcome : Except StageFailure String}

/-- Where the outcome is settled, the stages succeed exactly if it is a result. -/
theorem Settles.passes_iff (h : Settles t o c ss text w askings v outcome) (result : String)
    (askings' : List Asking) (v' : σ) :
    Passes t o c ss text w askings' result v' ↔
      outcome = .ok result ∧ askings = askings' ∧ v = v' := by
  cases outcome with
  | ok out =>
    constructor
    · intro hpasses
      obtain ⟨ha, hr, hv⟩ := Passes.unique h hpasses
      exact ⟨by rw [hr], ha, hv⟩
    · rintro ⟨hr, rfl, rfl⟩
      cases hr
      exact h
  | error failure =>
    exact ⟨fun hpasses => absurd h hpasses.not_halts, fun heq => nomatch heq.1⟩

/-- Where the outcome is settled, a stage fails exactly if it is a failure. -/
theorem Settles.halts_iff (h : Settles t o c ss text w askings v outcome)
    (failure : StageFailure) (askings' : List Asking) (v' : σ) :
    Halts t o c ss text w askings' failure v' ↔
      outcome = .error failure ∧ askings = askings' ∧ v = v' := by
  cases outcome with
  | ok out =>
    exact ⟨fun hhalts => absurd hhalts (Passes.not_halts h), fun heq => nomatch heq.1⟩
  | error failure' =>
    constructor
    · intro hhalts
      obtain ⟨ha, hf, hv⟩ := Halts.unique h hhalts
      exact ⟨by rw [hf], ha, hv⟩
    · rintro ⟨hf, rfl, rfl⟩
      cases hf
      exact h

/-- The stages compose to the outcome that is settled. -/
theorem Settles.foldlM_ask (h : Settles t o c ss text w askings v outcome) :
    (ss.foldlM (fun text s => ask t o c s text) text).run w = (outcome, v) := by
  cases outcome with
  | ok result => exact foldlM_ask_of_passes t o c h
  | error failure => exact foldlM_ask_of_halts t o c h

/-- The stages are asked in order, each at most once. -/
theorem Settles.stages_in_order (h : Settles t o c ss text w askings v outcome) :
    askings.map Asking.stage <+: ss := by
  cases outcome with
  | ok result =>
    have hall : askings.map Asking.stage = ss := Passes.map_stage h
    exact ⟨[], by rw [hall, List.append_nil]⟩
  | error failure => exact Halts.stages_in_order h

end Settled

/-- Noting changes nothing, and what is noted is what the stages ask. -/
theorem follow_noting (skipFormat : Bool) (ss : List Stage) (text : String) (w : σ)
    (log : List Asking) :
    ∃ askings,
      (ofTransformers (noting t) o skipFormat).follow c ss text (w, log) =
        (((ofTransformers t o skipFormat).follow c ss text w).1,
          ((ofTransformers t o skipFormat).follow c ss text w).2, log ++ askings) ∧
      Settles t o c (ss.filter fun s => !s.isLeftOut skipFormat) text w askings
        ((ofTransformers t o skipFormat).follow c ss text w).2
        ((ofTransformers t o skipFormat).follow c ss text w).1.outcome := by
  induction ss generalizing text w log with
  | nil => exact ⟨[], by simp, .nil text w⟩
  | cons s rest ih =>
    cases hs : s.isLeftOut skipFormat with
    | true =>
      obtain ⟨askings, hnoted, hsettled⟩ := ih text w log
      refine ⟨askings, ?_, ?_⟩
      · rw [follow_of_leftOut _ _ hs, follow_of_leftOut _ _ hs, hnoted]
      · rw [follow_of_leftOut _ _ hs]
        simpa [hs] using hsettled
    | false =>
      cases h : t.get s (asked o c text s) w with
      | mk answer v =>
        have hnote := noting_get t h log
        have hkept : (s :: rest).filter (fun s => !s.isLeftOut skipFormat) =
            s :: rest.filter (fun s => !s.isLeftOut skipFormat) := by
          simp [hs]
        cases answer with
        | ok out =>
          obtain ⟨askings, hnoted, hsettled⟩ := ih out v (log ++ [⟨s, asked o c text s⟩])
          have hstep := step_of_ok t o c skipFormat h
          refine ⟨⟨s, asked o c text s⟩ :: askings, ?_, ?_⟩
          · rw [follow_of_ok _ _ hs _ hstep, follow_of_ok _ _ hs _ (step_of_ok _ o c _ hnote),
              hnoted]
            simp
          · rw [follow_of_ok _ _ hs _ hstep, hkept]
            exact settles_cons t o c h hsettled
        | error fault =>
          have hstep := step_of_error t o c skipFormat h
          refine ⟨[⟨s, asked o c text s⟩], ?_, ?_⟩
          · rw [follow_of_error _ _ hs _ hstep,
              follow_of_error _ _ hs _ (step_of_error _ o c _ hnote)]
          · rw [follow_of_error _ _ hs _ hstep, hkept]
            exact Halts.here h

/-- A run is the composition of its stages, from left to right. With transformers that note
what they are asked, it is the same run, and what is noted tells which requests were made: the
outcome is a result exactly if every stage that is needed succeeds, each with the text that the one
before it returned, and a failure exactly if a stage fails, whose diagnostic it has; no stage is
asked twice, and none after the failure. -/
theorem run_eq_composition (skipFormat : Bool) (source : Source) (w : σ) :
    ∃ (run : Run) (v : σ) (askings : List Asking),
      (ofTransformers t o skipFormat).run c source w = (run, v) ∧
      (ofTransformers (noting t) o skipFormat).run c source (w, []) = (run, v, askings) ∧
      (composed t o c skipFormat source.text).run w = (run.outcome, v) ∧
      (∀ result askings' v',
        Passes t o c (needed skipFormat) source.text w askings' result v' ↔
          run.outcome = .ok result ∧ askings = askings' ∧ v = v') ∧
      (∀ failure askings' v',
        Halts t o c (needed skipFormat) source.text w askings' failure v' ↔
          run.outcome = .error failure ∧ askings = askings' ∧ v = v') ∧
      askings.map Asking.stage <+: needed skipFormat ∧ (askings.map Asking.stage).Nodup := by
  obtain ⟨askings, hnoted, hsettled⟩ := follow_noting t o c skipFormat Stage.all source.text w []
  rw [← needed_eq_filter] at hsettled
  have hnodup : (needed skipFormat).Nodup := by cases skipFormat <;> decide
  have hinitial := hsettled.stages_in_order
  refine ⟨_, _, askings, run_eq_follow _ c source w, ?_, ?_, hsettled.passes_iff,
    hsettled.halts_iff, hinitial, hinitial.sublist.nodup hnodup⟩
  · rw [run_eq_follow, hnoted, List.nil_append]
  · rw [composed_eq_foldlM]
    exact hsettled.foldlM_ask

end Pipeline
end CjsxConversion
