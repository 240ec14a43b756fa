import CjsxConversion.Proofs.Conversion.Atomicity

/-!
# Conversions that note what their stages are asked

What a conversion gives away of its transformers is how it ends. To say which requests they
received, they are made to note each request in the world before they answer it as they would have
done anyway.

A world is `noted` with a row of requests, and a converter is `noted` if its transformers
add to the row. The linter is started as before.

Main results:
* `run_simulates`: a pipeline whose steps do in one world what those of another do in theirs runs
  as that other one does, under its own mark.
* `convert_noted`: noting changes nothing, and what is noted is what the stages of the run ask. A
  request that is refused asks nothing.
-/

namespace CjsxConversion

/-- What is kept of the same run under another mark. -/
def Run.marked (r : Run) (id : RunId) : Run :=
  { r with id, events := r.events.map fun e => ⟨id, e.happening⟩ }

namespace Pipeline

variable {σ ρ : Type} {p : Pipeline σ} {q : Pipeline ρ} {c d : RunContext} {e : σ → ρ}

/-- Steps that do in one world what others do in theirs are followed as those are. -/
theorem follow_simulates (hskip : q.skipFormat = p.skipFormat)
    (hstep : ∀ s text w, q.steps.get s d text (e w) =
      ((p.steps.get s c text w).1, e (p.steps.get s c text w).2))
    (ss : List Stage) (text : String) (w : σ) :
    q.follow d ss text (e w) =
      ((p.follow c ss text w).1.marked d.id, e (p.follow c ss text w).2) := by
  induction ss generalizing text w with
  | nil => rfl
  | cons s rest ih =>
    cases hs : s.isLeftOut p.skipFormat with
    | true =>
      have hs' : s.isLeftOut q.skipFormat = true := by rw [hskip, hs]
      rw [follow_of_leftOut p c hs, follow_of_leftOut q d hs', ih]
      rfl
    | false =>
      have hs' : s.isLeftOut q.skipFormat = false := by rw [hskip, hs]
      have hboth := hstep s text w
      cases h : p.steps.get s c text w with
      | mk answer v =>
        rw [h] at hboth
        cases answer with
        | ok out =>
          rw [follow_of_ok p c hs rest h, follow_of_ok q d hs' rest hboth, ih]
          rfl
        | error failure =>
          rw [follow_of_error p c hs rest h, follow_of_error q d hs' rest hboth]
          rfl

/-- Steps that do in one world what others do in theirs make the same run under another mark. -/
theorem run_simulates (hskip : q.skipFormat = p.skipFormat) (houtput : d.output = c.output)
    (hstep : ∀ s text w, q.steps.get s d text (e w) =
      ((p.steps.get s c text w).1, e (p.steps.get s c text w).2)) (source : Source) (w : σ) :
    q.run d source (e w) = ((p.run c source w).1.marked d.id, e (p.run c source w).2) := by
  rw [run_eq_follow, run_eq_follow, follow_simulates hskip hstep, houtput]
  rfl

/-- A run bears the mark of its context. -/
theorem run_marked (p : Pipeline σ) (c : RunContext) (source : Source) (w : σ) :
    (p.run c source w).1.marked c.id = (p.run c source w).1 :=
  (congrArg Prod.fst (run_simulates (p := p) (q := p) (c := c) (d := c) (e := fun v => v) rfl rfl
    (fun _ _ _ => rfl) source w)).symm

end Pipeline

namespace World

variable {τ : Type}

/-- A world with a row of requests that have been made in it. -/
def noted (w : World τ) (log : List Asking) : World (τ × List Asking) :=
  ⟨w.host, w.memory, log⟩

/-- A world without the requests that have been made in it. -/
def plain (w : World (τ × List Asking)) : World τ :=
  ⟨w.host, w.memory.1⟩

@[simp] theorem noted_host (w : World τ) (log : List Asking) : (w.noted log).host = w.host := rfl

@[simp] theorem noted_log (w : World τ) (log : List Asking) : (w.noted log).memory.2 = log := rfl

@[simp] theorem plain_noted (w : World τ) (log : List Asking) : (w.noted log).plain = w := rfl

end World

namespace Pipeline

variable {τ : Type}

/-- Transformers that note in the world what they are asked. -/
def notingInWorld (t : ByStage (Transformer (World τ))) :
    ByStage (Transformer (World (τ × List Asking))) :=
  .ofFn fun s q w =>
    let (answer, v) := t.get s q w.plain
    (answer, v.noted (w.memory.2 ++ [⟨s, q⟩]))

variable (t : ByStage (Transformer (World τ))) (o : StageOptions) (c : RunContext)

/-- It does not matter whether requests are noted in the world or beside it. -/
theorem step_notingInWorld (skipFormat : Bool) (s : Stage) (text : String) (w : World τ)
    (log : List Asking) :
    (ofTransformers (notingInWorld t) o skipFormat).steps.get s c text (w.noted log) =
      (((ofTransformers (noting t) o skipFormat).steps.get s c text (w, log)).1,
        ((ofTransformers (noting t) o skipFormat).steps.get s c text (w, log)).2.1.noted
          ((ofTransformers (noting t) o skipFormat).steps.get s c text (w, log)).2.2) := by
  cases h : t.get s (asked o c text s) w with
  | mk answer v =>
    have hnote := noting_get t h log
    have hworld : (notingInWorld t).get s (asked o c text s) (w.noted log) =
        (answer, v.noted (log ++ [⟨s, asked o c text s⟩])) := by
      simp [notingInWorld, h]
    cases answer with
    | ok out => rw [step_of_ok _ o c skipFormat hnote, step_of_ok _ o c skipFormat hworld]
    | error fault =>
      rw [step_of_error _ o c skipFormat hnote, step_of_error _ o c skipFormat hworld]

/-- Noting in the world changes nothing, and what is noted is what the stages ask. -/
theorem run_notingInWorld (skipFormat : Bool) (source : Source) (w : World τ)
    (log : List Asking) :
    ∃ askings,
      (ofTransformers (notingInWorld t) o skipFormat).run c source (w.noted log) =
        (((ofTransformers t o skipFormat).run c source w).1,
          ((ofTransformers t o skipFormat).run c source w).2.noted (log ++ askings)) ∧
      Settles t o c (needed skipFormat) source.text w askings
        ((ofTransformers t o skipFormat).run c source w).2
        ((ofTransformers t o skipFormat).run c source w).1.outcome := by
  obtain ⟨askings, hnoted, hsettled⟩ := follow_noting t o c skipFormat Stage.all source.text w log
  rw [← needed_eq_filter] at hsettled
  have hsame := run_simulates (p := ofTransformers (noting t) o skipFormat)
    (q := ofTransformers (notingInWorld t) o skipFormat) (c := c) (d := c)
    (e := fun v : World τ × List Asking => v.1.noted v.2) rfl rfl
    (fun s text v => step_notingInWorld t o c skipFormat s text v.1 v.2) source (w, log)
  refine ⟨askings, ?_, ?_⟩
  · rw [hsame, run_marked, run_eq_follow, hnoted, run_eq_follow]
  · rw [run_eq_follow]
    exact hsettled

end Pipeline

namespace Converter

variable {τ : Type}

/-- A converter whose transformers note what they are asked. -/
def noted (c : Converter τ) : Converter (τ × List Asking) where
  workingDir := c.workingDir
  catalog := c.catalog
  transformers := fun tools h => Pipeline.notingInWorld (c.transformers tools h)
  refusals := c.refusals
  startLinter := fun program args w =>
    let (answer, v) := c.startLinter program args w.plain
    (answer, v.noted w.memory.2)

theorem writeResult_noted (c : Converter τ) (output : Path) (text : String) (w : World τ)
    (log : List Asking) :
    c.noted.writeResult output text (w.noted log) =
      ((c.writeResult output text w).1, (c.writeResult output text w).2.noted log) := rfl

theorem lintIf_noted (c : Converter τ) (program : Option Path) (file : Path) (w : World τ)
    (log : List Asking) :
    c.noted.lintIf program file (w.noted log) =
      ((c.lintIf program file w).1, (c.lintIf program file w).2.noted log) := by
  cases program with
  | none => rfl
  | some program =>
    have hstart : c.noted.startLinter program [Utf8.encode "--fix", file.spelling] (w.noted log) =
        ((c.startLinter program [Utf8.encode "--fix", file.spelling] w).1,
          (c.startLinter program [Utf8.encode "--fix", file.spelling] w).2.noted log) := rfl
    simp only [lintIf, lint, hstart]
    cases c.startLinter program [Utf8.encode "--fix", file.spelling] w with
    | mk answer v => cases answer <;> rfl

/-- Where the run is noted, so is the conversion: what comes after the run asks nothing. -/
theorem perform_noted (c : Converter τ) (id : RunId) (r : ConversionRequest) (p : Prepared)
    (w : World τ) (log : List Asking) {askings : List Asking}
    (hrun : (c.noted.pipeline r p w.host).run ⟨id, p.input, p.output⟩ p.source (w.noted log) =
      ((c.runOf id r w p).1, (c.runOf id r w p).2.noted (log ++ askings))) :
    c.noted.perform id r p (w.noted log) =
      ((c.perform id r p w).1, (c.perform id r p w).2.noted (log ++ askings)) := by
  have hrunOf : (c.pipeline r p w.host).run ⟨id, p.input, p.output⟩ p.source w =
      c.runOf id r w p := rfl
  simp only [perform, World.noted_host, hrun, hrunOf]
  cases (c.runOf id r w p).1.outcome with
  | error failure => rfl
  | ok text =>
    simp only [writeResult_noted]
    cases c.writeResult p.output text (c.runOf id r w p).2 with
    | mk written u =>
      cases written with
      | error failure => rfl
      | ok _ => simp only [lintIf_noted]

/-- Noting changes nothing, and what is noted is what the stages of the run ask. A request that
is refused asks nothing. -/
theorem convert_noted (c : Converter τ) (id : RunId) (r : ConversionRequest) (w : World τ)
    (log : List Asking) :
    ∃ askings,
      c.noted.convert id r (w.noted log) =
        ((c.convert id r w).1, (c.convert id r w).2.noted (log ++ askings)) ∧
      (∀ failure, c.prepare r w.host = .error failure → askings = []) ∧
      ∀ p, c.prepare r w.host = .ok p →
        Pipeline.Settles (c.transformers r.config.toolchain w.host) p.options
          ⟨id, p.input, p.output⟩ (Pipeline.needed r.config.skipFormat) p.source.text w askings
          (c.runOf id r w p).2 (c.runOf id r w p).1.outcome := by
  cases hprepare : c.prepare r w.host with
  | error failure =>
    have hnoted : c.noted.prepare r (w.noted log).host = .error failure := hprepare
    refine ⟨[], ?_, fun _ _ => rfl, fun _ h => nomatch h⟩
    rw [convert_of_refused _ id hnoted, convert_of_refused _ id hprepare, List.append_nil]
  | ok p =>
    have hnoted : c.noted.prepare r (w.noted log).host = .ok p := hprepare
    obtain ⟨askings, hrun, hsettled⟩ := Pipeline.run_notingInWorld
      (c.transformers r.config.toolchain w.host) p.options ⟨id, p.input, p.output⟩
      r.config.skipFormat p.source w log
    refine ⟨askings, ?_, fun _ h => (nomatch h), fun q h => ?_⟩
    · simp only [convert, hprepare, hnoted]
      exact c.perform_noted id r p w log hrun
    · cases h
      exact hsettled

end Converter
end CjsxConversion
