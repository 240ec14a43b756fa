import CjsxConversion.Conversion
import CjsxConversion.Proofs.FileTree.Replacement
import CjsxConversion.Proofs.Pipeline.Composition

/-!
# Conversions are all or nothing

A conversion can fail at every step until its result is in place. If it does, the files are as the
stages left them: the file that is written beside the destination is gone again. Once the result
is in place it succeeds, whatever becomes of the linter.

`afterStages` is the world that the stages leave, and `untilLinter` the conversion as far
as the linter. What the stages themselves do to files is not up to the conversion, so what is known
of the files before it is known where the stages leave them alone.

Main results:
* `untilLinter_eq_error`: until the linter, a conversion that fails leaves what the stages left.
* `untilLinter_eq_ok`: one that succeeds has replaced the destination, and no other file.
* `convert_all_or_nothing`: the two together, for the conversion as a whole.
-/

namespace CjsxConversion

open FileTree

variable {τ : Type}

/-- Two worlds agree at a location, on where relative paths start, and on the mask. -/
structure World.AgreeAt (w v : World τ) (l : Location) : Prop where
  get_eq : v.host.files.get? l = w.host.files.get? l
  here_eq : v.host.here = w.host.here
  mask_eq : v.host.mask = w.host.mask

namespace Converter

section Views

variable (c : Converter τ) (id : RunId) (r : ConversionRequest) (w : World τ)

/-- The run of a prepared request, and the world that it leaves. -/
def runOf (p : Prepared) : Run × World τ :=
  (c.pipeline r p w.host).run ⟨id, p.input, p.output⟩ p.source w

/-- The world that the stages leave. If no stage runs, it is the world before. -/
def afterStages : World τ :=
  match c.prepare r w.host with
  | .error _ => w
  | .ok p => (c.runOf id r w p).2

/-- A conversion as far as the linter: what was prepared and how it ran, or why it failed. -/
def untilLinter : Except Failure (Prepared × Run) × World τ :=
  match c.prepare r w.host with
  | .error failure => (.error failure, w)
  | .ok p =>
    let (run, v) := c.runOf id r w p
    match run.outcome with
    | .error failure => (.error (.stage failure), v)
    | .ok text =>
      match c.writeResult p.output text v with
      | (.error failure, u) => (.error failure, u)
      | (.ok (), u) => (.ok (p, run), u)

/-- The stages of a conversion leave a location alone. -/
def StagesSpare (l : Location) : Prop :=
  w.AgreeAt (c.afterStages id r w) l

end Views

variable {c : Converter τ} {id : RunId} {r : ConversionRequest} {w u v : World τ} {p : Prepared}
  {run : Run} {failure : Failure}

/-- Stages each of which leaves a location alone leave it alone together. -/
theorem stagesSpare_of_each {l : Location}
    (h : ∀ s q v, w.AgreeAt v l →
      w.AgreeAt ((c.transformers r.config.toolchain w.host).get s q v).2 l) :
    c.StagesSpare id r w l := by
  unfold StagesSpare afterStages
  have hsame : w.AgreeAt w l := ⟨rfl, rfl, rfl⟩
  cases c.prepare r w.host with
  | error failure => exact hsame
  | ok p =>
    refine (c.pipeline r p w.host).run_preserves ⟨id, p.input, p.output⟩ (P := fun v => w.AgreeAt v l)
      (fun s text v hv => ?_) p.source hsame
    have hworld := Pipeline.step_world (c.transformers r.config.toolchain w.host) p.options
      ⟨id, p.input, p.output⟩ r.config.skipFormat s text v
    rw [show c.pipeline r p w.host = Pipeline.ofTransformers _ _ _ from rfl, hworld]
    exact h s _ v hv

/-- Writing a result either fails and changes nothing, or replaces the destination. -/
theorem writeResult_cases (c : Converter τ) (output : Path) (text : String) (v : World τ) :
    (∃ failure, c.writeResult output text v = (.error failure, v)) ∨
      ∃ above name files, c.writeResult output text v =
          (.ok (), { v with host := { v.host with files } }) ∧
        v.host.files.Replaced files v.host.here v.host.mask output (Utf8.encode text) above name := by
  unfold writeResult
  cases h : v.host.files.replaceFile c.refusals v.host.here v.host.mask output
      (Utf8.encode text) with
  | mk written files =>
    cases written with
    | error fault =>
      rw [replaceFile_of_error h]
      exact .inl ⟨_, rfl⟩
    | ok _ =>
      obtain ⟨above, name, hreplaced⟩ := replaceFile_of_ok h
      exact .inr ⟨above, name, files, rfl, hreplaced⟩

theorem afterStages_of_refused (h : c.prepare r w.host = .error failure) :
    c.afterStages id r w = w := by
  simp [afterStages, h]

theorem afterStages_of_prepared (h : c.prepare r w.host = .ok p) :
    c.afterStages id r w = (c.runOf id r w p).2 := by
  simp [afterStages, h]

/-- Until the linter, a conversion that fails leaves what the stages left. -/
theorem untilLinter_eq_error (h : c.untilLinter id r w = (.error failure, u)) :
    u = c.afterStages id r w := by
  unfold untilLinter at h
  cases hprepare : c.prepare r w.host with
  | error fault =>
    rw [hprepare] at h
    cases h
    exact (afterStages_of_refused hprepare).symm
  | ok p =>
    rw [hprepare] at h
    rw [afterStages_of_prepared hprepare]
    cases hrun : c.runOf id r w p with
    | mk run v =>
      simp only [hrun] at h
      split at h
      · cases h
        rfl
      · next text _ =>
        rcases c.writeResult_cases p.output text v with
          ⟨fault, hwrite⟩ | ⟨above, name, files, hwrite, -⟩
        · rw [hwrite] at h
          cases h
          rfl
        · rw [hwrite] at h
          cases h

/-- Until the linter, a conversion that succeeds has replaced the destination, and no other
file. -/
theorem untilLinter_eq_ok (h : c.untilLinter id r w = (.ok (p, run), u)) :
    c.prepare r w.host = .ok p ∧ (c.runOf id r w p).1 = run ∧
      ∃ text above name files, run.outcome = .ok text ∧
        u = { c.afterStages id r w with host := { (c.afterStages id r w).host with files } } ∧
        (c.afterStages id r w).host.files.Replaced files (c.afterStages id r w).host.here
          (c.afterStages id r w).host.mask p.output (Utf8.encode text) above name := by
  unfold untilLinter at h
  cases hprepare : c.prepare r w.host with
  | error fault =>
    rw [hprepare] at h
    cases h
  | ok p' =>
    rw [hprepare] at h
    rw [afterStages_of_prepared hprepare]
    cases hrun : c.runOf id r w p' with
    | mk run' v =>
      simp only [hrun] at h
      split at h
      · cases h
      · next text htext =>
        rcases c.writeResult_cases p'.output text v with
          ⟨fault, hwrite⟩ | ⟨above, name, files, hwrite, hreplaced⟩
        · rw [hwrite] at h
          cases h
        · rw [hwrite] at h
          cases h
          exact ⟨rfl, by rw [hrun], text, above, name, files, htext, rfl, hreplaced⟩

/-- A conversion is what it is until the linter, and then the linter. -/
theorem convert_eq (c : Converter τ) (id : RunId) (r : ConversionRequest) (w : World τ) :
    (c.convert id r w).1.result =
        (match c.untilLinter id r w with
        | (.error failure, _) => .error failure
        | (.ok (p, run), u) => .ok ⟨p.input, p.output, run, (c.lintIf p.eslint p.output u).1⟩) ∧
      (c.convert id r w).2 =
        (match c.untilLinter id r w with
        | (.error _, u) => u
        | (.ok (p, _), u) => (c.lintIf p.eslint p.output u).2) := by
  unfold convert untilLinter
  cases c.prepare r w.host with
  | error fault => exact ⟨rfl, rfl⟩
  | ok p =>
    simp only [perform, runOf]
    cases ((c.pipeline r p w.host).run ⟨id, p.input, p.output⟩ p.source w).1.outcome with
    | error failure => exact ⟨rfl, rfl⟩
    | ok text =>
      simp only
      cases c.writeResult p.output text
          ((c.pipeline r p w.host).run ⟨id, p.input, p.output⟩ p.source w).2 with
      | mk written u =>
        cases written with
        | error failure => exact ⟨rfl, rfl⟩
        | ok _ => exact ⟨rfl, rfl⟩

/-- The conversion until the linter does not depend on how the linter is started. -/
theorem untilLinter_congr
    (start : Path → List Octets → World τ → Except IoFault Exit × World τ) :
    ({ c with startLinter := start } : Converter τ).untilLinter id r w = c.untilLinter id r w :=
  rfl

/-- A conversion fails exactly where it fails until the linter. -/
theorem convert_eq_error_iff :
    (c.convert id r w).1.result = .error failure ↔
      c.untilLinter id r w = (.error failure, (c.convert id r w).2) := by
  obtain ⟨hresult, hworld⟩ := c.convert_eq id r w
  rw [hresult, hworld]
  cases c.untilLinter id r w with
  | mk outcome u =>
    cases outcome with
    | error failure' => simp
    | ok done => simp

/-- A conversion one of whose stages fails reports the stage. -/
theorem result_of_halted {failure : StageFailure} (h : c.prepare r w.host = .ok p)
    (houtcome : (c.runOf id r w p).1.outcome = .error failure) :
    (c.convert id r w).1.result = .error (.stage failure) := by
  have hrun : (c.pipeline r p w.host).run ⟨id, p.input, p.output⟩ p.source w =
      c.runOf id r w p := rfl
  simp only [convert, h, perform, hrun, houtcome]

/-- A conversion whose stages succeed reports how writing its result went. -/
theorem result_of_passed {text : String} (h : c.prepare r w.host = .ok p)
    (houtcome : (c.runOf id r w p).1.outcome = .ok text) :
    (c.convert id r w).1.result =
      (c.writeResult p.output text (c.runOf id r w p).2).1.map fun _ =>
        ⟨p.input, p.output, (c.runOf id r w p).1,
          (c.lintIf p.eslint p.output (c.writeResult p.output text (c.runOf id r w p).2).2).1⟩ := by
  have hrun : (c.pipeline r p w.host).run ⟨id, p.input, p.output⟩ p.source w =
      c.runOf id r w p := rfl
  simp only [convert, h, perform, hrun, houtcome]
  cases c.writeResult p.output text (c.runOf id r w p).2 with
  | mk written u => cases written <;> rfl

/-- A conversion whose result is written has succeeded, and the linter comes last. -/
theorem convert_of_written {text : String} (hprepare : c.prepare r w.host = .ok p)
    (houtcome : (c.runOf id r w p).1.outcome = .ok text)
    (hwrite : c.writeResult p.output text (c.runOf id r w p).2 = (.ok (), u)) :
    c.convert id r w =
      (⟨.ok ⟨p.input, p.output, (c.runOf id r w p).1, (c.lintIf p.eslint p.output u).1⟩,
        (c.runOf id r w p).1.events⟩, (c.lintIf p.eslint p.output u).2) := by
  have hrun : (c.pipeline r p w.host).run ⟨id, p.input, p.output⟩ p.source w =
      c.runOf id r w p := rfl
  simp only [convert, hprepare, perform, hrun, houtcome, hwrite]

/-- A conversion that succeeds has written its result. -/
theorem exists_written {summary : Summary} (h : (c.convert id r w).1.result = .ok summary) :
    ∃ p text u, c.prepare r w.host = .ok p ∧ (c.runOf id r w p).1.outcome = .ok text ∧
      c.writeResult p.output text (c.runOf id r w p).2 = (.ok (), u) := by
  cases hprepare : c.prepare r w.host with
  | error failure =>
    rw [convert_of_refused c id hprepare] at h
    cases h
  | ok p =>
    cases houtcome : (c.runOf id r w p).1.outcome with
    | error failure =>
      rw [result_of_halted hprepare houtcome] at h
      cases h
    | ok text =>
      rw [result_of_passed hprepare houtcome] at h
      rcases hwrite : c.writeResult p.output text (c.runOf id r w p).2 with ⟨failure | ⟨⟩, u⟩
      · rw [hwrite] at h
        cases h
      · exact ⟨p, text, u, rfl, houtcome, hwrite⟩

/-- Where the stages leave the way to the destination alone, it is the place that the path named
before, with the permission bits that what it led to had before. -/
theorem place_and_mode_of_spared {output : Path}
    (h : ∀ l ∈ w.host.files.trailOf w.host.here output, w.AgreeAt v l) :
    v.host.files.place v.host.here output = w.host.files.place w.host.here output ∧
      (v.host.files.mode? v.host.here output).getD (newMode v.host.mask) =
        (w.host.files.mode? w.host.here output).getD (newMode w.host.mask) := by
  have hstart := h _ (here_mem_trail _)
  have hagree := fun l hl => (h l hl).get_eq
  rw [hstart.here_eq, hstart.mask_eq, place_of_agree hagree, mode?_of_agree hagree]
  exact ⟨rfl, rfl⟩

/-- A conversion is all or nothing. If it fails, all files are as the stages left them. Once
the result is in place it succeeds, however the linter is started and whatever it does; the
destination then holds the result until the linter is started, with the permission bits of what was
there before or those that the mask leaves a new file, and no other file has changed. -/
theorem convert_all_or_nothing (c : Converter τ) (id : RunId) (r : ConversionRequest)
    (w : World τ) :
    (∀ failure, (c.convert id r w).1.result = .error failure ↔
      (c.untilLinter id r w).1 = .error failure) ∧
    (∀ failure, (c.convert id r w).1.result = .error failure →
      (c.convert id r w).2 = c.afterStages id r w ∧
      ∀ l, c.StagesSpare id r w l →
        (c.convert id r w).2.host.files.get? l = w.host.files.get? l) ∧
    (∀ p run u, c.untilLinter id r w = (.ok (p, run), u) →
      (∀ start, ∃ clean,
        (({ c with startLinter := start } : Converter τ).convert id r w).1.result =
          .ok ⟨p.input, p.output, run, clean⟩) ∧
      (c.convert id r w).2 = (c.lintIf p.eslint p.output u).2 ∧
      ∃ text above name, run.outcome = .ok text ∧
        (c.afterStages id r w).host.files.Replaced u.host.files (c.afterStages id r w).host.here
          (c.afterStages id r w).host.mask p.output (Utf8.encode text) above name ∧
        ((∀ l ∈ w.host.files.trailOf w.host.here p.output, c.StagesSpare id r w l) →
          w.host.files.place w.host.here p.output = .ok (above, name) ∧
          (∃ bits, w.host.files.BitsFor w.host.here w.host.mask p.output bits ∧
            u.host.files.get? (above ++ [name]) = some (.file (Utf8.encode text) bits)) ∧
          (∀ l, l ≠ above ++ [name] → c.StagesSpare id r w l →
            u.host.files.get? l = w.host.files.get? l) ∧
          ((∀ target, w.host.files.get? (above ++ [name]) ≠ some (.link target)) →
            u.host.files.read u.host.here p.output = .ok (Utf8.encode text)))) := by
  refine ⟨fun failure => ?_, ?_, ?_⟩
  · rw [(c.convert_eq id r w).1]
    cases c.untilLinter id r w with
    | mk outcome u => cases outcome <;> simp
  · intro failure h
    have hworld := untilLinter_eq_error (convert_eq_error_iff.1 h)
    exact ⟨hworld, fun l hl => by rw [hworld, hl.get_eq]⟩
  · intro p run u h
    obtain ⟨-, -, text, above, name, files, htext, hu, hreplaced⟩ := untilLinter_eq_ok h
    refine ⟨?_, ?_, text, above, name, htext, by rw [hu]; exact hreplaced, ?_⟩
    · intro start
      have hresult := (({ c with startLinter := start } : Converter τ).convert_eq id r w).1
      rw [untilLinter_congr, h] at hresult
      exact ⟨_, hresult⟩
    · rw [(c.convert_eq id r w).2, h]
    · intro hspare
      obtain ⟨hplace, hmode⟩ := place_and_mode_of_spared hspare
      have hdest := hspare _ (place_mem_trailOf (hplace ▸ hreplaced.place_eq) hreplaced.isName)
      rw [hu]
      refine ⟨hplace ▸ hreplaced.place_eq, ?_, ?_, ?_⟩
      · refine ⟨_, bitsFor_iff.2 rfl, ?_⟩
        rw [← hmode]
        exact hreplaced.withFile.at_location
      · intro l hl hspared
        exact (hreplaced.withFile.elsewhere l hl).trans hspared.get_eq
      · intro hlink
        exact (hreplaced.read_eq fun target => hdest.get_eq ▸ hlink target).1

end Converter
end CjsxConversion
