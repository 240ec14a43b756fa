import CjsxConversion.Proofs.Text.Replacing
import CjsxConversion.Proofs.Traversal
import CjsxConversion.Tool.Setup

/-!
# When a command line can be built

The fixed arguments of a tool are filled one after the other, and the first one with a placeholder
that nothing stands for ends the building. What is built has one word for each fixed argument, and
the words of the options behind them.

Main results:
* `fill_eq_error_iff`: when an argument cannot be filled.
* `commandLine_eq_error_iff`, `commandLine_eq_ok_iff`: when a command line can be built, and what
  it is.
-/

namespace CjsxConversion
namespace ToolSetup

open Search

/-- An argument has a placeholder. -/
def Mentions (mark arg : String) : Prop := mark.toList <:+: arg.toList

instance (mark arg : String) : Decidable (Mentions mark arg) :=
  decidable_of_iff _ occursIn_iff

/-- An argument has a placeholder that nothing stands for. -/
def Unfillable (r : Request) (scratch : Option Path) (arg : String) : Prop :=
  scratch = none ∧
    (Mentions inputPlaceholder arg ∨ r.filePath = none ∧ Mentions filePlaceholder arg)

section Faults

variable (t : ToolSetup)

/-- The fault of a tool that has no scratch file to put into an argument. -/
def inputUnfilled : ToolFault :=
  .misconfigured (t.program ++ " uses " ++ inputPlaceholder ++ " but reads its input from stdin")

/-- The fault of a tool that has no file to put into an argument. -/
def fileUnfilled : ToolFault :=
  .misconfigured (t.program ++ " uses " ++ filePlaceholder ++ " but no file path is known")

/-- The fault of an argument that cannot be filled. The scratch file is asked for first. -/
def unfilled (arg : String) : ToolFault :=
  if Mentions inputPlaceholder arg then t.inputUnfilled else t.fileUnfilled

end Faults

variable {t : ToolSetup} {r : Request} {scratch : Option Path} {arg : String}
  {fault : ToolFault} {c : CommandLine}

theorem fillInput_eq (t : ToolSetup) (scratch : Option Path) (arg : String) :
    t.fillInput scratch arg =
      if Mentions inputPlaceholder arg then
        match scratch with
        | some p => .ok (replaceAll inputPlaceholder p.text arg)
        | none => .error t.inputUnfilled
      else .ok arg := by
  by_cases h : Mentions inputPlaceholder arg
  · unfold fillInput
    rw [if_pos (occursIn_iff.2 h), if_pos h]
    rfl
  · unfold fillInput
    rw [if_neg fun hin => h (occursIn_iff.1 hin), if_neg h]

theorem fillFile_eq (t : ToolSetup) (file : Option Path) (arg : String) :
    t.fillFile file arg =
      if Mentions filePlaceholder arg then
        match file with
        | some p => .ok (replaceAll filePlaceholder p.text arg)
        | none => .error t.fileUnfilled
      else .ok arg := by
  by_cases h : Mentions filePlaceholder arg
  · unfold fillFile
    rw [if_pos (occursIn_iff.2 h), if_pos h]
    rfl
  · unfold fillFile
    rw [if_neg fun hin => h (occursIn_iff.1 hin), if_neg h]

/-- Without a scratch file, an argument that does not ask for one is filled with the file. -/
theorem fill_of_no_scratch (t : ToolSetup) (r : Request) (arg : String) :
    t.fill r none arg =
      if Mentions inputPlaceholder arg then .error t.inputUnfilled
      else t.fillFile r.filePath arg := by
  rw [fill, fillInput_eq]
  split
  · rfl
  · simp [bind, Except.bind]

/-- With a scratch file, every argument can be filled. -/
theorem exists_fill_of_scratch (t : ToolSetup) (r : Request) (p : Path) (arg : String) :
    ∃ w, t.fill r (some p) arg = .ok w := by
  obtain ⟨v, hv⟩ : ∃ v, t.fillInput (some p) arg = .ok v := by
    rw [fillInput_eq]
    split <;> exact ⟨_, rfl⟩
  obtain ⟨q, hq⟩ : ∃ q, (r.filePath <|> some p) = some q := by
    cases r.filePath <;> exact ⟨_, rfl⟩
  rw [fill, hv, hq]
  simp only [bind, Except.bind, fillFile_eq]
  split <;> exact ⟨_, rfl⟩

/-- When an argument cannot be filled. -/
theorem fill_eq_error_iff :
    t.fill r scratch arg = .error fault ↔ Unfillable r scratch arg ∧ fault = t.unfilled arg := by
  cases scratch with
  | some p =>
    obtain ⟨w, hw⟩ := t.exists_fill_of_scratch r p arg
    simp [hw, Unfillable]
  | none =>
    rw [fill_of_no_scratch, fillFile_eq, unfilled, Unfillable]
    by_cases hinput : Mentions inputPlaceholder arg
    · simp [hinput, eq_comm]
    by_cases hfile : Mentions filePlaceholder arg
    · cases r.filePath <;> simp [hinput, hfile, eq_comm]
    · simp [hinput, hfile]

theorem exists_fill_iff : (∃ w, t.fill r scratch arg = .ok w) ↔ ¬ Unfillable r scratch arg := by
  cases h : t.fill r scratch arg with
  | ok w =>
    have hnot : ¬ Unfillable r scratch arg := fun hbad =>
      nomatch h.symm.trans (fill_eq_error_iff.2 ⟨hbad, rfl⟩)
    simp [hnot]
  | error fault => simp [(fill_eq_error_iff.1 h).1]

/-- A command line cannot be built exactly if an argument cannot be filled. The fault is that
of the first such argument. -/
theorem commandLine_eq_error_iff :
    t.commandLine r scratch = .error fault ↔
      ∃ before arg after, t.args = before ++ arg :: after ∧
        (∀ a ∈ before, ¬ Unfillable r scratch a) ∧ Unfillable r scratch arg ∧
        fault = t.unfilled arg := by
  have hargs : t.commandLine r scratch = .error fault ↔
      t.args.mapM (t.fill r scratch) = .error fault := by
    unfold commandLine
    cases t.args.mapM (t.fill r scratch) <;> simp [bind, Except.bind, pure, Except.pure]
  simp only [hargs, Traversal.mapM_eq_error_iff, exists_fill_iff, fill_eq_error_iff]

/-- A command line that can be built has the program, a word for each fixed argument, and the
words of the options behind them. -/
theorem commandLine_eq_ok_iff :
    t.commandLine r scratch = .ok c ↔
      c.program = t.program ∧ ∃ words,
        List.Forall₂ (fun arg w => t.fill r scratch arg = .ok w) t.args words ∧
        c.args = words ++ if t.forwardOptions then r.options.words else [] := by
  simp only [← Traversal.mapM_eq_ok_iff]
  unfold commandLine
  cases t.args.mapM (t.fill r scratch) with
  | error fault => simp [bind, Except.bind]
  | ok words =>
    obtain ⟨program, args⟩ := c
    simp only [bind, Except.bind, pure, Except.pure, Except.ok.injEq, CommandLine.mk.injEq]
    constructor
    · rintro ⟨rfl, rfl⟩
      exact ⟨rfl, words, rfl, rfl⟩
    · rintro ⟨rfl, _, rfl, rfl⟩
      exact ⟨rfl, rfl⟩

/-- An argument anywhere that cannot be filled is enough. -/
theorem exists_commandLine_error_iff :
    (∃ fault, t.commandLine r scratch = .error fault) ↔
      ∃ arg ∈ t.args, Unfillable r scratch arg := by
  constructor
  · rintro ⟨fault, h⟩
    obtain ⟨before, arg, after, hargs, -, hbad, -⟩ := commandLine_eq_error_iff.1 h
    exact ⟨arg, by simp [hargs], hbad⟩
  · rintro ⟨arg, harg, hbad⟩
    cases h : t.commandLine r scratch with
    | error fault => exact ⟨fault, rfl⟩
    | ok c =>
      obtain ⟨-, words, hwords, -⟩ := commandLine_eq_ok_iff.1 h
      obtain ⟨hlength, hall⟩ := List.forall₂_iff_get.1 hwords
      obtain ⟨i, hi, rfl⟩ := List.mem_iff_getElem.1 harg
      exact absurd hbad (exists_fill_iff.1 ⟨_, hall i hi (hlength ▸ hi)⟩)

/-- With a scratch file, every command line can be built. -/
theorem exists_commandLine_of_scratch (t : ToolSetup) (r : Request) (p : Path) :
    ∃ c, t.commandLine r (some p) = .ok c := by
  cases h : t.commandLine r (some p) with
  | ok c => exact ⟨c, rfl⟩
  | error fault =>
    obtain ⟨arg, -, hnone, -⟩ := exists_commandLine_error_iff.1 ⟨fault, h⟩
    cases hnone

/-- Where the file is known, only a scratch file can be missing. -/
theorem commandLine_eq_error_iff_of_file {q : Path} (hfile : r.filePath = some q) :
    t.commandLine r none = .error fault ↔
      (∃ arg ∈ t.args, Mentions inputPlaceholder arg) ∧ fault = t.inputUnfilled := by
  have hbad : ∀ arg, Unfillable r none arg ↔ Mentions inputPlaceholder arg := by
    simp [Unfillable, hfile]
  have hfirst : t.commandLine r none = .error fault → fault = t.inputUnfilled := by
    intro h
    obtain ⟨-, arg, -, -, -, harg, rfl⟩ := commandLine_eq_error_iff.1 h
    exact if_pos ((hbad arg).1 harg)
  have hexists : (∃ fault, t.commandLine r none = .error fault) ↔
      ∃ arg ∈ t.args, Unfillable r none arg := exists_commandLine_error_iff
  simp only [hbad] at hexists
  constructor
  · exact fun h => ⟨hexists.1 ⟨fault, h⟩, hfirst h⟩
  · rintro ⟨harg, rfl⟩
    obtain ⟨other, h⟩ := hexists.2 harg
    obtain ⟨-, arg, -, -, -, hfirstBad, rfl⟩ := commandLine_eq_error_iff.1 h
    rwa [unfilled, if_pos ((hbad arg).1 hfirstBad)] at h

end ToolSetup
end CjsxConversion
