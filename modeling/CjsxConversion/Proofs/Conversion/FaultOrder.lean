import CjsxConversion.Proofs.Conversion.Noting
import CjsxConversion.Proofs.Conversion.SourceSafety
import CjsxConversion.Session

/-!
# The order of faults

Several things can be wrong with a request at once. What is reported is the first of them in a fixed
order, and the exit status of the program is that of what is reported.

`Check` lists what can go wrong, and `Fails` says of each check by itself what it means
that it fails: it does not ask how the others do. Only where a check needs what others find out, as
the stages need options and a source, is that part of it. `FirstFault` is the first failure along
a row of checks.

Main results:
* `prepare_cases`, `late_cases`: what is checked before the stages run, and from then on.
* `convert_eq_error_iff_first`, `convert_eq_ok_iff_clear`: a conversion fails with the first fault,
  and succeeds if there is none.
* `convert_of_early`: where one of the early checks fails, nothing happens.
* `faults_in_order`: all of this, also for the program and its exit status.
-/

namespace CjsxConversion

/-- Something that can go wrong with a request. -/
inductive Check where
  | dialect
  | format
  | destinationDiffers
  | linter
  | source
  | stages
  | destination
  deriving DecidableEq, Repr

namespace Check

/-- What is checked before any stage runs, in order. -/
def early : List Check := [.dialect, .format, .destinationDiffers, .linter, .source]

/-- What is checked from then on, in order. -/
def late : List Check := [.stages, .destination]

/-- Everything that is checked, in order. -/
def order : List Check := early ++ late

/-- The exit status of the program where a check fails. -/
def exitStatus : Check → Nat
  | .dialect | .format | .destinationDiffers => 2
  | .linter => 3
  | .source => 4
  | .stages => 1
  | .destination => 4

end Check

namespace Converter

variable {τ : Type}

section Views

variable (c : Converter τ) (id : RunId) (r : ConversionRequest) (w : World τ)

/-- What the stages of a run of the request are told. -/
def contextOf : RunContext := ⟨id, c.inputOf r, c.outputOf r⟩

/-- What is looked for before any stage runs, the options apart: the linter and the source. -/
def prepareRest : Except Failure (Option Path × Source) :=
  if (c.outputOf r).same (c.inputOf r) then .error (.config (.outputIsInput (c.inputOf r)))
  else do
    let eslint ← c.findLinter r.config w.host
    let source ← c.readSource (c.inputOf r) w.host
    return (eslint, source)

/-- A check fails by itself, whatever becomes of the others. -/
inductive Fails : Check → Failure → Prop
  | dialect {fault : ConfigFault}
      (unfit : c.catalog.dialect.resolve r.config.options = .error fault) :
      Fails .dialect (.config fault)
  | format {fault : ConfigFault}
      (unfit : c.catalog.format.resolve r.config.options = .error fault) :
      Fails .format (.config fault)
  | destinationDiffers (same : (c.outputOf r).same (c.inputOf r) = true) :
      Fails .destinationDiffers (.config (.outputIsInput (c.inputOf r)))
  | linter (asked : r.config.eslintFix = true)
      (missing : w.host.program? r.config.toolchain.eslint c.workingDir = none) :
      Fails .linter (.missingTool ⟨"eslint", eslintFlag⟩)
  | source {fault : IoFault}
      (unread : w.host.files.readText w.host.here (c.inputOf r) = .error fault) :
      Fails .source (.io "read" (c.inputOf r) fault)
  | stages {o : StageOptions} {text : String} {askings : List Asking} {failure : StageFailure}
      {v : World τ} (resolved : StageOptions.resolve c.catalog r.config.options = .ok o)
      (read : w.host.files.readText w.host.here (c.inputOf r) = .ok text)
      (halts : Pipeline.Halts (c.transformers r.config.toolchain w.host) o (c.contextOf id r)
        (Pipeline.needed r.config.skipFormat) text w askings failure v) :
      Fails .stages (.stage failure)
  | destination {o : StageOptions} {text result : String} {askings : List Asking} {v : World τ}
      {fault : IoFault} (resolved : StageOptions.resolve c.catalog r.config.options = .ok o)
      (read : w.host.files.readText w.host.here (c.inputOf r) = .ok text)
      (passes : Pipeline.Passes (c.transformers r.config.toolchain w.host) o (c.contextOf id r)
        (Pipeline.needed r.config.skipFormat) text w askings result v)
      (unwritten : (v.host.files.replaceFile c.refusals v.host.here v.host.mask (c.outputOf r)
        (Utf8.encode result)).1 = .error fault) :
      Fails .destination (.io "write" (c.outputOf r) fault)

/-- Nothing is wrong as far as a check goes. -/
def Clear (k : Check) : Prop := ∀ f, ¬ c.Fails id r w k f

/-- The first check of a row that fails, and how. -/
inductive FirstFault : List Check → Check → Failure → Prop
  | here {k : Check} {ks : List Check} {f : Failure} (fails : c.Fails id r w k f) :
      FirstFault (k :: ks) k f
  | later {k k' : Check} {ks : List Check} {f : Failure} (clear : c.Clear id r w k)
      (first : FirstFault ks k' f) : FirstFault (k :: ks) k' f

end Views

variable {c : Converter τ} {id : RunId} {r : ConversionRequest} {w : World τ} {k k' : Check}
  {ks ks' : List Check} {f f' : Failure} {p : Prepared}

/-- How a check fails is determined. -/
theorem Fails.unique (h : c.Fails id r w k f) (h' : c.Fails id r w k f') : f = f' := by
  cases h with
  | dialect unfit =>
    cases h' with
    | dialect unfit' =>
      rw [unfit] at unfit'
      cases unfit'
      rfl
  | format unfit =>
    cases h' with
    | format unfit' =>
      rw [unfit] at unfit'
      cases unfit'
      rfl
  | destinationDiffers same =>
    cases h' with
    | destinationDiffers same' => rfl
  | linter asked missing =>
    cases h' with
    | linter asked' missing' => rfl
  | source unread =>
    cases h' with
    | source unread' =>
      rw [unread] at unread'
      cases unread'
      rfl
  | stages resolved read halts =>
    cases h' with
    | stages resolved' read' halts' =>
      rw [resolved] at resolved'
      cases resolved'
      rw [read] at read'
      cases read'
      obtain ⟨-, rfl, -⟩ := halts.unique halts'
      rfl
  | destination resolved read passes unwritten =>
    cases h' with
    | destination resolved' read' passes' unwritten' =>
      rw [resolved] at resolved'
      cases resolved'
      rw [read] at read'
      cases read'
      obtain ⟨-, rfl, rfl⟩ := passes.unique passes'
      rw [unwritten] at unwritten'
      cases unwritten'
      rfl

/-- The exit status of a failure is that of its check. -/
theorem Fails.exitStatus_eq (h : c.Fails id r w k f) : f.exitStatus = k.exitStatus := by
  cases h <;> rfl

/-- The first fault of a row is determined. -/
theorem FirstFault.unique (h : c.FirstFault id r w ks k f) (h' : c.FirstFault id r w ks k' f') :
    k = k' ∧ f = f' := by
  induction h with
  | here fails =>
    cases h' with
    | here fails' => exact ⟨rfl, fails.unique fails'⟩
    | later clear first => exact absurd fails (clear _)
  | later clear first ih =>
    cases h' with
    | here fails' => exact absurd fails' (clear _)
    | later clear' first' => exact ih first'

theorem FirstFault.fails (h : c.FirstFault id r w ks k f) : c.Fails id r w k f ∧ k ∈ ks := by
  induction h with
  | here fails => exact ⟨fails, List.mem_cons_self⟩
  | later clear first ih => exact ⟨ih.1, List.mem_cons_of_mem _ ih.2⟩

/-- What is first in a row is first in a longer one. -/
theorem FirstFault.append (h : c.FirstFault id r w ks k f) (ks' : List Check) :
    c.FirstFault id r w (ks ++ ks') k f := by
  induction h with
  | here fails => exact .here fails
  | later clear first ih => exact .later clear ih

/-- Where a row is clear, what comes first is in the row behind it. -/
theorem FirstFault.after (h : c.FirstFault id r w ks' k f) (hclear : ∀ k ∈ ks, c.Clear id r w k) :
    c.FirstFault id r w (ks ++ ks') k f := by
  induction ks with
  | nil => exact h
  | cons k' ks ih =>
    exact .later (hclear k' List.mem_cons_self)
      (ih fun k hk => hclear k (List.mem_cons_of_mem k' hk))

/-! ### What is checked before the stages run -/

theorem clear_dialect {o : ResolvedFlags}
    (h : c.catalog.dialect.resolve r.config.options = .ok o) : c.Clear id r w .dialect
  | _, .dialect unfit => nomatch h.symm.trans unfit

theorem clear_format {o : ResolvedFlags}
    (h : c.catalog.format.resolve r.config.options = .ok o) : c.Clear id r w .format
  | _, .format unfit => nomatch h.symm.trans unfit

theorem clear_destinationDiffers (h : ¬ (c.outputOf r).same (c.inputOf r) = true) :
    c.Clear id r w .destinationDiffers
  | _, .destinationDiffers same => h same

theorem clear_source {text : String}
    (h : w.host.files.readText w.host.here (c.inputOf r) = .ok text) : c.Clear id r w .source
  | _, .source unread => nomatch h.symm.trans unread

/-- The options of the dialect are checked, and then those of the formatter. -/
theorem resolve_cases (c : Converter τ) (id : RunId) (r : ConversionRequest) (w : World τ) :
    (∃ k fault, c.FirstFault id r w [.dialect, .format] k (.config fault) ∧
        StageOptions.resolve c.catalog r.config.options = .error fault) ∨
      (∃ o, StageOptions.resolve c.catalog r.config.options = .ok o) ∧
        ∀ k ∈ [Check.dialect, Check.format], c.Clear id r w k := by
  unfold StageOptions.resolve
  cases hdialect : c.catalog.dialect.resolve r.config.options with
  | error fault => exact .inl ⟨.dialect, fault, .here (.dialect hdialect), rfl⟩
  | ok dialect =>
    cases hformat : c.catalog.format.resolve r.config.options with
    | error fault =>
      exact .inl ⟨.format, fault, .later (clear_dialect hdialect) (.here (.format hformat)), rfl⟩
    | ok format =>
      refine .inr ⟨⟨⟨dialect, format⟩, rfl⟩, ?_⟩
      simp [clear_dialect hdialect, clear_format hformat]

/-- The linter is looked for if it is asked for. -/
theorem findLinter_cases (c : Converter τ) (id : RunId) (r : ConversionRequest) (w : World τ) :
    (∃ f, c.Fails id r w .linter f ∧ c.findLinter r.config w.host = .error f) ∨
      (∃ eslint, c.findLinter r.config w.host = .ok eslint) ∧ c.Clear id r w .linter := by
  unfold findLinter linterFrom
  rw [Host.programFrom_onSearchPath?]
  cases hasked : r.config.eslintFix with
  | false =>
    refine .inr ⟨⟨none, rfl⟩, fun f h => ?_⟩
    cases h with
    | linter asked missing => exact nomatch hasked.symm.trans asked
  | true =>
    cases hfound : w.host.program? r.config.toolchain.eslint c.workingDir with
    | none => exact .inl ⟨_, .linter hasked hfound, rfl⟩
    | some program =>
      refine .inr ⟨⟨some program, rfl⟩, fun f h => ?_⟩
      cases h with
      | linter asked missing => exact nomatch hfound.symm.trans missing

/-- The source is read where the input is. -/
theorem readSource_cases (id : RunId) (r : ConversionRequest) (w : World τ)
    (habs : c.workingDir.isAbsolute = true) :
    (∃ f, c.Fails id r w .source f ∧ c.readSource (c.inputOf r) w.host = .error f) ∨
      (∃ source, c.readSource (c.inputOf r) w.host = .ok source) ∧ c.Clear id r w .source := by
  have hjoin : c.workingDir.join (c.inputOf r) = c.inputOf r := readingOf_eq_inputOf (.inl habs)
  rw [readSource, hjoin]
  cases hread : w.host.files.readText w.host.here (c.inputOf r) with
  | error fault => exact .inl ⟨_, .source hread, rfl⟩
  | ok text => exact .inr ⟨⟨_, rfl⟩, clear_source hread⟩

/-- Behind the options, the paths, the linter and the source are checked. -/
theorem prepareRest_cases (id : RunId) (r : ConversionRequest) (w : World τ)
    (habs : c.workingDir.isAbsolute = true) :
    (∃ k f, c.FirstFault id r w [.destinationDiffers, .linter, .source] k f ∧
        c.prepareRest r w = .error f) ∨
      (∃ rest, c.prepareRest r w = .ok rest) ∧
        ∀ k ∈ [Check.destinationDiffers, .linter, .source], c.Clear id r w k := by
  unfold prepareRest
  by_cases hsame : (c.outputOf r).same (c.inputOf r) = true
  · rw [if_pos hsame]
    exact .inl ⟨_, _, .here (.destinationDiffers hsame), rfl⟩
  rw [if_neg hsame]
  have hdiffers : c.Clear id r w .destinationDiffers := clear_destinationDiffers hsame
  rcases c.findLinter_cases id r w with ⟨f, hfails, hlinter⟩ | ⟨⟨eslint, hlinter⟩, hlint⟩
  · rw [hlinter]
    exact .inl ⟨_, _, .later hdiffers (.here hfails), rfl⟩
  rcases readSource_cases id r w habs with ⟨f, hfails, hread⟩ | ⟨⟨source, hread⟩, hsource⟩
  · rw [hlinter, hread]
    exact .inl ⟨_, _, .later hdiffers (.later hlint (.here hfails)), rfl⟩
  · rw [hlinter, hread]
    exact .inr ⟨⟨_, rfl⟩, by simp [hdiffers, hlint, hsource]⟩

/-- A request is prepared by its options and by the rest. -/
theorem prepare_eq (c : Converter τ) (r : ConversionRequest) (w : World τ) :
    c.prepare r w.host = do
      let options ← (StageOptions.resolve c.catalog r.config.options).mapError .config
      let (eslint, source) ← c.prepareRest r w
      return ⟨options, c.inputOf r, c.outputOf r, eslint, source⟩ := by
  have hprepare : c.prepare r w.host =
    (do
      let options ← (StageOptions.resolve c.catalog r.config.options).mapError .config
      if (c.outputOf r).same (c.inputOf r) then .error (.config (.outputIsInput (c.inputOf r)))
      let eslint ← c.findLinter r.config w.host
      let source ← c.readSource (c.inputOf r) w.host
      return ⟨options, c.inputOf r, c.outputOf r, eslint, source⟩ : Except Failure Prepared) := rfl
  rw [hprepare]
  unfold prepareRest
  cases StageOptions.resolve c.catalog r.config.options with
  | error fault => rfl
  | ok o =>
    by_cases hsame : (c.outputOf r).same (c.inputOf r) = true
    · simp only [if_pos hsame]
      rfl
    · simp only [if_neg hsame]
      cases c.findLinter r.config w.host with
      | error failure => rfl
      | ok eslint => cases c.readSource (c.inputOf r) w.host <;> rfl

/-- What is checked before the stages run. Either the first of the checks that fails is
reported, or all are clear. -/
theorem prepare_cases (id : RunId) (r : ConversionRequest) (w : World τ)
    (habs : c.workingDir.isAbsolute = true) :
    (∃ k f, c.FirstFault id r w Check.early k f ∧ c.prepare r w.host = .error f) ∨
      (∃ p, c.prepare r w.host = .ok p) ∧ ∀ k ∈ Check.early, c.Clear id r w k := by
  rw [prepare_eq]
  rcases c.resolve_cases id r w with ⟨k, fault, hfirst, hoptions⟩ | ⟨⟨o, hoptions⟩, hclear⟩
  · rw [hoptions]
    exact .inl ⟨k, _, hfirst.append [.destinationDiffers, .linter, .source], rfl⟩
  rw [hoptions]
  rcases prepareRest_cases id r w habs with ⟨k, f, hfirst, hrest⟩ | ⟨⟨rest, hrest⟩, hclear'⟩
  · rw [hrest]
    exact .inl ⟨k, f, hfirst.after hclear, rfl⟩
  · rw [hrest]
    exact .inr ⟨⟨_, rfl⟩, List.forall_mem_append.2 ⟨hclear, hclear'⟩⟩

/-! ### What is checked from then on -/

/-- What the stages of a request that has been prepared are given, and how they end. -/
theorem settles_of_prepared (id : RunId) (habs : c.workingDir.isAbsolute = true)
    (h : c.prepare r w.host = .ok p) :
    ∃ text askings, StageOptions.resolve c.catalog r.config.options = .ok p.options ∧
      w.host.files.readText w.host.here (c.inputOf r) = .ok text ∧
      Pipeline.Settles (c.transformers r.config.toolchain w.host) p.options (c.contextOf id r)
        (Pipeline.needed r.config.skipFormat) text w askings (c.runOf id r w p).2
        (c.runOf id r w p).1.outcome := by
  obtain ⟨hoptions, hinput, houtput, -⟩ := prepare_eq_ok h
  obtain ⟨askings, -, -, hsettles⟩ := c.convert_noted id r w []
  have hsettled := hsettles p h
  have htext := text_of_prepared h
  rw [readingOf_eq_inputOf (.inl habs)] at htext
  rw [hinput, houtput] at hsettled
  exact ⟨p.source.text, askings, hoptions, htext, hsettled⟩

/-- What is reported of writing a result is what replacing the destination reports. -/
theorem writeResult_fst (c : Converter τ) (output : Path) (text : String) (v : World τ) :
    (c.writeResult output text v).1 =
      (v.host.files.replaceFile c.refusals v.host.here v.host.mask output
        (Utf8.encode text)).1.mapError (.io "write" output) := rfl

/-- What is checked once the stages run. Either the first of the checks that fails is reported,
or all are clear and the conversion succeeds. -/
theorem late_cases (id : RunId) (habs : c.workingDir.isAbsolute = true)
    (h : c.prepare r w.host = .ok p) :
    (∃ k f, c.FirstFault id r w Check.late k f ∧ (c.convert id r w).1.result = .error f) ∨
      (∃ summary, (c.convert id r w).1.result = .ok summary) ∧
        ∀ k ∈ Check.late, c.Clear id r w k := by
  obtain ⟨text, askings, hoptions, hread, hsettles⟩ := settles_of_prepared id habs h
  cases houtcome : (c.runOf id r w p).1.outcome with
  | error failure =>
    rw [houtcome] at hsettles
    exact .inl ⟨.stages, _, .here (.stages hoptions hread hsettles), result_of_halted h houtcome⟩
  | ok result =>
    rw [houtcome] at hsettles
    have hstages : c.Clear id r w .stages := by
      intro f hfails
      cases hfails with
      | stages resolved read halts =>
        rw [hoptions] at resolved
        cases resolved
        rw [hread] at read
        cases read
        exact Pipeline.Passes.not_halts hsettles halts
    have hresult := result_of_passed h houtcome
    rw [(prepare_eq_ok h).2.2.1, writeResult_fst] at hresult
    cases hwrite : ((c.runOf id r w p).2.host.files.replaceFile c.refusals
        (c.runOf id r w p).2.host.here (c.runOf id r w p).2.host.mask (c.outputOf r)
        (Utf8.encode result)).1 with
    | error fault =>
      rw [hwrite] at hresult
      exact .inl ⟨.destination, _,
        .later hstages (.here (.destination hoptions hread hsettles hwrite)), hresult⟩
    | ok written =>
      rw [hwrite] at hresult
      refine .inr ⟨⟨_, hresult⟩, ?_⟩
      have hdestination : c.Clear id r w .destination := by
        intro f hfails
        cases hfails with
        | destination resolved read passes unwritten =>
          rw [hoptions] at resolved
          cases resolved
          rw [hread] at read
          cases read
          obtain ⟨-, rfl, rfl⟩ := Pipeline.Passes.unique hsettles passes
          exact nomatch hwrite.symm.trans unwritten
      simp [Check.late, hstages, hdestination]

/-! ### The order -/

/-- A conversion reports the first fault, or succeeds where there is none. -/
theorem convert_cases (c : Converter τ) (id : RunId) (r : ConversionRequest) (w : World τ)
    (habs : c.workingDir.isAbsolute = true) :
    (∃ k f, c.FirstFault id r w Check.order k f ∧ (c.convert id r w).1.result = .error f) ∨
      (∃ summary, (c.convert id r w).1.result = .ok summary) ∧
        ∀ k ∈ Check.order, c.Clear id r w k := by
  rcases prepare_cases id r w habs with ⟨k, f, hfirst, hprepare⟩ | ⟨⟨p, hprepare⟩, hearly⟩
  · exact .inl ⟨k, f, hfirst.append Check.late, by rw [c.convert_of_refused id hprepare]⟩
  · rcases late_cases id habs hprepare with ⟨k, f, hfirst, hresult⟩ | ⟨hresult, hlate⟩
    · exact .inl ⟨k, f, hfirst.after hearly, hresult⟩
    · exact .inr ⟨hresult, List.forall_mem_append.2 ⟨hearly, hlate⟩⟩

/-- A conversion fails exactly with the first fault. -/
theorem convert_eq_error_iff_first (habs : c.workingDir.isAbsolute = true) :
    (c.convert id r w).1.result = .error f ↔ ∃ k, c.FirstFault id r w Check.order k f := by
  rcases c.convert_cases id r w habs with ⟨k, f', hfirst, hresult⟩ | ⟨⟨summary, hresult⟩, hclear⟩
  · rw [hresult]
    constructor
    · rintro ⟨⟩
      exact ⟨k, hfirst⟩
    · rintro ⟨k', hfirst'⟩
      rw [(hfirst.unique hfirst').2]
  · rw [hresult]
    constructor
    · exact fun h => nomatch h
    · rintro ⟨k, hfirst⟩
      exact absurd hfirst.fails.1 (hclear k hfirst.fails.2 f)

/-- A conversion succeeds exactly if nothing is wrong. -/
theorem convert_eq_ok_iff_clear (habs : c.workingDir.isAbsolute = true) :
    (∃ summary, (c.convert id r w).1.result = .ok summary) ↔ ∀ k, c.Clear id r w k := by
  have hall : ∀ k : Check, k ∈ Check.order := fun k => by cases k <;> decide
  rcases c.convert_cases id r w habs with ⟨k, f, hfirst, hresult⟩ | ⟨hresult, hclear⟩
  · rw [hresult]
    constructor
    · rintro ⟨summary, ⟨⟩⟩
    · exact fun hclear => absurd hfirst.fails.1 (hclear k f)
  · exact ⟨fun _ k => hclear k (hall k), fun _ => hresult⟩

/-- Where one of the early checks fails, nothing happens: no stage is asked anything, the world
is as it was, and there is no event. -/
theorem convert_of_early (habs : c.workingDir.isAbsolute = true)
    (h : c.FirstFault id r w Check.order k f) (hearly : k ∈ Check.early) (log : List Asking) :
    c.noted.convert id r (w.noted log) = (⟨.error f, []⟩, w.noted log) := by
  rcases prepare_cases id r w habs with ⟨k', f', hfirst, hprepare⟩ | ⟨-, hclear⟩
  · obtain ⟨-, rfl⟩ := h.unique (hfirst.append Check.late)
    exact c.noted.convert_of_refused id hprepare
  · exact absurd h.fails.1 (hclear k hearly f)

end Converter

/-! ### The program -/

namespace Invocation

/-- The configuration file of an invocation cannot be read, or not be understood. -/
inductive FileFails (i : Invocation) (h : Host) : ConfigFault → Prop
  | unread {p : Path} {fault : IoFault} (named : i.configFile = some p)
      (unread : h.files.readText h.here p = .error fault) :
      FileFails i h (.badFile p fault.message)
  | unusable {p : Path} {text : String} {problem : Json.Problem} (named : i.configFile = some p)
      (read : h.files.readText h.here p = .ok text)
      (unusable : Configuration.ofText? text = .error problem) :
      FileFails i h (.badFile p problem.message)

variable {i : Invocation} {h : Host} {fault : ConfigFault}

/-- There is no base configuration exactly if the configuration file fails. -/
theorem base_eq_error_iff : i.base h = .error fault ↔ i.FileFails h fault := by
  unfold base readConfiguration
  constructor
  · intro hbase
    cases hnamed : i.configFile with
    | none =>
      rw [hnamed] at hbase
      cases hbase
    | some p =>
      cases hread : h.files.readText h.here p with
      | error e =>
        simp only [hnamed, hread] at hbase
        cases hbase
        exact .unread hnamed hread
      | ok text =>
        cases hconfig : Configuration.ofText? text with
        | error problem =>
          simp only [hnamed, hread, Configuration.ofText, hconfig] at hbase
          cases hbase
          exact .unusable hnamed hread hconfig
        | ok config =>
          simp only [hnamed, hread, Configuration.ofText, hconfig] at hbase
          cases hbase
  · rintro (⟨named, unread⟩ | ⟨named, read, unusable⟩)
    · simp only [named, unread]
    · simp only [named, read, Configuration.ofText, unusable]

/-- The request that an invocation makes over a base configuration. -/
def requestOver (i : Invocation) (base : Configuration) : ConversionRequest where
  input := i.input
  output := i.output
  config := base.overlay i.options i.skipFormat i.eslintFix

theorem request_of_base {base : Configuration} (hbase : i.base h = .ok base) :
    i.request h = .ok (i.requestOver base) := by
  rw [request, hbase]
  rfl

end Invocation

namespace Session

variable {τ : Type} {tools : Tooling τ} {catalog : Catalog} {id : RunId} {i : Invocation}
  {w : World τ} {dir : Path}

theorem isAbsolute_of_workingDir {h : Host} (hdir : workingDir h = .ok dir) :
    dir.isAbsolute = true := by
  unfold workingDir at hdir
  split at hdir
  · cases hdir
    simp [Path.ofSegments, Path.isAbsolute]
  · cases hdir

theorem execute_of_noDir (tools : Tooling τ) (catalog : Catalog) (id : RunId) (i : Invocation)
    {fault : IoFault} (hdir : workingDir w.host = .error fault) :
    execute tools catalog id i w = (.failed (.io "resolve" (.ofString ".") fault), w) := by
  rw [execute, hdir]

theorem execute_of_fileFails (tools : Tooling τ) (catalog : Catalog) (id : RunId)
    {fault : ConfigFault} (hdir : workingDir w.host = .ok dir) (hfails : i.FileFails w.host fault) :
    execute tools catalog id i w = (.failed (.config fault), w) := by
  rw [execute, hdir, Invocation.request, Invocation.base_eq_error_iff.2 hfails]

theorem execute_of_error {base : Configuration} {f : Failure} (hdir : workingDir w.host = .ok dir)
    (hbase : i.base w.host = .ok base)
    (hresult : ((converter tools catalog dir).convert id (i.requestOver base) w).1.result =
      .error f) : (execute tools catalog id i w).1 = .failed f := by
  simp only [execute, hdir, Invocation.request_of_base hbase, hresult]

theorem execute_of_ok {base : Configuration} {summary : Summary}
    (hdir : workingDir w.host = .ok dir) (hbase : i.base w.host = .ok base)
    (hresult : ((converter tools catalog dir).convert id (i.requestOver base) w).1.result =
      .ok summary) : (execute tools catalog id i w).1 = .converted i.input summary.output := by
  simp only [execute, hdir, Invocation.request_of_base hbase, hresult]

theorem status_failed_ne_zero (f : Failure) : (Ending.failed f).status ≠ 0 :=
  Nat.ne_of_gt f.exitStatus_pos

/-- The exit status is zero exactly if there is a request and its conversion succeeds. -/
theorem status_execute_eq_zero_iff :
    (execute tools catalog id i w).1.status = 0 ↔ ∃ dir base summary,
      workingDir w.host = .ok dir ∧ i.base w.host = .ok base ∧
      ((converter tools catalog dir).convert id (i.requestOver base) w).1.result =
        .ok summary := by
  cases hdir : workingDir w.host with
  | error fault => simp [execute_of_noDir tools catalog id i hdir, status_failed_ne_zero]
  | ok dir =>
    cases hbase : i.base w.host with
    | error fault =>
      simp [execute_of_fileFails tools catalog id hdir (Invocation.base_eq_error_iff.1 hbase),
        status_failed_ne_zero]
    | ok base =>
      cases hresult :
          ((converter tools catalog dir).convert id (i.requestOver base) w).1.result with
      | error f => simp [execute_of_error hdir hbase hresult, status_failed_ne_zero, hresult]
      | ok summary => simp [execute_of_ok hdir hbase hresult, Ending.status, hresult]

end Session

/-- Faults come in order: whatever else is wrong, a conversion fails with the first check that
fails, and succeeds exactly if none does; where it is one of the early checks, no stage is asked
anything, nothing changes, and there is no event. For the program, with any tools, a configuration
file that cannot be used comes before all of them; only the current directory is resolved earlier.
The exit status is that of the check, and zero exactly if the conversion succeeds. -/
theorem faults_in_order :
    (∀ {τ : Type} (c : Converter τ) (id : RunId) (r : ConversionRequest) (w : World τ),
      c.workingDir.isAbsolute = true →
        (∀ f, (c.convert id r w).1.result = .error f ↔
          ∃ k, c.FirstFault id r w Check.order k f) ∧
        ((∃ summary, (c.convert id r w).1.result = .ok summary) ↔ ∀ k, c.Clear id r w k) ∧
        (∀ k f, c.FirstFault id r w Check.order k f → f.exitStatus = k.exitStatus ∧
          (k ∈ Check.early →
            ∀ log, c.noted.convert id r (w.noted log) = (⟨.error f, []⟩, w.noted log)))) ∧
    ∀ {τ : Type} (tools : Tooling τ) (catalog : Catalog) (id : RunId) (i : Invocation)
        (w : World τ),
      (∀ arguments, Invocation.read catalog arguments = .ok i →
        Session.run tools catalog id arguments w = Session.execute tools catalog id i w) ∧
      (∀ fault, Session.workingDir w.host = .error fault →
        Session.execute tools catalog id i w =
            (.failed (.io "resolve" (.ofString ".") fault), w) ∧
          (Session.execute tools catalog id i w).1.status = 4) ∧
      (∀ dir, Session.workingDir w.host = .ok dir →
        (∀ fault, i.FileFails w.host fault →
          Session.execute tools catalog id i w = (.failed (.config fault), w) ∧
            (Session.execute tools catalog id i w).1.status = 2) ∧
        ((∀ fault, ¬ i.FileFails w.host fault) → ∃ base, i.base w.host = .ok base ∧
          ∀ k f, (Session.converter tools catalog dir).FirstFault id (i.requestOver base) w
              Check.order k f →
            (Session.execute tools catalog id i w).1 = .failed f ∧
              (Session.execute tools catalog id i w).1.status = k.exitStatus)) ∧
      ((Session.execute tools catalog id i w).1.status = 0 ↔ ∃ dir base summary,
        Session.workingDir w.host = .ok dir ∧ i.base w.host = .ok base ∧
        ((Session.converter tools catalog dir).convert id (i.requestOver base) w).1.result =
          .ok summary) := by
  refine ⟨fun c id r w habs => ⟨fun f => Converter.convert_eq_error_iff_first habs,
    Converter.convert_eq_ok_iff_clear habs,
    fun k f hfirst => ⟨hfirst.fails.1.exitStatus_eq,
      fun hearly log => Converter.convert_of_early habs hfirst hearly log⟩⟩,
    fun tools catalog id i w => ⟨fun arguments hread => ?_, fun fault hdir => ?_,
      fun dir hdir => ⟨fun fault hfails => ?_, fun hfile => ?_⟩,
      Session.status_execute_eq_zero_iff⟩⟩
  · rw [Session.run, hread]
  · have hfailed := Session.execute_of_noDir tools catalog id i hdir
    exact ⟨hfailed, by rw [hfailed]; rfl⟩
  · have hfailed := Session.execute_of_fileFails tools catalog id hdir hfails
    exact ⟨hfailed, by rw [hfailed]; rfl⟩
  · cases hbase : i.base w.host with
    | error fault => exact absurd (Invocation.base_eq_error_iff.1 hbase) (hfile fault)
    | ok base =>
      refine ⟨base, rfl, fun k f hfirst => ?_⟩
      have habs := Session.isAbsolute_of_workingDir hdir
      have hresult := (Converter.convert_eq_error_iff_first
        (c := Session.converter tools catalog dir) habs).2 ⟨k, hfirst⟩
      have hfailed := Session.execute_of_error hdir hbase hresult
      exact ⟨hfailed, by rw [hfailed]; exact hfirst.fails.1.exitStatus_eq⟩

/-- A machine without any file. -/
def Host.desert : Host := { files := .empty }

/-- What is done by others where no program is ever found. -/
def Tooling.absent : Tooling Unit :=
  .ofLauncher fun _ _ _ h => (.error OsFault.noEntry.toIoFault, h)

/-- An invocation that asks for the linter, with or without a configuration file. -/
def lintedInvocation (configFile : Option Path) : Invocation where
  input := .ofString "a.cjsx"
  output := none
  configFile := configFile
  options := .empty
  skipFormat := false
  eslintFix := true
  verbosity := 0
  logJson := false

/-- On a machine without any file, the configuration file, the linter and the source are all
missing. The program reports the configuration file, and the linter if there is none to be read; a
conversion that reports the linter asks no stage anything. In a directory that is not there, the
directory is reported. -/
theorem faults_on_desert :
    (Session.execute .absent .builtIn .zero (lintedInvocation (some (.ofString "c.json")))
        ⟨Host.desert, ()⟩).1 =
      .failed (.config (.badFile (.ofString "c.json") OsFault.noEntry.toIoFault.message)) ∧
    (Session.execute .absent .builtIn .zero (lintedInvocation none) ⟨Host.desert, ()⟩).1.status =
      3 ∧
    (Session.converter .absent .builtIn (.ofString "/")).noted.convert .zero
        ((lintedInvocation none).requestOver .usual) (World.noted ⟨Host.desert, ()⟩ []) =
      (⟨.error (.missingTool ⟨"eslint", "--eslint-fix"⟩), []⟩, World.noted ⟨Host.desert, ()⟩ []) ∧
    (Session.converter .absent .builtIn (.ofString "/")).Fails .zero
      ((lintedInvocation none).requestOver .usual) ⟨Host.desert, ()⟩ .source
      (.io "read" (.ofString "/a.cjsx") OsFault.noEntry.toIoFault) ∧
    (Session.execute .absent .builtIn .zero (lintedInvocation (some (.ofString "c.json")))
        ⟨{ Host.desert with here := Host.locationOf "gone" }, ()⟩).1.status = 4 := by
  have hdir : Session.workingDir Host.desert = .ok (.ofString "/") := by decide +kernel
  have hgone : Session.workingDir { Host.desert with here := Host.locationOf "gone" } =
      .error OsFault.noEntry.toIoFault := by decide +kernel
  have hfile : (lintedInvocation (some (.ofString "c.json"))).FileFails Host.desert
      (.badFile (.ofString "c.json") OsFault.noEntry.toIoFault.message) :=
    .unread rfl (by decide +kernel)
  have hnoFile : ∀ fault, ¬ (lintedInvocation none).FileFails Host.desert fault := by
    rintro fault (⟨⟨⟩⟩ | ⟨⟨⟩⟩)
  have hlinter : (Session.converter .absent .builtIn (.ofString "/")).FirstFault .zero
      ((lintedInvocation none).requestOver .usual) ⟨Host.desert, ()⟩ Check.order .linter
      (.missingTool ⟨"eslint", "--eslint-fix"⟩) :=
    .later (Converter.clear_dialect rfl) (.later (Converter.clear_format rfl)
      (.later (Converter.clear_destinationDiffers (Bool.eq_false_iff.1 (by decide +kernel)))
        (.here (.linter rfl (by decide +kernel)))))
  obtain ⟨-, -, hearly⟩ := faults_in_order.1 (Session.converter .absent .builtIn (.ofString "/"))
    .zero ((lintedInvocation none).requestOver .usual) ⟨Host.desert, ()⟩ (by decide +kernel)
  obtain ⟨-, -, hnamed, -⟩ := faults_in_order.2 Tooling.absent .builtIn .zero
    (lintedInvocation (some (.ofString "c.json"))) ⟨Host.desert, ()⟩
  obtain ⟨-, -, hunnamed, -⟩ := faults_in_order.2 Tooling.absent .builtIn .zero
    (lintedInvocation none) ⟨Host.desert, ()⟩
  obtain ⟨-, hunplaced, -, -⟩ := faults_in_order.2 Tooling.absent .builtIn .zero
    (lintedInvocation (some (.ofString "c.json")))
    ⟨{ Host.desert with here := Host.locationOf "gone" }, ()⟩
  obtain ⟨base, hbase, hstatus⟩ := (hunnamed _ hdir).2 hnoFile
  cases hbase
  exact ⟨congrArg Prod.fst ((hnamed _ hdir).1 _ hfile).1, (hstatus _ _ hlinter).2,
    (hearly _ _ hlinter).2 (by decide) [], .source (by decide +kernel), (hunplaced _ hgone).2⟩

end CjsxConversion
