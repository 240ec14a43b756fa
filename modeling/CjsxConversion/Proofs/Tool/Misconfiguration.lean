import CjsxConversion.Proofs.Conversion.Separation
import CjsxConversion.Proofs.Tool.CommandLines
import CjsxConversion.Proofs.Tool.ShellWords

/-!
# Tools whose placeholders nothing stands for

A tool that works on no scratch file has nothing to put in the place of a placeholder for one. That
is found out when its command line is built, before any program is started. In a run every stage
knows the file that its text is taken to be, so that this is the only way in which placeholders are
at fault.

A workbench can note the programs that are started on it, and a run what its stages are
asked.

Main results:
* `Settles.last_of_fails`: a stage that cannot succeed is the last that is asked.
* `misconfigured_of_invoke`: when a tool is misconfigured.
* `invoke_ne_no_scratch`: a tool has a scratch file if its result is to be there.
* `placeholder_faults`: when they are at fault in a command line, and in a run.
-/

namespace CjsxConversion

namespace Workbench

variable {σ : Type}

/-- A workbench that notes the programs that are started, with their arguments. -/
def noting (b : Workbench σ) : Workbench (σ × List (String × List String)) where
  create := fun suffix content w =>
    let (made, v) := b.create suffix content w.1
    (made, v, w.2)
  launch := fun program args input w =>
    let (ended, v) := b.launch program args input w.1
    (ended, v, w.2 ++ [(program, args)])
  recover := fun p w => b.recover p w.1
  discard := fun p w => (b.discard p w.1, w.2)

variable (b : Workbench σ) (w : σ) (log : List (String × List String))

end Workbench

namespace Pipeline

variable {σ : Type} (t : ByStage (Transformer σ)) (o : StageOptions) (c : RunContext)

/-- What the stages of a run are asked. -/
def asks (skipFormat : Bool) (source : Source) (w : σ) : List Asking :=
  ((ofTransformers (noting t) o skipFormat).run c source (w, [])).2.2

/-- What the stages of a run are asked is settled. -/
theorem settles_asks (skipFormat : Bool) (source : Source) (w : σ) :
    Settles t o c (needed skipFormat) source.text w (asks t o c skipFormat source w)
      ((ofTransformers t o skipFormat).run c source w).2
      ((ofTransformers t o skipFormat).run c source w).1.outcome := by
  obtain ⟨askings, hnoted, hsettled⟩ := follow_noting t o c skipFormat Stage.all source.text w []
  have hasks : asks t o c skipFormat source w = askings := by
    rw [asks, run_eq_follow, hnoted, List.nil_append]
  rw [hasks, needed_eq_filter, run_eq_follow]
  exact hsettled

variable {t o c} {ss : List Stage} {text : String} {w v : σ} {askings : List Asking}
  {outcome : Except StageFailure String}

theorem Settles.outcome_of_error {s : Stage} {rest : List Stage} {fault : ToolFault} {u : σ}
    (answer : t.get s (asked o c text s) w = (.error fault, u))
    (h : Settles t o c (s :: rest) text w askings v outcome) :
    outcome = .error ⟨s, fault.diagnostic⟩ := by
  have hhalts : Halts t o c (s :: rest) text w [⟨s, asked o c text s⟩] ⟨s, fault.diagnostic⟩ u :=
    .here answer
  exact ((h.halts_iff _ _ _).1 hhalts).1

/-- A stage that cannot succeed is the last that is asked, and its fault ends the run. -/
theorem Settles.last_of_fails (h : Settles t o c ss text w askings v outcome) {a : Asking}
    (ha : a ∈ askings) {fault : ToolFault}
    (hfails : ∀ u, (t.get a.stage a.request u).1 = .error fault) :
    outcome = .error ⟨a.stage, fault.diagnostic⟩ ∧ ∃ before, askings = before ++ [a] := by
  induction ss generalizing text w askings with
  | nil =>
    have hnone := h.stages_in_order
    simp only [List.prefix_nil, List.map_eq_nil_iff] at hnone
    simp [hnone] at ha
  | cons s rest ih =>
    cases answer : t.get s (asked o c text s) w with
    | mk result u =>
      cases result with
      | error other =>
        rw [h.of_error answer, List.mem_singleton] at ha
        subst ha
        have hsame := hfails w
        rw [answer, Except.error.injEq] at hsame
        subst hsame
        exact ⟨h.outcome_of_error answer, [], h.of_error answer⟩
      | ok out =>
        obtain ⟨later, rfl, hlater⟩ := h.of_ok answer
        rcases List.mem_cons.1 ha with rfl | ha
        · exact nomatch (congrArg Prod.fst answer).symm.trans (hfails w)
        · obtain ⟨houtcome, before, rfl⟩ := ih hlater ha
          exact ⟨houtcome, _ :: before, rfl⟩

/-- In a run every stage knows the file that its text is taken to be. -/
theorem exists_filePath_of_mem_asks {skipFormat : Bool} {source : Source} {a : Asking}
    (ha : a ∈ asks t o c skipFormat source w) : ∃ p, a.request.filePath = some p := by
  obtain ⟨text, hrequest⟩ := (settles_asks t o c skipFormat source w).request_eq a ha
  rw [hrequest]
  cases a.stage <;> exact ⟨_, rfl⟩

end Pipeline

namespace ToolSetup

variable {σ : Type} {t : ToolSetup} {r : Request} {b : Workbench σ} {scratch : Option Path}
  {fault : ToolFault} {v : σ}

/-- A fault of placeholders that nothing stands for. -/
def PlaceholderFault (t : ToolSetup) (fault : ToolFault) : Prop :=
  fault = t.inputUnfilled ∨ fault = t.fileUnfilled

/-- The tool is given its text on standard input and leaves its result on standard output, and yet
an argument has a placeholder for a scratch file. -/
def LacksScratch (t : ToolSetup) : Prop :=
  t.input = .stdin ∧ t.output = .stdout ∧ ∃ arg ∈ t.args, Mentions inputPlaceholder arg

/-! ### Faults of placeholders -/

theorem usesScratch_eq_false_iff :
    t.usesScratch = false ↔ t.input = .stdin ∧ t.output = .stdout := by
  cases h : t.output <;> simp [usesScratch, h]

/-- A fault of placeholders says what the tool uses. -/
theorem PlaceholderFault.uses (h : t.PlaceholderFault fault) :
    ∃ rest, fault = .misconfigured (t.program ++ (" uses " ++ rest)) := by
  rcases h with rfl | rfl
  · exact ⟨inputPlaceholder ++ " but reads its input from stdin", by
      simp only [inputUnfilled, String.append_assoc]⟩
  · exact ⟨filePlaceholder ++ " but no file path is known", by
      simp only [fileUnfilled, String.append_assoc]⟩

/-- A command line that cannot be built is a fault of placeholders. -/
theorem placeholderFault_of_commandLine (h : t.commandLine r scratch = .error fault) :
    t.PlaceholderFault fault := by
  obtain ⟨-, arg, -, -, -, -, rfl⟩ := commandLine_eq_error_iff.1 h
  unfold unfilled
  split
  · exact .inl rfl
  · exact .inr rfl

/-- A word that cannot be passed through a shell is no fault of placeholders. -/
theorem not_placeholderFault_unquotable (t : ToolSetup) (w : String) :
    ¬ t.PlaceholderFault (CommandLine.unquotable t.program w) := by
  intro h
  obtain ⟨rest, hreason⟩ := h.uses
  rw [CommandLine.unquotable, ToolFault.misconfigured.injEq] at hreason
  -- behind the program there is a colon in one of them, and a blank in the other
  have hlist := congrArg String.toList hreason
  simp [String.toList_append] at hlist

/-- The words to start a program with are lacking only if one of them cannot be passed through a
shell. -/
theorem exists_of_startWords_error {c : CommandLine} (h : t.startWords c = .error fault) :
    ∃ w, fault = CommandLine.unquotable c.program w := by
  have hrender : c.render = .error fault := by
    unfold startWords at h
    cases hshell : t.shell with
    | direct => simp [hshell] at h
    | shell =>
      rw [hshell] at h
      cases hc : c.render with
      | ok script =>
        rw [hc] at h
        cases h
      | error other =>
        rw [hc] at h
        cases h
        rfl
  obtain ⟨w, -, hfault⟩ := CommandLine.render_eq_error_iff.1 hrender
  exact ⟨w, hfault⟩

section Misconfigured

variable {reason : String}

/-- A program that has ended shows no misconfiguration, unless its tool has no scratch file to
leave its result in. -/
theorem collect_ne_misconfigured {exit : Exit} (hscratch : scratch = none → t.output = .stdout) :
    t.collect b scratch exit v ≠ .error (.misconfigured reason) := by
  intro h
  unfold collect at h
  split at h
  · cases hoctets : t.resultOctets b scratch exit v with
    | error other =>
      rw [hoctets] at h
      cases h
      unfold resultOctets at hoctets
      split at hoctets
      · cases hoctets
      · next p _ => cases hrecover : b.recover p v <;> simp [hrecover, Except.mapError] at hoctets
      · next hplace => exact nomatch hplace.symm.trans (hscratch rfl)
    | ok octets =>
      simp only [hoctets, bind, Except.bind] at h
      split at h
      · cases h
      · cases hplace : t.output <;> simp [notText, hplace] at h
  · cases h

/-- A tool is misconfigured if its command line cannot be built or passed through a shell. -/
theorem misconfigured_of_perform (hscratch : scratch = none → t.output = .stdout)
    (h : (t.perform b scratch r v).1 = .error (.misconfigured reason)) :
    t.commandLine r scratch = .error (.misconfigured reason) ∨
      ∃ w, ToolFault.misconfigured reason = CommandLine.unquotable t.program w := by
  unfold perform at h
  cases hc : t.commandLine r scratch with
  | error other =>
    rw [hc] at h
    exact .inl (congrArg _ (Except.error.inj h))
  | ok c =>
    right
    have hprogram := (commandLine_eq_ok_iff.1 hc).1
    simp only [hc, bind, Except.bind] at h
    cases hwords : t.startWords c with
    | error other =>
      simp only [hwords, Except.error.injEq] at h
      rw [← h, ← hprogram]
      exact exists_of_startWords_error hwords
    | ok words =>
      simp only [hwords] at h
      cases hlaunch : b.launch words.1 words.2 (t.standardInput r) v with
      | mk ended u =>
        cases ended with
        | error other => simp [hlaunch] at h
        | ok exit =>
          simp only [hlaunch] at h
          exact absurd h (collect_ne_misconfigured hscratch)

/-- When a tool is misconfigured: its command line cannot be built, for want of a scratch file,
or it cannot be passed through a shell. -/
theorem misconfigured_of_invoke (h : (t.invoke b r v).1 = .error (.misconfigured reason)) :
    (t.usesScratch = false ∧ t.commandLine r none = .error (.misconfigured reason)) ∨
      ∃ w, ToolFault.misconfigured reason = CommandLine.unquotable t.program w := by
  unfold invoke at h
  split at h
  · cases hcreate : b.create t.scratchEnding (Utf8.encode r.text) v with
    | mk made u =>
      rw [hcreate] at h
      cases made with
      | error other => cases h
      | ok p =>
        have hperform : (t.perform b (some p) r u).1 = .error (.misconfigured reason) := h
        have hsome : some p = none → t.output = .stdout := fun hp => nomatch hp
        -- with a scratch file every command line can be built
        rcases misconfigured_of_perform hsome hperform with hc | hw
        · obtain ⟨c, hok⟩ := t.exists_commandLine_of_scratch r p
          exact nomatch hok.symm.trans hc
        · exact .inr hw
  · next huses =>
    have huses := Bool.eq_false_iff.2 huses
    have hplace := (usesScratch_eq_false_iff.1 huses).2
    exact (misconfigured_of_perform (fun _ => hplace) h).imp_left fun hc => ⟨huses, hc⟩

end Misconfigured

theorem perform_of_error (h : t.commandLine r scratch >>= t.startWords = .error fault) :
    t.perform b scratch r v = (.error fault, v) := by
  unfold perform
  rw [h]

/-- When placeholders are at fault in a tool that knows the file its text is taken to be. -/
theorem lacksScratch_of_placeholderFault {q : Path} (hfile : r.filePath = some q)
    (hfault : t.PlaceholderFault fault) (h : (t.invoke b r v).1 = .error fault) :
    t.LacksScratch := by
  obtain ⟨rest, hreason⟩ := hfault.uses
  rw [hreason] at h hfault
  rcases misconfigured_of_invoke h with ⟨huses, hc⟩ | ⟨w, hw⟩
  · obtain ⟨hinput, houtput⟩ := usesScratch_eq_false_iff.1 huses
    exact ⟨hinput, houtput, ((commandLine_eq_error_iff_of_file hfile).1 hc).1⟩
  · rw [hw] at hfault
    exact absurd hfault (t.not_placeholderFault_unquotable w)

/-- A tool has a scratch file if its result is to be there. -/
theorem invoke_ne_no_scratch (t : ToolSetup) (b : Workbench σ) (r : Request) (v : σ) :
    (t.invoke b r v).1 ≠ .error (.misconfigured
      (t.program ++ " writes in place but no scratch file exists")) := by
  intro h
  rcases misconfigured_of_invoke h with ⟨-, hc⟩ | ⟨w, hw⟩
  · obtain ⟨rest, hreason⟩ := (placeholderFault_of_commandLine hc).uses
    rw [ToolFault.misconfigured.injEq] at hreason
    have hlist := congrArg String.toList hreason
    simp [String.toList_append] at hlist
  · rw [CommandLine.unquotable, ToolFault.misconfigured.injEq] at hw
    have hlist := congrArg String.toList hw
    simp [String.toList_append] at hlist

/-- A tool that lacks a scratch file changes nothing and starts no program. -/
theorem invoke_of_lacksScratch {q : Path} (hfile : r.filePath = some q) (h : t.LacksScratch) :
    t.invoke b r v = (.error t.inputUnfilled, v) := by
  obtain ⟨hinput, houtput, harg⟩ := h
  unfold invoke
  rw [usesScratch_eq_false_iff.2 ⟨hinput, houtput⟩, if_neg Bool.false_ne_true]
  refine perform_of_error ?_
  rw [(commandLine_eq_error_iff_of_file hfile).2 ⟨harg, rfl⟩]
  rfl

/-- When placeholders are at fault. A command line cannot be built exactly if an argument has a
placeholder that nothing stands for, and the fault is that of the first such argument. A command
line that is built keeps the program, has a word for each fixed argument, and behind them the words
of the options as they are. In a run, a tool fails because of placeholders exactly if it lacks a
scratch file that it is to be told of. Then no program is started, nothing is changed, and the run
ends there. -/
theorem placeholder_faults (t : ToolSetup) (r : Request) (scratch : Option Path) (b : Workbench σ)
    (transformers : ByStage (Transformer σ)) (o : StageOptions) (context : RunContext)
    (skipFormat : Bool) (source : Source) (w : σ) :
    ((∃ fault, t.commandLine r scratch = .error fault) ↔
      scratch = none ∧ ((∃ arg ∈ t.args, Mentions "\x7binput\x7d" arg) ∨
        r.filePath = none ∧ ∃ arg ∈ t.args, Mentions "\x7bfilepath\x7d" arg)) ∧
    (∀ fault, t.commandLine r scratch = .error fault →
      ∃ before arg after, t.args = before ++ arg :: after ∧
        (∀ a ∈ before, ¬ Unfillable r scratch a) ∧ Unfillable r scratch arg ∧
        fault = if Mentions "\x7binput\x7d" arg then
            .misconfigured
              (t.program ++ " uses " ++ "\x7binput\x7d" ++ " but reads its input from stdin")
          else .misconfigured
            (t.program ++ " uses " ++ "\x7bfilepath\x7d" ++ " but no file path is known")) ∧
    (∀ c, t.commandLine r scratch = .ok c → c.program = t.program ∧ ∃ words,
      List.Forall₂ (fun arg word => t.fill r scratch arg = .ok word) t.args words ∧
      c.args = words ++ if t.forwardOptions then r.options.words else []) ∧
    ∀ a ∈ Pipeline.asks transformers o context skipFormat source w,
      transformers.get a.stage = t.invoke b →
      (∀ v, (∃ fault, t.PlaceholderFault fault ∧ (t.invoke b a.request v).1 = .error fault) ↔
        t.LacksScratch) ∧
      (t.LacksScratch →
        (∀ v log, t.invoke b.noting a.request (v, log) = (.error t.inputUnfilled, v, log)) ∧
        ((Pipeline.ofTransformers transformers o skipFormat).run context source w).1.outcome =
          .error ⟨a.stage,
            t.program ++ " uses " ++ "\x7binput\x7d" ++ " but reads its input from stdin"⟩ ∧
        ∃ before, Pipeline.asks transformers o context skipFormat source w = before ++ [a]) := by
  refine ⟨?_, fun fault => commandLine_eq_error_iff.1, fun c => commandLine_eq_ok_iff.1, ?_⟩
  · rw [exists_commandLine_error_iff]
    constructor
    · rintro ⟨arg, harg, hnone, hinput | ⟨hfile, hmark⟩⟩
      · exact ⟨hnone, .inl ⟨arg, harg, hinput⟩⟩
      · exact ⟨hnone, .inr ⟨hfile, arg, harg, hmark⟩⟩
    · rintro ⟨hnone, ⟨arg, harg, hinput⟩ | ⟨hfile, arg, harg, hmark⟩⟩
      · exact ⟨arg, harg, hnone, .inl hinput⟩
      · exact ⟨arg, harg, hnone, .inr ⟨hfile, hmark⟩⟩
  · intro a ha htool
    obtain ⟨q, hfile⟩ := Pipeline.exists_filePath_of_mem_asks ha
    refine ⟨fun v => ⟨?_, fun hlacks => ?_⟩, fun hlacks => ⟨fun v log => ?_, ?_⟩⟩
    · rintro ⟨fault, hfault, h⟩
      exact lacksScratch_of_placeholderFault hfile hfault h
    · exact ⟨_, .inl rfl, by rw [invoke_of_lacksScratch hfile hlacks]⟩
    · exact invoke_of_lacksScratch hfile hlacks
    · have hfails : ∀ u, (transformers.get a.stage a.request u).1 = .error t.inputUnfilled := by
        intro u
        rw [htool, invoke_of_lacksScratch hfile hlacks]
      exact (Pipeline.settles_asks transformers o context skipFormat source w).last_of_fails ha
        hfails

/-- A workbench on which there is no room for scratch files, and every program is silent. -/
def bareBench : Workbench Unit where
  create := fun _ _ w => (.error .notText, w)
  launch := fun _ _ _ w => (.ok ⟨some 0, [], []⟩, w)
  recover := fun _ _ => .error .notText
  discard := fun _ w => w

/-- A tool that is to be told of a scratch file, and works on none. -/
def scratchless : ToolSetup := { program := "tool", args := ["\x7binput\x7d"] }

/-- Where a run of it begins and where its result would go. -/
def scratchlessRun : RunContext := ⟨.zero, .ofString "a.cjsx", .ofString "a.jsx"⟩

/-- A tool that lacks a scratch file ends a run at its first stage. -/
theorem scratchless_ends_run :
    ((Pipeline.ofTransformers (.replicate (scratchless.invoke bareBench)) .none false).run
        scratchlessRun ⟨.ofString "a.cjsx", "x"⟩ ()).1.outcome =
      .error ⟨.macroStrip, "tool uses \x7binput\x7d but reads its input from stdin"⟩ := by
  have hlacks : scratchless.LacksScratch :=
    ⟨rfl, rfl, "\x7binput\x7d", List.mem_singleton_self _, List.infix_rfl⟩
  have hanswer : scratchless.invoke bareBench
      (Pipeline.asked .none scratchlessRun "x" .macroStrip) () =
        (.error scratchless.inputUnfilled, ()) :=
    invoke_of_lacksScratch (q := .ofString "a.cjsx") rfl hlacks
  have hhalts : Pipeline.Halts (.replicate (scratchless.invoke bareBench)) .none scratchlessRun
      (Pipeline.needed false) "x" ()
      [⟨.macroStrip, Pipeline.asked .none scratchlessRun "x" .macroStrip⟩]
      ⟨.macroStrip, scratchless.inputUnfilled.diagnostic⟩ () :=
    .here hanswer
  have hasks := (((Pipeline.settles_asks _ _ _ _ ⟨.ofString "a.cjsx", "x"⟩ _).halts_iff _ _ _).1
    hhalts).2.1
  obtain ⟨-, -, -, hrun⟩ := placeholder_faults scratchless ⟨"x", .empty, none⟩ none bareBench
    (.replicate (scratchless.invoke bareBench)) .none scratchlessRun false
    ⟨.ofString "a.cjsx", "x"⟩ ()
  rw [hasks] at hrun
  exact ((hrun _ (List.mem_singleton_self _) rfl).2 hlacks).2.1

end ToolSetup
end CjsxConversion
