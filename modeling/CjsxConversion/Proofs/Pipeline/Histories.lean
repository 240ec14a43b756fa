import CjsxConversion.Proofs.Pipeline.Composition

/-!
# The histories of a run

A run is kept as the states that were visited, as one record for each stage that was reached, as
events, and as its outcome. All four are made of the same thing: which stages succeeded, one after
the other, with which texts, and which one failed, if one did.

`Told` relates records to the events that belong to them, given the texts that were
handed on. `passedStages` and `handedOn` read off the requests of a run which stages succeeded and
what they handed on. `Run.Coherent` is what the four histories have to do with each other.

Main results:
* `Halts.exists_passes`: before a stage fails, the stages before it succeed.
* `follow_of_passes`: stages that succeed put their part of each history before that of the rest.
* `run_of_settled`: what the histories of a run are made of, once its outcome is settled.
* `Settles.coherent`: histories that are made of this agree.
* `run_histories_agree`: the histories of every run agree.
-/

namespace CjsxConversion

/-- The events that belong to records, where the stages that succeeded handed on given texts. -/
inductive Told : List StageRecord → List String → List Happening → Prop
  | nil : Told [] [] []
  | passed (s : Stage) (out : String) {records : List StageRecord} {texts : List String}
      {happenings : List Happening} (rest : Told records texts happenings) :
      Told (⟨s, .ok, none⟩ :: records) (out :: texts)
        (.stageStarted s :: .stageCompleted s (Utf8.encode out).length :: happenings)
  | failed (s : Stage) (message : String) {records : List StageRecord} {texts : List String}
      {happenings : List Happening} (rest : Told records texts happenings) :
      Told (⟨s, .fail, some message⟩ :: records) texts
        (.stageStarted s :: .stageFailed s message :: happenings)
  | leftOut (s : Stage) {records : List StageRecord} {texts : List String}
      {happenings : List Happening} (rest : Told records texts happenings) :
      Told (⟨s, .skip, none⟩ :: records) texts (.stageSkipped s :: happenings)

/-- What is told of two parts of a run, one after the other. -/
theorem Told.append {records records' : List StageRecord} {texts texts' : List String}
    {happenings happenings' : List Happening} (h : Told records texts happenings)
    (h' : Told records' texts' happenings') :
    Told (records ++ records') (texts ++ texts') (happenings ++ happenings') := by
  induction h with
  | nil => exact h'
  | passed s out rest ih => exact .passed s out ih
  | failed s message rest ih => exact .failed s message ih
  | leftOut s rest ih => exact .leftOut s ih

/-- The events tell of a failed stage exactly where a record does. -/
theorem Told.stageFailed_mem_iff {records : List StageRecord} {texts : List String}
    {happenings : List Happening} (h : Told records texts happenings) (s : Stage)
    (message : String) :
    .stageFailed s message ∈ happenings ↔ ⟨s, .fail, some message⟩ ∈ records := by
  induction h with
  | nil => simp
  | passed s' out rest ih => simp [ih]
  | failed s' message' rest ih => simp [ih]
  | leftOut s' rest ih => simp [ih]

/-- The names of the events that belong to a record. -/
def StageRecord.eventNames (e : StageRecord) : List String :=
  match e.status with
  | .ok => ["stage.started", "stage.completed"]
  | .fail => ["stage.started", "stage.failed"]
  | .skip => ["stage.skipped"]

theorem Told.map_name {records : List StageRecord} {texts : List String}
    {happenings : List Happening} (h : Told records texts happenings) :
    happenings.map Happening.name = records.flatMap StageRecord.eventNames := by
  induction h with
  | nil => rfl
  | passed s out rest ih => simp [ih, StageRecord.eventNames, Happening.name]
  | failed s message rest ih => simp [ih, StageRecord.eventNames, Happening.name]
  | leftOut s rest ih => simp [ih, StageRecord.eventNames, Happening.name]

/-- The stages that succeeded: all that were asked, but not the one that the run ended with. -/
def passedStages (askings : List Asking) : Except StageFailure String → List Stage
  | .ok _ => askings.map Asking.stage
  | .error _ => (askings.map Asking.stage).dropLast

/-- The texts that were handed on: what each stage after the first was asked with, and the
result. -/
def handedOn (askings : List Asking) (outcome : Except StageFailure String) : List String :=
  (askings.map (fun a => a.request.text) ++ outcome.toOption.toList).tail

/-- How the records end. -/
def lastRecords (skipFormat : Bool) : Except StageFailure String → List StageRecord
  | .ok _ => if skipFormat then [⟨.format, .skip, none⟩] else []
  | .error failure => [⟨failure.stage, .fail, some failure.message⟩]

/-- The last event. -/
def lastHappening : Except StageFailure String → Happening
  | .ok _ => .pipelineCompleted
  | .error failure => .pipelineFailed failure.stage

/-- The last state. -/
def lastProgress : Except StageFailure String → Progress
  | .ok _ => .done
  | .error _ => .failed

/-- The histories of a run agree with the requests that it made, and so with each other. The states
begin with the first stage, repeat none and end with the only final one. The records are those of
the stages that succeeded, then one of a failure or of formatting that was left out. The events are
those of the records between a first and a last one, go by the names that these call for, and all
bear the mark of the context. A failure is that of the only failed record, of the only event of a
failed stage, and of the stage halted at. -/
structure Run.Coherent (skipFormat : Bool) (c : RunContext) (source : Source)
    (askings : List Asking) (r : Run) : Prop where
  starts : r.states.head? = some (.awaiting .macroStrip)
  nodup : r.states.Nodup
  ends : ∃ visited, r.states = visited ++ [r.lastState] ∧ r.lastState.isFinal = true ∧
    ∀ p ∈ visited, p.isFinal = false
  in_order : passedStages askings r.outcome <+: Stage.all
  records_eq : r.records = (passedStages askings r.outcome).map (fun s => ⟨s, .ok, none⟩) ++
    lastRecords skipFormat r.outcome
  skip_iff : ⟨.format, .skip, none⟩ ∈ r.records ↔
    skipFormat = true ∧
      passedStages askings r.outcome = [.macroStrip, .dialectConvert, .elementSyntax]
  marked : r.id = c.id ∧ ∀ e ∈ r.events, e.run = c.id
  events_eq : ∃ told, Told r.records (handedOn askings r.outcome) told ∧
    r.events = (.pipelineStarted source.path c.output :: told ++ [lastHappening r.outcome]).map
      (Event.mk c.id)
  names_eq : r.events.map Event.name =
    "pipeline.started" :: r.records.flatMap StageRecord.eventNames ++
      [if r.succeeded then "pipeline.completed" else "pipeline.failed"]
  succeeded_iff_done : r.succeeded = true ↔ r.lastState = .done
  succeeded_iff_unfailed : r.succeeded = true ↔ ∀ e ∈ r.records, e.status ≠ .fail
  succeeded_iff_completed : r.succeeded = true ↔
    r.events.getLast? = some ⟨c.id, .pipelineCompleted⟩
  failure_eq : ∀ failure, r.outcome = .error failure →
    r.records.filter (fun e => e.status = .fail) =
        [⟨failure.stage, .fail, some failure.message⟩] ∧
      (∀ s message, ⟨c.id, .stageFailed s message⟩ ∈ r.events ↔
        s = failure.stage ∧ message = failure.message) ∧
      r.events.getLast? = some ⟨c.id, .pipelineFailed failure.stage⟩ ∧
      r.haltedAt failure.stage = true

namespace Pipeline

variable {σ : Type} {t : ByStage (Transformer σ)} {o : StageOptions} {c : RunContext}

@[simp] theorem asked_text (text : String) (s : Stage) : (asked o c text s).text = text := by
  cases s <;> rfl

/-- Before a stage fails, the stages before it succeed. -/
theorem Halts.exists_passes {ss : List Stage} {text : String} {w u : σ} {askings : List Asking}
    {failure : StageFailure} (h : Halts t o c ss text w askings failure u) :
    ∃ passed s rest before mid v fault, ss = passed ++ s :: rest ∧
      Passes t o c passed text w before mid v ∧
      t.get s (asked o c mid s) v = (.error fault, u) ∧
      askings = before ++ [⟨s, asked o c mid s⟩] ∧ failure = ⟨s, fault.diagnostic⟩ := by
  induction h with
  | @here s rest text w v fault answer =>
    exact ⟨[], s, rest, [], text, w, fault, rfl, .nil text w, answer, rfl, rfl⟩
  | @later s rest text out w v u askings failure answer halts ih =>
    obtain ⟨passed, s', rest', before, mid, v', fault, hss, hpasses, hfault, hask, hfail⟩ := ih
    refine ⟨s :: passed, s', rest', ⟨s, asked o c text s⟩ :: before, mid, v', fault, ?_,
      .cons answer hpasses, hfault, ?_, hfail⟩
    · rw [hss, List.cons_append]
    · rw [hask, List.cons_append]

/-- Stages that succeed are asked with the first text, then with what they hand on. -/
theorem Passes.texts_eq {ss : List Stage} {text mid : String} {w v : σ} {askings : List Asking}
    (h : Passes t o c ss text w askings mid v) :
    askings.map (fun a => a.request.text) ++ [mid] =
      text :: (askings.map (fun a => a.request.text) ++ [mid]).tail := by
  cases h with
  | nil => rfl
  | cons answer passes => simp

/-- Stages that succeed put their part of each history before that of the rest. -/
theorem follow_of_passes {skipFormat : Bool} {passed : List Stage} {text mid : String} {w v : σ}
    {askings : List Asking} (h : Passes t o c passed text w askings mid v)
    (hkept : ∀ s ∈ passed, s.isLeftOut skipFormat = false) (rest : List Stage) :
    ∃ told, Told (passed.map fun s => ⟨s, .ok, none⟩)
        (askings.map (fun a => a.request.text) ++ [mid]).tail told ∧
      (ofTransformers t o skipFormat).follow c (passed ++ rest) text w =
        (let r := (ofTransformers t o skipFormat).follow c rest mid v
        (⟨r.1.id, passed.map .awaiting ++ r.1.states,
          passed.map (fun s => ⟨s, .ok, none⟩) ++ r.1.records,
          told.map (Event.mk c.id) ++ r.1.events, r.1.outcome⟩, r.2)) := by
  induction h with
  | nil text w => exact ⟨[], .nil, rfl⟩
  | @cons s ss text out mid w v u askings answer passes ih =>
    obtain ⟨told, htold, hfollow⟩ := ih fun s' hs' => hkept s' (by simp [hs'])
    have hs : s.isLeftOut skipFormat = false := hkept s (by simp)
    refine ⟨.stageStarted s :: .stageCompleted s (Utf8.size out) :: told, ?_, ?_⟩
    · have htexts := passes.texts_eq
      rw [List.map_cons, List.map_cons, List.cons_append, List.tail_cons, htexts]
      exact .passed s out htold
    · rw [List.cons_append, follow_of_ok _ c hs _ (step_of_ok t o c skipFormat answer), hfollow]
      rfl

/-- Behind the stages that are needed, what is left out is noted, and the run is done. -/
theorem follow_leftOut (p : Pipeline σ) (text : String) (w : σ) :
    ∃ told, Told (lastRecords p.skipFormat (.ok text)) [] told ∧
      p.follow c (Stage.all.filter fun s => s.isLeftOut p.skipFormat) text w =
        (⟨c.id, [.done], lastRecords p.skipFormat (.ok text),
          (told ++ [Happening.pipelineCompleted]).map (Event.mk c.id), .ok text⟩, w) := by
  cases hskip : p.skipFormat with
  | false => exact ⟨[], .nil, rfl⟩
  | true =>
    refine ⟨[.stageSkipped .format], .leftOut .format .nil, ?_⟩
    have hout : Stage.isLeftOut p.skipFormat .format = true := by
      simp [Stage.isLeftOut, Stage.isOptional, hskip]
    have hlast : (Stage.all.filter fun s => s.isLeftOut true) = [.format] := by decide
    rw [hlast, follow_of_leftOut p c hout, follow_nil]
    rfl

theorem needed_append_leftOut (skipFormat : Bool) :
    needed skipFormat ++ Stage.all.filter (fun s => s.isLeftOut skipFormat) = Stage.all := by
  cases skipFormat <;> decide

theorem isLeftOut_of_mem_needed {skipFormat : Bool} {s : Stage} (h : s ∈ needed skipFormat) :
    s.isLeftOut skipFormat = false := by
  rw [needed_eq_filter] at h
  simpa using (List.mem_filter.1 h).2

/-- What the histories of a run are made of, once its outcome is settled. -/
theorem run_of_settled {skipFormat : Bool} {source : Source} {w v : σ} {askings : List Asking}
    {outcome : Except StageFailure String}
    (h : Settles t o c (needed skipFormat) source.text w askings v outcome) :
    ∃ told,
      Told ((passedStages askings outcome).map (fun s => ⟨s, .ok, none⟩) ++
        lastRecords skipFormat outcome) (handedOn askings outcome) told ∧
      (ofTransformers t o skipFormat).run c source w =
        (⟨c.id, (askings.map Asking.stage).map .awaiting ++ [lastProgress outcome],
          (passedStages askings outcome).map (fun s => ⟨s, .ok, none⟩) ++
            lastRecords skipFormat outcome,
          (.pipelineStarted source.path c.output :: told ++ [lastHappening outcome]).map
            (Event.mk c.id), outcome⟩, v) := by
  rw [run_eq_follow]
  cases outcome with
  | ok mid =>
    have hpasses : Passes t o c (needed skipFormat) source.text w askings mid v := h
    obtain ⟨told, htold, hfollow⟩ := follow_of_passes hpasses
      (fun s hs => isLeftOut_of_mem_needed hs)
      (Stage.all.filter fun s => s.isLeftOut skipFormat)
    obtain ⟨rest, hrest, hlast⟩ := follow_leftOut (c := c) (ofTransformers t o skipFormat) mid v
    have hstages : passedStages askings (.ok mid) = needed skipFormat := hpasses.map_stage
    refine ⟨told ++ rest, ?_, ?_⟩
    · rw [hstages]
      simpa [handedOn, Except.toOption, ofTransformers] using htold.append hrest
    · rw [needed_append_leftOut] at hfollow
      have hlast' : (ofTransformers t o skipFormat).follow c
          (Stage.all.filter fun s => s.isLeftOut skipFormat) mid v = _ := hlast
      rw [hfollow, hlast', hstages, hpasses.map_stage]
      simp [lastProgress, lastHappening, ofTransformers]
  | error failure =>
    obtain ⟨passed, s, rest, before, mid, v', fault, hss, hpasses, hfault, rfl, rfl⟩ :=
      Halts.exists_passes h
    have hkept : ∀ s' ∈ passed ++ s :: rest, s'.isLeftOut skipFormat = false :=
      fun s' hs' => isLeftOut_of_mem_needed (hss ▸ hs')
    obtain ⟨told, htold, hfollow⟩ := follow_of_passes hpasses
      (fun s' hs' => hkept s' (by simp [hs']))
      (s :: rest ++ Stage.all.filter fun s => s.isLeftOut skipFormat)
    have hall : passed ++ (s :: rest ++ Stage.all.filter fun s => s.isLeftOut skipFormat) =
        Stage.all := by
      rw [← List.append_assoc, ← hss, needed_append_leftOut]
    have hstages : before.map Asking.stage = passed := hpasses.map_stage
    refine ⟨told ++ [.stageStarted s, .stageFailed s fault.diagnostic], ?_, ?_⟩
    · have hlast : Told [⟨s, .fail, some fault.diagnostic⟩] []
          [.stageStarted s, .stageFailed s fault.diagnostic] := .failed s _ .nil
      simpa [passedStages, handedOn, lastRecords, hstages, Except.toOption] using htold.append hlast
    · rw [hall] at hfollow
      rw [hfollow, List.cons_append, follow_of_error _ c (hkept s (by simp)) _
        (step_of_error t o c skipFormat hfault)]
      simp [passedStages, lastRecords, lastProgress, lastHappening, hstages]

section Agreement

variable {skipFormat : Bool} {source : Source} {w v : σ} {askings : List Asking}
  {outcome : Except StageFailure String} {told : List Happening}

/-- A run that ends with a failure has asked the stages that succeeded and the one that failed. -/
theorem Settles.stages_of_error {failure : StageFailure}
    (h : Settles t o c (needed skipFormat) source.text w askings v (.error failure)) :
    askings.map Asking.stage = passedStages askings (.error failure) ++ [failure.stage] := by
  obtain ⟨passed, s, rest, before, mid, v', fault, hss, hpasses, hfault, rfl, rfl⟩ :=
    Halts.exists_passes h
  simp [passedStages]

/-- The first stage is always asked first. -/
theorem Settles.stages_eq_cons
    (h : Settles t o c (needed skipFormat) source.text w askings v outcome) :
    ∃ rest, askings.map Asking.stage = .macroStrip :: rest := by
  have hne : askings.map Asking.stage ≠ [] := by
    cases outcome with
    | ok mid =>
      have hstages : askings.map Asking.stage = needed skipFormat := Passes.map_stage h
      cases skipFormat <;> simp [hstages, needed]
    | error failure => simp [h.stages_of_error]
  obtain ⟨s, rest, hcons⟩ := List.exists_cons_of_ne_nil hne
  obtain ⟨after, hafter⟩ := h.stages_in_order
  have hfirst : (needed skipFormat).head? = some s := by
    rw [← hafter, hcons]
    rfl
  have hneeded : (needed skipFormat).head? = some .macroStrip := by cases skipFormat <;> rfl
  rw [hneeded] at hfirst
  exact ⟨rest, by rw [hcons, Option.some.inj hfirst]⟩

theorem Settles.passedStages_prefix
    (h : Settles t o c (needed skipFormat) source.text w askings v outcome) :
    passedStages askings outcome <+: needed skipFormat := by
  cases outcome with
  | ok mid => exact h.stages_in_order
  | error failure => exact (List.dropLast_prefix _).trans h.stages_in_order

theorem Settles.nodup_stages
    (h : Settles t o c (needed skipFormat) source.text w askings v outcome) :
    (askings.map Asking.stage).Nodup := by
  have hneeded : (needed skipFormat).Nodup := by cases skipFormat <;> decide
  exact h.stages_in_order.sublist.nodup hneeded

/-- Formatting is recorded as left out exactly if it is to be and all other stages succeeded. -/
theorem Settles.skip_iff
    (h : Settles t o c (needed skipFormat) source.text w askings v outcome) :
    ⟨.format, .skip, none⟩ ∈ (passedStages askings outcome).map (fun s => ⟨s, .ok, none⟩) ++
        lastRecords skipFormat outcome ↔
      skipFormat = true ∧
        passedStages askings outcome = [.macroStrip, .dialectConvert, .elementSyntax] := by
  cases outcome with
  | ok mid =>
    have hstages : passedStages askings (.ok mid) = needed skipFormat := Passes.map_stage h
    rw [hstages]
    cases skipFormat <;> simp [lastRecords, needed]
  | error failure =>
    -- The failed stage is needed too, so not all stages that are needed succeeded.
    have hshort : ¬ (skipFormat = true ∧ passedStages askings (.error failure) =
        [.macroStrip, .dialectConvert, .elementSyntax]) := by
      rintro ⟨rfl, hpassed⟩
      have hlength := h.stages_in_order.length_le
      rw [h.stages_of_error, hpassed] at hlength
      simp [needed] at hlength
    simp [hshort, lastRecords]

/-- The histories that a settled run is made of agree. -/
theorem Settles.coherent
    (h : Settles t o c (needed skipFormat) source.text w askings v outcome)
    (htold : Told ((passedStages askings outcome).map (fun s => ⟨s, .ok, none⟩) ++
      lastRecords skipFormat outcome) (handedOn askings outcome) told) :
    Run.Coherent skipFormat c source askings
      ⟨c.id, (askings.map Asking.stage).map .awaiting ++ [lastProgress outcome],
        (passedStages askings outcome).map (fun s => ⟨s, .ok, none⟩) ++
          lastRecords skipFormat outcome,
        (.pipelineStarted source.path c.output :: told ++ [lastHappening outcome]).map
          (Event.mk c.id), outcome⟩ where
  starts := by
    obtain ⟨rest, hrest⟩ := h.stages_eq_cons
    simp [hrest]
  nodup := by
    have hvisited : ((askings.map Asking.stage).map Progress.awaiting).Nodup :=
      List.pairwise_map.2 (h.nodup_stages.imp fun hne heq => hne (Progress.awaiting.inj heq))
    refine List.nodup_append.2 ⟨hvisited, by simp, ?_⟩
    cases outcome <;> simp [lastProgress]
  ends := by
    refine ⟨(askings.map Asking.stage).map .awaiting, by simp [Run.lastState], ?_, ?_⟩
    · cases outcome <;> simp [Run.lastState, lastProgress, Progress.isFinal]
    · intro p hp
      obtain ⟨s, -, rfl⟩ := List.mem_map.1 hp
      rfl
  in_order := by
    refine h.passedStages_prefix.trans ?_
    cases skipFormat <;> decide
  records_eq := rfl
  skip_iff := h.skip_iff
  marked := ⟨rfl, fun e he => by
    obtain ⟨h, -, rfl⟩ := List.mem_map.1 he
    rfl⟩
  events_eq := ⟨told, htold, rfl⟩
  names_eq := by
    simp only [List.map_map, Event.name, Function.comp_def, List.map_cons, List.map_append,
      htold.map_name, List.cons_append]
    cases outcome <;> rfl
  succeeded_iff_done := by
    cases outcome <;> simp [Run.succeeded, Run.lastState, lastProgress]
  succeeded_iff_unfailed := by
    cases outcome with
    | ok mid =>
      refine iff_of_true rfl fun e he => ?_
      rcases List.mem_append.1 he with he | he
      · obtain ⟨s, -, rfl⟩ := List.mem_map.1 he
        simp
      · cases skipFormat <;> simp_all [lastRecords]
    | error failure => simp [Run.succeeded, lastRecords]
  succeeded_iff_completed := by
    rw [List.getLast?_map, List.getLast?_concat]
    cases outcome <;> simp [Run.succeeded, lastHappening]
  failure_eq := by
    intro failure hfailure
    have houtcome : outcome = .error failure := hfailure
    subst houtcome
    refine ⟨by simp [lastRecords], ?_, by rw [List.getLast?_map, List.getLast?_concat]; rfl, ?_⟩
    · intro s message
      have hmem := htold.stageFailed_mem_iff s message
      have hmark (hs : List Happening) :
          ⟨c.id, .stageFailed s message⟩ ∈ hs.map (Event.mk c.id) ↔
            .stageFailed s message ∈ hs := by
        simp
      simp only [hmark, List.mem_append, List.mem_cons, List.not_mem_nil, or_false, reduceCtorEq,
        false_or, lastHappening, hmem]
      simp [lastRecords]
    · have hfinal : [Progress.failed].filterMap Progress.stage? = [] := rfl
      simp [Run.haltedAt, Run.lastState, lastProgress, h.stages_of_error, Progress.stage?, hfinal]

end Agreement

variable (t o c) in
/-- The states, records, events and outcome of every run agree, whatever the transformers do:
noting what they are asked gives the same run, with requests that its histories agree with. -/
theorem run_histories_agree (skipFormat : Bool) (source : Source) (w : σ) :
    ∃ (run : Run) (v : σ) (askings : List Asking),
      (ofTransformers t o skipFormat).run c source w = (run, v) ∧
      (ofTransformers (noting t) o skipFormat).run c source (w, []) = (run, v, askings) ∧
      Settles t o c (needed skipFormat) source.text w askings v run.outcome ∧
      run.Coherent skipFormat c source askings := by
  obtain ⟨askings, hnoted, hsettled⟩ := follow_noting t o c skipFormat Stage.all source.text w []
  rw [← needed_eq_filter] at hsettled
  obtain ⟨told, htold, hrun⟩ := run_of_settled hsettled
  refine ⟨_, _, askings, hrun, ?_, hsettled, hsettled.coherent htold⟩
  have hsame := (run_eq_follow (ofTransformers t o skipFormat) c source w).symm.trans hrun
  rw [run_eq_follow, hnoted, List.nil_append]
  exact congrArg (fun p => (p.1, p.2, askings)) hsame

end Pipeline
end CjsxConversion
