import CjsxConversion.Pipeline.Assembly
import CjsxConversion.Proofs.Pipeline.Composition

/-!
# Placing stages

A pipeline is assembled by placing stages one after the other, in any order and as often as one
likes. Only what is placed last for a stage counts, and a stage for which nothing is placed is
missing.

`PlacedLast` says which placement of a row counts, without slots. `inTurn` composes the
steps of some stages, without the states of a run.

Main results:
* `get_placeAll_of_absent`, `get_placeAll_of_last`: what a row of placements leaves in a slot.
* `build_eq_ok_iff`, `build_eq_error_iff`: when an assembly is complete, and what is missing if not.
* `run_eq_inTurn`: a run does what the steps of the needed stages do in turn.
* `assembled_of_placements`: which pipeline comes of a row of placements, if one does.
-/

namespace CjsxConversion

/-- What was placed last for a stage: whatever was placed after it is for other stages. -/
def PlacedLast {α : Type} (placements : List (Stage × α)) (s : Stage) (a : α) : Prop :=
  ∃ before after, placements = before ++ (s, a) :: after ∧ ∀ e ∈ after, e.1 ≠ s

/-- The stages for which nothing was placed, in their own order, each with its name. -/
def unplaced {α : Type} (placements : List (Stage × α)) : List (Stage × String) :=
  [(.macroStrip, "macro_strip"), (.dialectConvert, "dialect_convert"),
    (.elementSyntax, "ast_rewrite"), (.format, "format")].filter
      fun e => e.1 ∉ placements.map Prod.fst

section PlacedLast

variable {α : Type} {placements other : List (Stage × α)} {s : Stage} {a b : α}

theorem PlacedLast.mem (h : PlacedLast placements s a) : (s, a) ∈ placements := by
  obtain ⟨before, after, rfl, -⟩ := h
  simp

theorem exists_placedLast (h : s ∈ placements.map Prod.fst) : ∃ a, PlacedLast placements s a := by
  induction placements with
  | nil => simp at h
  | cons e rest ih =>
    by_cases hrest : s ∈ rest.map Prod.fst
    · obtain ⟨a, before, after, rfl, hafter⟩ := ih hrest
      exact ⟨a, e :: before, after, rfl, hafter⟩
    · obtain ⟨t, a⟩ := e
      have hst : s = t := by
        rcases List.mem_cons.1 h with hst | hmem
        · exact hst
        · exact absurd hmem hrest
      subst hst
      refine ⟨a, [], rest, rfl, ?_⟩
      intro e he hes
      exact hrest (List.mem_map.2 ⟨e, he, hes⟩)

/-- Where nothing is placed twice, what is placed counts. -/
theorem placedLast_iff_mem (hnodup : (placements.map Prod.fst).Nodup) :
    PlacedLast placements s a ↔ (s, a) ∈ placements := by
  constructor
  · exact PlacedLast.mem
  · intro h
    obtain ⟨before, after, rfl⟩ := List.append_of_mem h
    refine ⟨before, after, rfl, ?_⟩
    intro e he hes
    rw [List.map_append, List.map_cons] at hnodup
    obtain ⟨hfresh, -⟩ := List.nodup_cons.1 (List.nodup_append.1 hnodup).2.1
    exact hfresh (List.mem_map.2 ⟨e, he, hes⟩)

/-- Stages that are each placed once may be placed in any order. -/
theorem placedLast_of_perm (hperm : other.Perm placements)
    (hnodup : (placements.map Prod.fst).Nodup) (s : Stage) (a : α) :
    PlacedLast other s a ↔ PlacedLast placements s a := by
  have hnodup' : (other.map Prod.fst).Nodup := (hperm.map Prod.fst).nodup_iff.2 hnodup
  rw [placedLast_iff_mem hnodup, placedLast_iff_mem hnodup', hperm.mem_iff]

end PlacedLast

namespace Assembly

variable {α : Type} {p : Assembly α} {placements other : List (Stage × α)} {s : Stage} {a : α}

theorem get_place (p : Assembly α) (s t : Stage) (a : α) :
    (p.place s a).slots.get t = if t = s then some a else p.slots.get t :=
  ByStage.get_set _ _ _ _

theorem placeAll_append (p : Assembly α) (before after : List (Stage × α)) :
    p.placeAll (before ++ after) = (p.placeAll before).placeAll after :=
  List.foldl_append

/-- A slot for which nothing is placed is left as it is. -/
theorem get_placeAll_of_absent (p : Assembly α) (h : ∀ e ∈ placements, e.1 ≠ s) :
    (p.placeAll placements).slots.get s = p.slots.get s := by
  induction placements generalizing p with
  | nil => rfl
  | cons e rest ih =>
    have he : s ≠ e.1 := (h e List.mem_cons_self).symm
    calc ((p.place e.1 e.2).placeAll rest).slots.get s
        = (p.place e.1 e.2).slots.get s := ih _ fun q hq => h q (List.mem_cons_of_mem e hq)
      _ = p.slots.get s := by rw [get_place, if_neg he]

/-- What is placed last for a stage is what its slot holds. -/
theorem get_placeAll_of_last (p : Assembly α) (h : PlacedLast placements s a) :
    (p.placeAll placements).slots.get s = some a := by
  obtain ⟨before, after, rfl, hafter⟩ := h
  calc (p.placeAll (before ++ (s, a) :: after)).slots.get s
      = (((p.placeAll before).place s a).placeAll after).slots.get s := by
        rw [placeAll_append]
        rfl
    _ = ((p.placeAll before).place s a).slots.get s := get_placeAll_of_absent _ hafter
    _ = some a := by rw [get_place, if_pos rfl]

theorem get_empty (s : Stage) : (empty : Assembly α).slots.get s = none :=
  ByStage.get_ofFn _ s

/-- Of a row of placements, a slot holds what was placed last for its stage. -/
theorem get_placeAll_eq_some_iff :
    (empty.placeAll placements).slots.get s = some a ↔ PlacedLast placements s a := by
  constructor
  · intro h
    by_cases hs : s ∈ placements.map Prod.fst
    · obtain ⟨b, hb⟩ := exists_placedLast hs
      rw [get_placeAll_of_last _ hb] at h
      cases h
      exact hb
    · have habsent : ∀ e ∈ placements, e.1 ≠ s := fun e he hes =>
        hs (List.mem_map.2 ⟨e, he, hes⟩)
      rw [get_placeAll_of_absent _ habsent, get_empty] at h
      cases h
  · exact get_placeAll_of_last _

/-- Of a row of placements, the slots of the stages that it has nothing for are empty. -/
theorem get_placeAll_eq_none_iff :
    (empty.placeAll placements).slots.get s = none ↔ s ∉ placements.map Prod.fst := by
  rw [Option.eq_none_iff_forall_ne_some]
  constructor
  · intro h hs
    obtain ⟨a, ha⟩ := exists_placedLast hs
    exact h a (get_placeAll_eq_some_iff.2 ha)
  · intro h a ha
    exact h (List.mem_map.2 ⟨(s, a), (get_placeAll_eq_some_iff.1 ha).mem, rfl⟩)

/-- Of a row of placements, the stages that it has nothing for are missing. -/
theorem missing_placeAll :
    (empty.placeAll placements).missing =
      Stage.all.filter fun s => s ∉ placements.map Prod.fst := by
  unfold missing
  refine List.filter_congr fun s _ => ?_
  rw [Bool.eq_iff_iff, Option.isNone_iff_eq_none, get_placeAll_eq_none_iff, decide_eq_true_iff]

/-- An assembly is complete exactly if every slot is filled, and then each stage has what its
slot holds. -/
theorem build_eq_ok_iff {b : ByStage α} :
    p.build = .ok b ↔ ∀ s, p.slots.get s = some (b.get s) := by
  constructor
  · intro h s
    unfold build at h
    split at h
    · next heq =>
      cases h
      rw [heq]
      cases s <;> rfl
    · cases h
  · intro h
    obtain ⟨⟨macroStrip, dialectConvert, elementSyntax, format⟩⟩ := p
    obtain rfl : macroStrip = _ := h .macroStrip
    obtain rfl : dialectConvert = _ := h .dialectConvert
    obtain rfl : elementSyntax = _ := h .elementSyntax
    obtain rfl : format = _ := h .format
    rfl

theorem exists_build_iff : (∃ b, p.build = .ok b) ↔ ∀ s, p.slots.get s ≠ none := by
  constructor
  · rintro ⟨b, hb⟩ s
    rw [build_eq_ok_iff.1 hb s]
    nofun
  · intro h
    have hfilled : ∀ s, (p.slots.get s).isSome = true := fun s => Option.isSome_iff_ne_none.2 (h s)
    refine ⟨.ofFn fun s => (p.slots.get s).get (hfilled s), build_eq_ok_iff.2 fun s => ?_⟩
    rw [ByStage.get_ofFn, Option.some_get]

/-- An assembly that is not complete is refused with the stages whose slots are empty. -/
theorem build_eq_error_iff {fault : AssemblyFault} :
    p.build = .error fault ↔ (∃ s, p.slots.get s = none) ∧ fault = missingFault p.missing := by
  have herror : ∀ other, p.build = .error other → other = missingFault p.missing := by
    intro other h
    unfold build at h
    split at h
    · cases h
    · cases h
      rfl
  have hempty : (∃ s, p.slots.get s = none) ↔ ¬ ∃ b, p.build = .ok b := by
    simp only [exists_build_iff, ne_eq, Classical.not_forall, Classical.not_not]
  rw [hempty]
  constructor
  · intro h
    refine ⟨?_, herror fault h⟩
    rintro ⟨b, hb⟩
    cases h.symm.trans hb
  · rintro ⟨hnone, rfl⟩
    cases h : p.build with
    | ok b => exact absurd ⟨b, h⟩ hnone
    | error other => rw [herror other h]

theorem unplaced_eq :
    unplaced placements = (empty.placeAll placements).missing.map fun s => (s, s.name) := by
  have hall : unplaced placements = (Stage.all.map fun s => (s, s.name)).filter
      fun e => e.1 ∉ placements.map Prod.fst := rfl
  rw [hall, missing_placeAll, List.filter_map]
  rfl

/-- The fault of missing stages lists them, and says so. -/
theorem eq_missingFault_iff {fault : AssemblyFault} :
    fault = missingFault (empty.placeAll placements).missing ↔
      fault.stages = (unplaced placements).map Prod.fst ∧
      fault.message = "Pipeline is missing stages: " ++
        String.intercalate ", " ((unplaced placements).map Prod.snd) := by
  have hstages : (unplaced placements).map Prod.fst = (empty.placeAll placements).missing := by
    simp [unplaced_eq, Function.comp_def]
  have hnames : (unplaced placements).map Prod.snd =
      (empty.placeAll placements).missing.map Stage.name := by
    simp [unplaced_eq, Function.comp_def]
  rw [hstages, hnames]
  constructor
  · rintro rfl
    exact ⟨rfl, rfl⟩
  · rintro ⟨hlist, hmessage⟩
    cases fault
    cases hlist
    cases hmessage
    rfl

/-- Rows of placements in which the same counts for every stage are assembled alike. -/
theorem build_placeAll_congr (h : ∀ s a, PlacedLast other s a ↔ PlacedLast placements s a) :
    (empty.placeAll other).build = (empty.placeAll placements).build := by
  have hslots : (empty.placeAll other).slots = (empty.placeAll placements).slots := by
    have hget : ∀ s, (empty.placeAll other).slots.get s = (empty.placeAll placements).slots.get s :=
      fun s => Option.ext fun a => by rw [get_placeAll_eq_some_iff, get_placeAll_eq_some_iff, h]
    calc (empty.placeAll other).slots
        = .ofFn (empty.placeAll other).slots.get := rfl
      _ = .ofFn (empty.placeAll placements).slots.get := by rw [funext hget]
      _ = (empty.placeAll placements).slots := rfl
  unfold build missing
  rw [hslots]

end Assembly

namespace Pipeline

variable {σ : Type}

/-- A step as a program that can fail. -/
def program (steps : ByStage (Step σ)) (c : RunContext) (text : String) (s : Stage) :
    ExceptT StageFailure (StateM σ) String := fun w => steps.get s c text w

/-- The steps of some stages in turn, each with the text that the one before it gave, until one of
them fails. -/
def inTurn (steps : ByStage (Step σ)) (c : RunContext) (ss : List Stage) (text : String) :
    ExceptT StageFailure (StateM σ) String :=
  ss.foldlM (program steps c) text

theorem inTurn_of_ok {steps : ByStage (Step σ)} {c : RunContext} {s : Stage} {text out : String}
    {w v : σ} (h : steps.get s c text w = (.ok out, v)) (rest : List Stage) :
    (inTurn steps c (s :: rest) text).run w = (inTurn steps c rest out).run v := by
  have hs : program steps c text s w = (.ok out, v) := h
  simp only [inTurn, List.foldlM_cons, ExceptT.run, bind, ExceptT.bind, ExceptT.mk, StateT.bind]
  rw [hs]
  rfl

theorem inTurn_of_error {steps : ByStage (Step σ)} {c : RunContext} {s : Stage} {text : String}
    {failure : StageFailure} {w v : σ} (h : steps.get s c text w = (.error failure, v))
    (rest : List Stage) : (inTurn steps c (s :: rest) text).run w = (.error failure, v) := by
  have hs : program steps c text s w = (.error failure, v) := h
  simp only [inTurn, List.foldlM_cons, ExceptT.run, bind, ExceptT.bind, ExceptT.mk, StateT.bind]
  rw [hs]
  rfl

variable (p : Pipeline σ) (c : RunContext)

theorem follow_eq_inTurn (ss : List Stage) (text : String) (w : σ) :
    ((p.follow c ss text w).1.outcome, (p.follow c ss text w).2) =
      (inTurn p.steps c (ss.filter fun s => !s.isLeftOut p.skipFormat) text).run w := by
  induction ss generalizing text w with
  | nil => rfl
  | cons s rest ih =>
    cases hs : s.isLeftOut p.skipFormat with
    | true =>
      rw [follow_of_leftOut p c hs, List.filter_cons_of_neg (by simp [hs]), ← ih]
    | false =>
      rw [List.filter_cons_of_pos (by simp [hs])]
      cases h : p.steps.get s c text w with
      | mk answer v =>
        cases answer with
        | ok out => rw [follow_of_ok p c hs rest h, inTurn_of_ok h, ← ih]
        | error failure => rw [follow_of_error p c hs rest h, inTurn_of_error h]

/-- A run does what the steps of the needed stages do in turn. -/
theorem run_eq_inTurn (source : Source) (w : σ) :
    ((p.run c source w).1.outcome, (p.run c source w).2) =
      (inTurn p.steps c (needed p.skipFormat) source.text).run w := by
  rw [run_eq_follow, needed_eq_filter, ← follow_eq_inTurn]

/-- The pipeline of stages that are placed one after the other. -/
def assembled (placements : List (Stage × Step σ)) (skipFormat : Bool) :
    Except AssemblyFault (Pipeline σ) :=
  (Assembly.empty.placeAll placements).build.map fun steps => ⟨steps, skipFormat⟩

theorem assembled_eq_ok_iff {placements : List (Stage × Step σ)} {skipFormat : Bool} :
    assembled placements skipFormat = .ok p ↔
      p.skipFormat = skipFormat ∧ ∀ s, PlacedLast placements s (p.steps.get s) := by
  have hbuild : (∀ s, PlacedLast placements s (p.steps.get s)) ↔
      (Assembly.empty.placeAll placements).build = .ok p.steps := by
    simp only [Assembly.build_eq_ok_iff, Assembly.get_placeAll_eq_some_iff]
  obtain ⟨steps, skip⟩ := p
  rw [hbuild]
  unfold assembled
  cases (Assembly.empty.placeAll placements).build with
  | error fault => simp [Except.map]
  | ok b => simp [Except.map, and_comm, eq_comm]

/-- Which pipeline comes of a row of placements. There is one exactly if something was placed
for every stage. It takes every source through the needed stages in turn, and at each of them does
the step that was placed last for it. Rows in which the same steps count make the same runs, and a
row in which no stage is repeated may be put into any order. Otherwise the fault names the stages
for which nothing was placed, in their own order. -/
theorem assembled_of_placements (placements : List (Stage × Step σ)) (skipFormat : Bool) :
    ((∃ p, assembled placements skipFormat = .ok p) ↔ ∀ s, s ∈ placements.map Prod.fst) ∧
    (∀ p, assembled placements skipFormat = .ok p →
      (∀ s, PlacedLast placements s (p.steps.get s)) ∧
      ∀ c source w, ((p.run c source w).1.outcome, (p.run c source w).2) =
        (inTurn p.steps c (needed skipFormat) source.text).run w) ∧
    (∀ other, (∀ s a, PlacedLast other s a ↔ PlacedLast placements s a) ∨
        (placements.map Prod.fst).Nodup ∧ other.Perm placements →
      ∀ p, assembled placements skipFormat = .ok p →
        ∃ q, assembled other skipFormat = .ok q ∧
          ∀ c source w, q.run c source w = p.run c source w) ∧
    (∀ fault, assembled placements skipFormat = .error fault ↔
      (∃ s, s ∉ placements.map Prod.fst) ∧
      fault.stages = (unplaced placements).map Prod.fst ∧
      fault.message = "Pipeline is missing stages: " ++
        String.intercalate ", " ((unplaced placements).map Prod.snd)) := by
  refine ⟨?_, ?_, ?_, ?_⟩
  · have hplaced : (∃ b, (Assembly.empty.placeAll placements).build = .ok b) ↔
        ∀ s, s ∈ placements.map Prod.fst := by
      simp only [Assembly.exists_build_iff, ne_eq, Assembly.get_placeAll_eq_none_iff,
        Classical.not_not]
    rw [← hplaced]
    unfold assembled
    cases (Assembly.empty.placeAll placements).build <;> simp [Except.map]
  · intro p hp
    obtain ⟨rfl, hlast⟩ := p.assembled_eq_ok_iff.1 hp
    exact ⟨hlast, fun c source w => p.run_eq_inTurn c source w⟩
  · intro other hother p hp
    have hsame : ∀ s a, PlacedLast other s a ↔ PlacedLast placements s a := by
      rcases hother with hsame | ⟨hnodup, hperm⟩
      · exact hsame
      · exact placedLast_of_perm hperm hnodup
    refine ⟨p, ?_, fun c source w => rfl⟩
    rw [← hp]
    unfold assembled
    rw [Assembly.build_placeAll_congr hsame]
  · intro fault
    rw [← Assembly.eq_missingFault_iff]
    have herror : assembled placements skipFormat = .error fault ↔
        (Assembly.empty.placeAll placements).build = .error fault := by
      unfold assembled
      cases (Assembly.empty.placeAll placements).build <;> simp [Except.map]
    simp only [herror, Assembly.build_eq_error_iff, Assembly.get_placeAll_eq_none_iff]

/-- A step that puts a mark behind its text. -/
def marking (mark : String) : Step Unit := fun _ text w => (.ok (text ++ mark), w)

/-- Stages in a row that is out of order, one of them twice. -/
def shuffledPlacements : List (Stage × Step Unit) :=
  [(.format, marking "0"), (.elementSyntax, marking "c"), (.format, marking "d"),
    (.macroStrip, marking "a"), (.dialectConvert, marking "b")]

/-- Stages are run in their own order, and a stage that was placed twice as it was placed last. -/
theorem shuffled_placements_run :
    ∃ p, assembled shuffledPlacements false = .ok p ∧
      (p.run ⟨.zero, ⟨[]⟩, ⟨[]⟩⟩ ⟨⟨[]⟩, ""⟩ ()).1.outcome = .ok "abcd" := by
  obtain ⟨hexists, hruns, -, -⟩ := assembled_of_placements shuffledPlacements false
  obtain ⟨p, hp⟩ := hexists.2 (by intro s; cases s <;> decide)
  obtain ⟨-, hrun⟩ := hruns p hp
  refine ⟨p, hp, ?_⟩
  have hsteps :
      (⟨⟨marking "a", marking "b", marking "c", marking "d"⟩, false⟩ : Pipeline Unit) = p :=
    Except.ok.inj (Eq.trans rfl hp)
  have houtcome := congrArg Prod.fst (hrun ⟨.zero, ⟨[]⟩, ⟨[]⟩⟩ ⟨⟨[]⟩, ""⟩ ())
  rw [← hsteps] at houtcome ⊢
  exact houtcome.trans rfl

end Pipeline
end CjsxConversion
