import CjsxConversion.Proofs.Flag.JsonRoundTrip
import CjsxConversion.Proofs.Usage.RoundTrip

/-!
# Toggles of a command line over those of a file

The values of a command line are laid over those of a configuration file key by key. A toggle and
the one that says its opposite have a key each, so what the file says under the one is not touched
by what the command line says under the other, and both can be handed on.

`Reading.Sound` is what holds while arguments are read: whatever has been given is a
parameter of the program, with a value exactly if it takes one. `Flag.IsNamed` says that a flag is
among what was given, and `FlagSet.IsPaired` that opposites come in pairs.

Main results:
* `Given.sound_of_ofArguments`: what arguments give is sound.
* `get?_settings_of_sound`: the settings of what was given hold a toggle exactly if it was given.
* `Settings.get?_overlay`: what is found in two layers.
* `FlagSet.forwarded_iff`, `FlagSet.partner_forwarded_iff`: when a toggle is handed on, and when
  the opposite of a toggle that is on is.
* `toggles_over_file`: a toggle that was given is handed on, and its opposite is exactly if it was
  given, too, or the file switches it on.
* `file_toggle_survives`: a toggle of a file that is handed on although its opposite was given.
-/

namespace CjsxConversion

/-! ### What is given -/

/-- An input, or one of some switches. -/
def Parameter.Known (switches : List Switch) : Parameter → Prop
  | .input => True
  | .switch s => s ∈ switches

/-- Something known was given, with a value exactly if it takes one. -/
structure Given.Sound (switches : List Switch) (g : Given) : Prop where
  known : g.parameter.Known switches
  value_eq : g.value.isSome = g.parameter.takesValue

namespace Reading

/-- What has been given is sound, and what has begun is known. -/
structure Sound (switches : List Switch) (r : Reading) : Prop where
  given : ∀ g ∈ r.given, g.Sound switches
  begun : ∀ p value, r.begun = some (p, value) → p.Known switches

variable {switches : List Switch} {r q : Reading} {p : Parameter} {value : Option Octets}

theorem sound_start (switches : List Switch) : start.Sound switches :=
  ⟨by simp [start], by simp [start]⟩

theorem Sound.add (h : r.Sound switches) (hp : p.Known switches) {text : Option String}
    (htext : text.isSome = p.takesValue) : (r.add p text).Sound switches := by
  refine ⟨fun g hg => ?_, h.begun⟩
  rcases List.mem_append.1 hg with hg | hg
  · exact h.given g hg
  · rw [List.mem_singleton.1 hg]
    exact ⟨hp, htext⟩

theorem Sound.record (h : r.Sound switches) (hp : p.Known switches)
    (hrecord : r.record p value = .ok q) : q.Sound switches := by
  unfold Reading.record at hrecord
  split at hrecord
  · cases hrecord
  · next htakes =>
    split at hrecord
    · cases hrecord
    · split at hrecord
      · cases hrecord
        exact h.add hp (by simp [htakes])
      · cases hrecord
  · next htakes =>
    split at hrecord
    · cases hrecord
    · cases hrecord
      exact h.add hp (by simp [htakes])

theorem Sound.settle (h : r.Sound switches) (hsettle : r.settle = .ok q) : q.Sound switches := by
  unfold Reading.settle at hsettle
  split at hsettle
  · cases hsettle
    exact h
  · next p value hbegun =>
    have hidle : ({ r with begun := none } : Reading).Sound switches := ⟨h.given, by simp⟩
    exact hidle.record (h.begun p value hbegun) hsettle

theorem Sound.beginWith (h : r.Sound switches) (hp : p.Known switches)
    (hbegin : r.beginWith p value = .ok q) : q.Sound switches := by
  unfold Reading.beginWith at hbegin
  cases hsettle : r.settle with
  | error stop =>
    rw [hsettle] at hbegin
    cases hbegin
  | ok t =>
    rw [hsettle] at hbegin
    cases hbegin
    refine ⟨(h.settle hsettle).given, fun p' value' hbegun => ?_⟩
    cases hbegun
    exact hp

theorem Sound.give (h : r.Sound switches) {s : Switch} (hs : s ∈ switches)
    (hgive : r.give s value = .ok q) : q.Sound switches := by
  unfold Reading.give at hgive
  cases hsettle : r.settle with
  | error stop =>
    rw [hsettle] at hgive
    cases hgive
  | ok t =>
    rw [hsettle] at hgive
    simp only [Except.bind] at hgive
    split at hgive
    · cases hgive
    · cases hgive
    · exact (h.settle hsettle).record (p := .switch s) hs hgive

theorem Sound.long (h : r.Sound switches) {name : Octets}
    (hlong : r.long switches name value = .ok q) : q.Sound switches := by
  unfold Reading.long at hlong
  split at hlong
  · cases hlong
  · next s hnamed =>
    obtain ⟨text, -, hfind⟩ := Option.bind_eq_some_iff.1 hnamed
    have hs : s ∈ switches := List.mem_of_find?_eq_some hfind
    split at hlong
    · exact h.beginWith (p := .switch s) hs hlong
    · exact h.give hs hlong
    · exact h.give hs hlong
    · cases hlong

theorem Sound.letters {tail : Octets} {cs : List Char} (h : r.Sound switches)
    (hletters : Reading.letters switches tail r cs = .ok q) : q.Sound switches := by
  induction cs generalizing r with
  | nil =>
    rw [Reading.letters] at hletters
    split at hletters
    · cases hletters
      exact h
    · cases hletters
  | cons c cs ih =>
    rw [Reading.letters] at hletters
    split at hletters
    · cases hletters
    · next s hfind =>
      have hs : s ∈ switches := List.mem_of_find?_eq_some hfind
      split at hletters
      · simp only at hletters
        split at hletters
        · exact h.beginWith (p := .switch s) hs hletters
        · exact h.give hs hletters
      · cases hgive : r.give s none with
        | error stop =>
          rw [hgive] at hletters
          cases hletters
        | ok t =>
          rw [hgive] at hletters
          exact ih (h.give hs hgive) hletters

theorem Sound.input (h : r.Sound switches) {b : Octets} (hinput : r.input b = .ok q) :
    q.Sound switches := by
  unfold Reading.input at hinput
  split at hinput
  · cases hinput
  · have hcome : ({ r with hasInput := true } : Reading).Sound switches := ⟨h.given, h.begun⟩
    exact hcome.beginWith (p := .input) trivial hinput

theorem Sound.plain (h : r.Sound switches) {b : Octets} (hplain : r.plain b = .ok q) :
    q.Sound switches := by
  unfold Reading.plain at hplain
  split at hplain
  · next p hbegun =>
    cases hplain
    refine ⟨h.given, fun p' value' hbegun' => ?_⟩
    cases hbegun'
    exact h.begun p none hbegun
  · exact h.input hplain

/-- An argument leaves a sound reading sound. -/
theorem Sound.step (h : r.Sound switches) {b : Octets} (hstep : r.step switches b = .ok q) :
    q.Sound switches := by
  unfold Reading.step at hstep
  split at hstep
  · exact h.input hstep
  · split at hstep
    · cases hstep
      exact ⟨h.given, h.begun⟩
    · exact h.long hstep
    · exact h.letters hstep
    · exact h.plain hstep

/-- Arguments leave a sound reading sound. -/
theorem Sound.run {arguments : List Octets} (h : r.Sound switches)
    (hrun : r.run switches arguments = .ok q) : q.Sound switches := by
  induction arguments generalizing r with
  | nil =>
    cases hrun
    exact h
  | cons b rest ih =>
    rw [Reading.run] at hrun
    cases hstep : r.step switches b with
    | error stop =>
      rw [hstep] at hrun
      cases hrun
    | ok t =>
      rw [hstep] at hrun
      exact ih (h.step hstep) hrun

end Reading

/-- What arguments give is sound. -/
theorem Given.sound_of_ofArguments {c : Catalog} {arguments : List Octets} {gs : List Given}
    (h : ofArguments c arguments = .ok gs) : ∀ g ∈ gs, g.Sound (Switch.all c) := by
  unfold ofArguments at h
  cases hrun : Reading.start.run (Switch.all c) arguments with
  | error stop =>
    rw [hrun] at h
    cases h
  | ok r =>
    have hsound := (Reading.sound_start _).run hrun
    rw [hrun] at h
    simp only [Except.bind, Reading.finish] at h
    cases hsettle : r.settle with
    | error stop =>
      rw [hsettle] at h
      cases h
    | ok q =>
      rw [hsettle] at h
      simp only at h
      split at h
      · cases h
        exact (hsound.settle hsettle).given
      · cases h

/-- A flag is among what was given. -/
def Flag.IsNamed (gs : List Given) (f : Flag) : Prop :=
  ∃ g ∈ gs, g.parameter = .switch (.ofFlag f)

instance (gs : List Given) (f : Flag) : Decidable (f.IsNamed gs) :=
  inferInstanceAs (Decidable (∃ g ∈ gs, g.parameter = .switch (.ofFlag f)))

/-- The switches that hand a flag on are those of the catalog's flags. -/
theorem Switch.eq_ofFlag_of_forward {c : Catalog} {s : Switch} {f : Flag} (hs : s ∈ all c)
    (hpurpose : s.purpose = .forward f) : f ∈ c.flags ∧ s = ofFlag f := by
  simp only [all, List.mem_append, List.mem_map] at hs
  rcases hs with (hs | ⟨g, hg, rfl⟩) | hs
  · have hown : ∀ s ∈ own, ∀ f, s.purpose ≠ .forward f := by simp [own]
    exact absurd hpurpose (hown s hs f)
  · obtain rfl : g = f := Purpose.forward.inj hpurpose
    exact ⟨hg, rfl⟩
  · have hinforming : ∀ s ∈ informing, ∀ f, s.purpose ≠ .forward f := by simp [informing]
    exact absurd hpurpose (hinforming s hs f)

/-- A sound setting is that of a flag of the catalog. -/
theorem Given.Sound.setting_eq {c : Catalog} {g : Given} (h : g.Sound (Switch.all c))
    {e : String × FlagValue} (he : Invocation.setting? g = some e) :
    ∃ f ∈ c.flags, g.parameter = .switch (.ofFlag f) ∧ f.settingKey = e.1 ∧
      (f.kind = .toggle → e.2 = .bool true) := by
  obtain ⟨p, value⟩ := g
  cases p with
  | input => cases he
  | switch s =>
    obtain ⟨f, hpurpose, hkey, htrue⟩ : ∃ f, s.purpose = .forward f ∧ f.settingKey = e.1 ∧
        (value = none → e.2 = .bool true) := by
      simp only [Invocation.setting?] at he
      split at he
      · next f text hpurpose =>
        cases he
        exact ⟨f, hpurpose, rfl, by simp⟩
      · next f hpurpose =>
        cases he
        exact ⟨f, hpurpose, rfl, fun _ => rfl⟩
      · cases he
    obtain ⟨hf, rfl⟩ := Switch.eq_ofFlag_of_forward h.known hpurpose
    refine ⟨f, hf, rfl, hkey, fun hkind => htrue ?_⟩
    have hvalue : value.isSome = f.takesValue := h.value_eq.trans (Switch.takesValue_ofFlag f)
    simpa [Flag.takesValue, hkind] using hvalue

namespace Settings

/-- A key that is given one value only holds it if it is written at all. -/
theorem get?_insertAll_of_const {row : List (String × FlagValue)} {k : String} {v : FlagValue}
    (h : ∀ e ∈ row, e.1 = k → e.2 = v) (s : Settings) :
    (s.insertAll row).get? k = if k ∈ row.map Prod.fst then some v else s.get? k := by
  induction row generalizing s with
  | nil => simp [insertAll]
  | cons e row ih =>
    rw [insertAll_cons, ih fun d hd => h d (List.mem_cons_of_mem e hd), get?_insert]
    by_cases hk : e.1 = k
    · have hv : e.2 = v := h e List.mem_cons_self hk
      simp [hk, hv]
    · have hmem : k ∈ (e :: row).map Prod.fst ↔ k ∈ row.map Prod.fst := by
        rw [List.map_cons, List.mem_cons, or_iff_right (Ne.symm hk)]
      simp only [hk, if_false, hmem]

/-- What is found in two layers: what the upper one holds, or else what the lower one does. -/
theorem get?_overlay (lower upper : Settings) (k : String) :
    (lower.overlay upper).get? k = (upper.get? k).or (lower.get? k) := by
  have hkeys : (upper.entries.map Prod.fst).Nodup :=
    List.pairwise_map.2 (upper.ascending.imp String.ne_of_lt)
  have hupper (v : FlagValue) : upper.get? k = some v ↔ (k, v) ∈ upper.entries := by
    rw [← get?_ofList_eq_some_iff hkeys, ofList_entries]
  have hno : upper.get? k = none ↔ k ∉ upper.entries.map Prod.fst := by
    simp [Option.eq_none_iff_forall_ne_some, hupper]
  refine Option.ext fun v => ?_
  rw [overlay, get?_insertAll_eq_some_iff hkeys, Option.or_eq_some_iff, hupper, hno]

end Settings

/-- The settings of what was given hold a toggle exactly if it was given. -/
theorem get?_settings_of_sound {c : Catalog} (hc : c.Sayable) {gs : List Given}
    (h : ∀ g ∈ gs, g.Sound (Switch.all c)) {f : Flag} (hf : f ∈ c.flags)
    (hkind : f.kind = .toggle) :
    (Invocation.settings gs).get? f.settingKey =
      if f.IsNamed gs then some (.bool true) else none := by
  have hconst : ∀ e ∈ gs.filterMap Invocation.setting?, e.1 = f.settingKey →
      e.2 = .bool true := by
    intro e he hkey
    obtain ⟨g, hg, hsetting⟩ := List.mem_filterMap.1 he
    obtain ⟨f', hf', -, hkey', htoggle⟩ := (h g hg).setting_eq hsetting
    obtain rfl : f' = f := FlagSet.eq_of_settingKey_eq hc.keys hf' hf (hkey'.trans hkey)
    exact htoggle hkind
  have hmem : f.settingKey ∈ (gs.filterMap Invocation.setting?).map Prod.fst ↔
      f.IsNamed gs := by
    rw [List.mem_map]
    constructor
    · rintro ⟨e, he, hkey⟩
      obtain ⟨g, hg, hsetting⟩ := List.mem_filterMap.1 he
      obtain ⟨f', hf', hparameter, hkey', -⟩ := (h g hg).setting_eq hsetting
      obtain rfl : f' = f := FlagSet.eq_of_settingKey_eq hc.keys hf' hf (hkey'.trans hkey)
      exact ⟨g, hg, hparameter⟩
    · rintro ⟨⟨p, value⟩, hg, rfl⟩
      cases value with
      | none => exact ⟨_, List.mem_filterMap.2 ⟨_, hg, rfl⟩, rfl⟩
      | some text => exact ⟨_, List.mem_filterMap.2 ⟨_, hg, rfl⟩, rfl⟩
  have hsettings : Invocation.settings gs = .ofList (gs.filterMap Invocation.setting?) := rfl
  rw [hsettings, Settings.ofList, Settings.get?_insertAll_of_const hconst, Settings.get?_empty]
  simp only [hmem]

/-! ### What is handed on -/

/-- A toggle is on if it is configured as true, or as the text for it. -/
theorem Flag.fit_eq_true_iff {f : Flag} (hkind : f.kind = .toggle) {raw : FlagValue} :
    f.fit raw = .ok (.bool true) ↔ raw = .bool true ∨ raw = .text "true" := by
  cases raw with
  | bool b => simp [fit, hkind]
  | int n => simp [fit, hkind]
  | text t =>
    by_cases htrue : t = "true"
    · simp [fit, hkind, htrue]
    · by_cases hfalse : t = "false" <;> simp [fit, hkind, htrue, hfalse]

namespace FlagSet

variable {s : FlagSet} {settings : Settings} {r : ResolvedFlags} {f g : Flag}

/-- What says the opposite of a flag has that flag as its own opposite. -/
def IsPaired (s : FlagSet) : Prop :=
  ∀ f ∈ s.flags, ∀ g, s.negation? f = some g → s.negation? g = some f

theorem isPaired_of_all
    (h : (s.flags.all fun f => (s.negation? f).all fun g => s.negation? g = some f) = true) :
    s.IsPaired := by
  intro f hf g hg
  have hall := List.all_eq_true.1 h f hf
  simpa [hg] using hall

/-- When a flag is handed on alone: when it is true. -/
theorem forwarded_iff (h : s.resolve settings = .ok r) (hf : f ∈ s.flags) :
    [f.spelling] ∈ r.groups ↔ s.valueAfter settings s.flags f = some (.bool true) := by
  rw [groups_eq_chosen h, List.mem_map]
  constructor
  · rintro ⟨⟨e, v⟩, hv, hwords⟩
    obtain ⟨he, hvalue⟩ := mem_chosen_iff.1 hv
    -- only a true toggle is handed on by one word
    cases v with
    | bool b =>
      cases b with
      | false => simp [ResolvedFlags.wordsOf] at hwords
      | true =>
        have hspelling : e.spelling = f.spelling := by
          simpa [ResolvedFlags.wordsOf] using hwords
        obtain rfl : e = f :=
          eq_of_settingKey_eq s.distinct he hf (congrArg spellingKey hspelling)
        exact hvalue
    | int n => simp [ResolvedFlags.wordsOf] at hwords
    | text t => simp [ResolvedFlags.wordsOf] at hwords
  · intro hvalue
    exact ⟨(f, .bool true), mem_chosen_iff.2 ⟨hf, hvalue⟩, rfl⟩

/-- A flag that is configured as true is handed on. -/
theorem forwarded_of_on (h : s.resolve settings = .ok r) (hf : f ∈ s.flags) {raw : FlagValue}
    (hraw : settings.get? f.settingKey = some raw) (hfit : f.fit raw = .ok (.bool true)) :
    [f.spelling] ∈ r.groups := by
  rw [forwarded_iff h hf]
  simp [valueAfter, hraw, hf, hfit, Except.toOption]

/-- When the opposite of a flag that is on is handed on: when it is on itself. -/
theorem partner_forwarded_iff (hs : s.IsPaired) (h : s.resolve settings = .ok r)
    (hf : f ∈ s.flags) (hon : settings.get? f.settingKey = some (.bool true))
    (hneg : s.negation? f = some g) :
    [g.spelling] ∈ r.groups ↔ ∃ raw, settings.get? g.settingKey = some raw ∧
      g.fit raw = .ok (.bool true) := by
  have hg : g ∈ s.flags := s.mem_of_negation? hneg
  constructor
  · intro hforwarded
    have hmeans := means_valueAfter hg (sound_of_resolve h g hg)
    rw [(forwarded_iff h hg).1 hforwarded] at hmeans
    cases hmeans with
    | given configured fits holds => exact ⟨_, configured, fits⟩
    | @negated e absent member off negates =>
      -- the one flag that says the opposite is on, so nothing makes up for it
      have hback : s.negation? g = some e := hs e member g negates
      obtain rfl : e = f := Option.some.inj (hback.symm.trans (hs f hf g hneg))
      obtain ⟨raw, hraw, hfit⟩ := off
      obtain rfl : FlagValue.bool true = raw := Option.some.inj (hon.symm.trans hraw)
      have hkind : e.kind = .toggle := kind_of_negation? hback
      simp [Flag.fit, hkind] at hfit
  · rintro ⟨raw, hraw, hfit⟩
    exact forwarded_of_on h hg hraw hfit

end FlagSet

/-! ### A command line over a file -/

theorem Catalog.isPaired_builtIn : decaffeinate.IsPaired ∧ prettier.IsPaired :=
  ⟨FlagSet.isPaired_of_all (by decide +kernel), FlagSet.isPaired_of_all (by decide +kernel)⟩

/-- A toggle that was given over other settings, and the one that says its opposite. -/
theorem Catalog.Sayable.toggles_over {c : Catalog} (hc : c.Sayable) {s : FlagSet}
    (hs : s.IsPaired) (hsub : s.flags ⊆ c.flags) {gs : List Given}
    (hgs : ∀ g ∈ gs, g.Sound (Switch.all c)) {lower : Settings} {r : ResolvedFlags}
    (h : s.resolve (lower.overlay (Invocation.settings gs)) = .ok r) {f : Flag}
    (hf : f ∈ s.flags) (hkind : f.kind = .toggle) (hnamed : f.IsNamed gs) :
    [f.spelling] ∈ r.groups ∧ ∀ g, s.negation? f = some g →
      ([g.spelling] ∈ r.groups ↔ g.IsNamed gs ∨ lower.get? g.settingKey = some (.bool true) ∨
        lower.get? g.settingKey = some (.text "true")) := by
  have hon : (lower.overlay (Invocation.settings gs)).get? f.settingKey = some (.bool true) := by
    rw [Settings.get?_overlay, get?_settings_of_sound hc hgs (hsub hf) hkind, if_pos hnamed]
    rfl
  refine ⟨FlagSet.forwarded_of_on h hf hon ((Flag.fit_eq_true_iff hkind).2 (.inl rfl)), ?_⟩
  intro g hneg
  have hg : g ∈ c.flags := hsub (s.mem_of_negation? hneg)
  have hgkind : g.kind = .toggle := FlagSet.kind_of_negation? hneg
  rw [FlagSet.partner_forwarded_iff hs h hf hon hneg, Settings.get?_overlay,
    get?_settings_of_sound hc hgs hg hgkind]
  by_cases hgnamed : g.IsNamed gs
  · simp [hgnamed, Flag.fit_eq_true_iff hgkind]
  · simp [hgnamed, Flag.fit_eq_true_iff hgkind, and_or_left, exists_or]

/-- Toggles of a command line over those of a file. Arguments are laid over a configuration,
and the outcome is accepted. Each toggle that was given is handed on to its tool, as a word of its
own. The toggle that says its opposite has a key of its own, so it is handed on, too, exactly if it
was given as well, or the configuration itself switches it on. -/
theorem toggles_over_file (arguments : List Octets) (gs : List Given) (i : Invocation)
    (base : Configuration) (r : StageOptions)
    (hgiven : Given.ofArguments .builtIn arguments = .ok gs) (hi : Invocation.ofGiven gs = i)
    (hresolve : StageOptions.resolve .builtIn
      (base.overlay i.options i.skipFormat i.eslintFix).options = .ok r) :
    ∀ t ∈ [(Catalog.decaffeinate, r.dialect), (Catalog.prettier, r.format)],
      t.2.groups.flatten = t.2.words ∧
      ∀ f ∈ t.1.flags, f.kind = .toggle → f.IsNamed gs →
        [f.spelling] ∈ t.2.groups ∧ ∀ g, t.1.negation? f = some g →
          ([g.spelling] ∈ t.2.groups ↔ g.IsNamed gs ∨
            base.options.get? g.settingKey = some (.bool true) ∨
            base.options.get? g.settingKey = some (.text "true")) := by
  subst hi
  have hgs := Given.sound_of_ofArguments hgiven
  obtain ⟨hdialect, hformat⟩ := StageOptions.resolve_eq_ok_iff.1 hresolve
  obtain ⟨hpaired, hpaired'⟩ := Catalog.isPaired_builtIn
  intro t ht
  refine ⟨ResolvedFlags.flatten_groups t.2, fun f hf hkind hnamed => ?_⟩
  obtain rfl | rfl : t = (Catalog.decaffeinate, r.dialect) ∨ t = (Catalog.prettier, r.format) := by
    simpa using ht
  · exact Catalog.builtIn_sayable.toggles_over hpaired (List.subset_append_left _ _) hgs hdialect
      hf hkind hnamed
  · exact Catalog.builtIn_sayable.toggles_over hpaired' (List.subset_append_right _ _) hgs hformat
      hf hkind hnamed

/-- A toggle that the file switches off is given, so its opposite is not handed on. -/
theorem toggle_over_false_toggle :
    ∃ gs, Given.ofArguments .builtIn (["a.cjsx", "--bracket-spacing"].map Utf8.encode) = .ok gs ∧
      ∃ r, StageOptions.resolve .builtIn
        (Configuration.overlay { options := .ofList [("bracketSpacing", .bool false)] }
          (Invocation.ofGiven gs).options (Invocation.ofGiven gs).skipFormat
          (Invocation.ofGiven gs).eslintFix).options = .ok r ∧
        ["--bracket-spacing"] ∈ r.format.groups ∧ ["--no-bracket-spacing"] ∉ r.format.groups := by
  obtain ⟨gs, hgiven, ⟨hnamed, hno⟩, r, hr, -⟩ : ∃ gs, Given.ofArguments .builtIn
      (["a.cjsx", "--bracket-spacing"].map Utf8.encode) = .ok gs ∧
      (Flag.bracketSpacing.IsNamed gs ∧ ¬ Flag.noBracketSpacing.IsNamed gs) ∧
      ∃ r, StageOptions.resolve .builtIn
        (Configuration.overlay { options := .ofList [("bracketSpacing", .bool false)] }
          (Invocation.ofGiven gs).options (Invocation.ofGiven gs).skipFormat
          (Invocation.ofGiven gs).eslintFix).options = .ok r ∧ True := by
    decide +kernel
  obtain ⟨-, htoggles⟩ := toggles_over_file _ gs _ _ r hgiven rfl hr (Catalog.prettier, r.format)
    (by simp)
  have hmem : Flag.bracketSpacing ∈ Catalog.prettier.flags := by decide +kernel
  obtain ⟨hforwarded, hpartner⟩ := htoggles Flag.bracketSpacing hmem rfl hnamed
  refine ⟨gs, hgiven, r, hr, hforwarded, fun hopposite => ?_⟩
  have hneg : Catalog.prettier.negation? Flag.bracketSpacing = some Flag.noBracketSpacing := by
    decide +kernel
  have hwhy := (hpartner Flag.noBracketSpacing hneg).1 hopposite
  have habsent : (Settings.ofList [("bracketSpacing", .bool false)]).get?
      Flag.noBracketSpacing.settingKey = none := by decide +kernel
  simp [hno, habsent] at hwhy

/-- A toggle of a file that is handed on although its opposite was given. -/
theorem file_toggle_survives :
    ∃ gs, Given.ofArguments .builtIn (["a.cjsx", "--bracket-spacing"].map Utf8.encode) = .ok gs ∧
      (Flag.bracketSpacing.IsNamed gs ∧ ¬ Flag.noBracketSpacing.IsNamed gs) ∧
      Catalog.prettier.negation? Flag.bracketSpacing = some Flag.noBracketSpacing ∧
      ∃ r, StageOptions.resolve .builtIn
        (Configuration.overlay { options := .ofList [("noBracketSpacing", .bool true)] }
          (Invocation.ofGiven gs).options (Invocation.ofGiven gs).skipFormat
          (Invocation.ofGiven gs).eslintFix).options = .ok r ∧
        r.format.words = ["--bracket-spacing", "--no-bracket-spacing"] := by
  decide +kernel

end CjsxConversion
