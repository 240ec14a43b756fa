import CjsxConversion.Proofs.Flag.Typing

/-!
# Settings that restate what others resolved to

The values that settings resolved to can be settings themselves. A value that has been fitted to
its flag fits it again and stays what it is, and no flag is off any more, so that such settings
resolve to the same. This asks of listed words for truth values that they are listed, and that
they are not taken for truth values once more.

A toggle that was off is not restated. The one that says its opposite is, as true, unless that one
was off as well. Settings that switch off both come to neither of them.

Main results:
* `Flag.fit_fitted`: a fitted value fits and stays what it is.
* `FlagSet.mem_chosen_of_resolve`: the values that settings resolved to are fitted, and not false.
* `FlagSet.resolve_of_restates`: settings that restate these values resolve to the same.
* `FlagSet.valueAfter_of_negation?`: when the opposite of a toggle that is off is on.
* `FlagSet.resolve_settings`: resolving the values of resolved flags changes nothing.
-/

namespace CjsxConversion

namespace Flag

/-- The words for the truth values are listed, and are not taken for truth values themselves. -/
def hasPlainTruthWords (f : Flag) : Bool :=
  match f.kind, f.truthWords with
  | .choice words, some w =>
    [w.on, w.off].all fun t => words.contains t && !(["true", "false"].contains t)
  | _, _ => true

variable {f : Flag} {raw v : FlagValue}

theorem fitWord_truthWord {words : List String} {w : TruthWords} (hkind : f.kind = .choice words)
    (htruth : f.truthWords = some w) (h : f.hasPlainTruthWords = true) (b : Bool) :
    f.fitWord words (.text (truthWord w b)) = .ok (.text (truthWord w b)) := by
  simp only [hasPlainTruthWords, hkind, htruth, List.all_cons, List.all_nil, Bool.and_true,
    Bool.and_eq_true, Bool.not_eq_true', List.contains_eq_mem, decide_eq_true_eq,
    decide_eq_false_iff_not, List.mem_cons, List.not_mem_nil, or_false] at h
  obtain ⟨⟨hon, hon'⟩, hoff, hoff'⟩ := h
  cases b
  · simp [fitWord, htruth, truthWord, hoff, hoff']
  · simp [fitWord, htruth, truthWord, hon, hon']

/-- A fitted value fits and stays what it is. -/
theorem fit_fitted (h : f.hasPlainTruthWords = true) (hfit : f.fit raw = .ok v) :
    f.fit v = .ok v := by
  by_cases hchoice : ∃ words, f.kind = .choice words
  · obtain ⟨words, hkind⟩ := hchoice
    rcases listed_or_told_of_fit hkind hfit with ⟨rfl, -⟩ | ⟨w, b, htruth, -, rfl⟩
    · exact hfit
    · have hword := fitWord_truthWord hkind htruth h b
      simpa [fit, hkind] using hword
  · exact fit_of_hasForm (hasForm_of_fit hfit) (not_exists.1 hchoice)

end Flag

namespace FlagSet

variable {s : FlagSet} {settings other : Settings} {r : ResolvedFlags}

/-- The flags that get a value, with it. -/
def chosen (s : FlagSet) (settings : Settings) : List (Flag × FlagValue) :=
  s.flags.filterMap fun f => (s.valueAfter settings s.flags f).map fun v => (f, v)

theorem mem_chosen_iff {f : Flag} {v : FlagValue} :
    (f, v) ∈ s.chosen settings ↔ f ∈ s.flags ∧ s.valueAfter settings s.flags f = some v := by
  simp only [chosen, List.mem_filterMap, Option.map_eq_some_iff, Prod.mk.injEq]
  constructor
  · rintro ⟨g, hg, w, hw, rfl, rfl⟩
    exact ⟨hg, hw⟩
  · rintro ⟨hf, hv⟩
    exact ⟨f, hf, v, hv, rfl, rfl⟩

theorem sublist_of_filterMap (value : Flag → Option FlagValue) (flags : List Flag) :
    ((flags.filterMap fun f => (value f).map fun v => (f, v)).map Prod.fst).Sublist flags := by
  induction flags with
  | nil => simp
  | cons f rest ih =>
    cases hv : value f with
    | none => simpa [hv] using ih.cons f
    | some v => simpa [hv] using ih

theorem chosen_sublist (s : FlagSet) (settings : Settings) :
    ((s.chosen settings).map Prod.fst).Sublist s.flags :=
  sublist_of_filterMap _ s.flags

theorem means_of_mem_chosen (h : s.resolve settings = .ok r) {f : Flag} {v : FlagValue}
    (hv : (f, v) ∈ s.chosen settings) : f ∈ s.flags ∧ s.Means settings f (some v) := by
  obtain ⟨hf, hvalue⟩ := mem_chosen_iff.1 hv
  have hmeans := means_valueAfter hf (sound_of_resolve h f hf)
  rw [hvalue] at hmeans
  exact ⟨hf, hmeans⟩

/-- The values that settings resolved to are fitted, and not false. -/
theorem mem_chosen_of_resolve (h : s.resolve settings = .ok r)
    (hwords : ∀ f ∈ s.flags, f.hasPlainTruthWords = true) {f : Flag} {v : FlagValue}
    (hv : (f, v) ∈ s.chosen settings) :
    f ∈ s.flags ∧ f.fit v = .ok v ∧ v ≠ .bool false := by
  obtain ⟨hf, hmeans⟩ := means_of_mem_chosen h hv
  refine ⟨hf, ?_, fun hv => hmeans.ne_false (by rw [hv])⟩
  cases hmeans with
  | given configured fits holds => exact Flag.fit_fitted (hwords f hf) fits
  | negated absent member off negates =>
    have hkind := kind_of_negation? negates
    simp [Flag.fit, hkind]

/-- Settings restate values when they hold something that is fitted to each of them, and nothing
for the other flags. -/
def Restates (s : FlagSet) (chosen : List (Flag × FlagValue)) (other : Settings) : Prop :=
  ∀ f ∈ s.flags, (∀ v, (f, v) ∈ chosen → ∃ raw, other.get? f.settingKey = some raw ∧
    f.fit raw = .ok v) ∧ ((∀ v, (f, v) ∉ chosen) → other.get? f.settingKey = none)

/-- Settings that restate values spell them out. -/
theorem spellsOut_of_restates (h : s.resolve settings = .ok r)
    (hother : s.Restates (s.chosen settings) other) :
    s.SpellsOut (s.valueAfter settings s.flags) other := by
  intro f hf
  obtain ⟨hsome, hnone⟩ := hother f hf
  constructor
  · intro v hv
    have hmem := mem_chosen_iff.2 ⟨hf, hv⟩
    obtain ⟨-, hmeans⟩ := means_of_mem_chosen h hmem
    exact ⟨fun hfalse => hmeans.ne_false (by rw [hfalse]), hsome v hmem⟩
  · intro hv
    exact hnone fun v hmem => by simp [hv, mem_chosen_iff] at hmem

/-- Settings that restate what others resolved to resolve to the same. -/
theorem resolve_of_restates (h : s.resolve settings = .ok r)
    (hother : s.Restates (s.chosen settings) other) : s.resolve other = .ok r := by
  rw [resolve_of_spellsOut (spellsOut_of_restates h hother), eq_entriesAfter_of_resolve h]
  rfl

/-- The values of resolved flags in terms of what was chosen. -/
theorem given_of_resolve (h : s.resolve settings = .ok r) :
    r.given = (s.chosen settings).map fun p => (entryOf (fun _ => some p.2) p.1, p.2) := by
  rw [eq_entriesAfter_of_resolve h]
  simp only [ResolvedFlags.given, entriesAfter, chosen, List.filterMap_map, List.map_filterMap]
  refine List.filterMap_congr fun f _ => ?_
  cases hvalue : s.valueAfter settings s.flags f <;> simp [entryOf, hvalue]

end FlagSet

/-! ### A second resolution -/

namespace Flag

/-- The toggle for spaces between brackets. -/
def bracketSpacing : Flag := Toggle.flag ⟨"--bracket-spacing", "Print spaces between brackets."⟩

/-- The toggle against spaces between brackets. -/
def noBracketSpacing : Flag :=
  Toggle.flag ⟨"--no-bracket-spacing", "Do not print spaces between brackets."⟩

end Flag

/-- The values of resolved flags as settings. -/
def ResolvedFlags.settings (r : ResolvedFlags) : Settings :=
  .ofList (r.given.map fun p => (spellingKey p.1.spelling, p.2))

namespace FlagSet

variable {s : FlagSet} {settings : Settings} {r : ResolvedFlags}

theorem settings_of_resolve (h : s.resolve settings = .ok r) :
    r.settings = .ofList ((s.chosen settings).map fun p => (p.1.settingKey, p.2)) := by
  rw [ResolvedFlags.settings, given_of_resolve h, List.map_map]
  rfl

theorem get?_settings_iff (h : s.resolve settings = .ok r) {key : String} {v : FlagValue} :
    r.settings.get? key = some v ↔ ∃ f, (f, v) ∈ s.chosen settings ∧ f.settingKey = key := by
  have hkeys : (((s.chosen settings).map fun p => (p.1.settingKey, p.2)).map Prod.fst).Nodup := by
    have hsub := (s.chosen_sublist settings).map Flag.settingKey
    simpa [Function.comp_def] using s.distinct.sublist hsub
  rw [settings_of_resolve h, Settings.get?_ofList_eq_some_iff hkeys]
  simp [and_comm]

/-- The values of resolved flags, as settings, hold for each flag the value that it got. -/
theorem get?_settings (h : s.resolve settings = .ok r) {f : Flag} (hf : f ∈ s.flags) :
    r.settings.get? f.settingKey = s.valueAfter settings s.flags f := by
  refine Option.ext fun v => ?_
  rw [get?_settings_iff h]
  constructor
  · rintro ⟨g, hg, hkey⟩
    obtain ⟨hmem, hvalue⟩ := mem_chosen_iff.1 hg
    rwa [← eq_of_settingKey_eq s.distinct hmem hf hkey]
  · intro hvalue
    exact ⟨f, mem_chosen_iff.2 ⟨hf, hvalue⟩, rfl⟩

theorem spellsOut_settings (h : s.resolve settings = .ok r)
    (hwords : ∀ f ∈ s.flags, f.hasPlainTruthWords = true) :
    s.SpellsOut (s.valueAfter settings s.flags) r.settings := by
  intro f hf
  rw [get?_settings h hf]
  refine ⟨fun v hv => ?_, id⟩
  obtain ⟨-, hfit, hfalse⟩ := mem_chosen_of_resolve h hwords (mem_chosen_iff.2 ⟨hf, hv⟩)
  exact ⟨hfalse, v, hv, hfit⟩

/-- A toggle that says the opposite of one that is off is on, unless it is off as well. -/
theorem valueAfter_of_negation? (h : s.resolve settings = .ok r) {f g : Flag} (hf : f ∈ s.flags)
    (hoff : f.IsOff settings) (hneg : s.negation? f = some g) :
    s.valueAfter settings s.flags g = some (.bool true) ↔ ¬ g.IsOff settings := by
  have hg := s.mem_of_negation? hneg
  have hkind := kind_of_negation? hneg
  constructor
  · intro hvalue hgoff
    have hnone := (Means.off (s := s) hgoff).eq_valueAfter hg
    simp [hvalue] at hnone
  · intro hgon
    cases hraw : settings.get? g.settingKey with
    | none => exact ((Means.negated hraw hf hoff hneg).eq_valueAfter hg).symm
    | some raw =>
      cases hfit : g.fit raw with
      | error fault => exact absurd (.misfit hraw hfit) (sound_of_resolve h g hg fault)
      | ok v =>
        have hfalse : v ≠ .bool false := fun hv => hgon ⟨raw, hraw, by rw [hfit, hv]⟩
        have hmeans := (Means.given (s := s) hraw hfit hfalse).eq_valueAfter hg
        have hform := Flag.hasForm_of_fit hfit
        rw [hkind] at hform
        cases hform with
        | toggle b =>
          cases b with
          | false => exact absurd rfl hfalse
          | true => exact hmeans.symm

/-- Resolving once more changes nothing. The values of resolved flags, as settings, hold each
value that was given under the key of its flag, and resolve to the same flags. A toggle that was
off is not among them. The one that says its opposite is there as true, unless it was off as well,
in which case neither is. -/
theorem resolve_settings (s : FlagSet) (settings : Settings) (r : ResolvedFlags)
    (hwords : ∀ f ∈ s.flags, f.hasPlainTruthWords = true) (h : s.resolve settings = .ok r) :
    (∀ key v, r.settings.get? key = some v ↔
      ∃ p ∈ r.given, spellingKey p.1.spelling = key ∧ p.2 = v) ∧
    s.resolve r.settings = .ok r ∧
    ∀ f ∈ s.flags, f.IsOff settings → r.settings.get? f.settingKey = none ∧
      ∃ g ∈ s.flags, s.negation? f = some g ∧
        (r.settings.get? g.settingKey = some (.bool true) ↔ ¬ g.IsOff settings) := by
  refine ⟨fun key v => ?_, ?_, fun f hf hoff => ?_⟩
  · rw [get?_settings_iff h, given_of_resolve h]
    simp [entryOf, Flag.settingKey]
  · rw [resolve_of_spellsOut (spellsOut_settings h hwords), eq_entriesAfter_of_resolve h]
    rfl
  · rw [get?_settings h hf, ← (Means.off (s := s) hoff).eq_valueAfter hf]
    refine ⟨rfl, ?_⟩
    cases hneg : s.negation? f with
    | none => exact absurd (.unsayable hoff hneg) (sound_of_resolve h f hf _)
    | some g =>
      have hg := s.mem_of_negation? hneg
      refine ⟨g, hg, rfl, ?_⟩
      rw [get?_settings h hg, valueAfter_of_negation? h hf hoff hneg]

theorem resolve_typedSettings_again :
    ∃ r, Catalog.prettier.resolve typedSettings = .ok r ∧
      r.settings = .ofList [("noBracketSpacing", .bool true), ("tabWidth", .int 4),
        ("trailingComma", .text "es5")] ∧
      Catalog.prettier.resolve r.settings = .ok r ∧
      r.settings.get? Flag.bracketSpacing.settingKey = none := by
  obtain ⟨r, hr, hsettings⟩ : ∃ r, Catalog.prettier.resolve typedSettings = .ok r ∧
      r.settings = .ofList [("noBracketSpacing", .bool true), ("tabWidth", .int 4),
        ("trailingComma", .text "es5")] := by
    decide +kernel
  obtain ⟨-, hagain, htoggles⟩ :=
    resolve_settings Catalog.prettier typedSettings r (by decide +kernel) hr
  obtain ⟨hnone, -⟩ := htoggles Flag.bracketSpacing (by decide +kernel) (by decide +kernel)
  exact ⟨r, hr, hsettings, hagain, hnone⟩

/-- Of two opposite toggles that are both off, neither is handed on. -/
theorem both_off_unsaid :
    ∃ r, Catalog.prettier.resolve
        (.ofList [("bracketSpacing", .bool false), ("noBracketSpacing", .bool false)]) = .ok r ∧
      (∀ f ∈ Catalog.prettier.flags, f.hasPlainTruthWords = true) ∧
      Flag.bracketSpacing ∈ Catalog.prettier.flags ∧
      Flag.bracketSpacing.IsOff
        (.ofList [("bracketSpacing", .bool false), ("noBracketSpacing", .bool false)]) ∧
      Catalog.prettier.negation? Flag.bracketSpacing = some Flag.noBracketSpacing ∧
      r.settings.get? Flag.noBracketSpacing.settingKey = none := by
  decide +kernel

end FlagSet
end CjsxConversion
