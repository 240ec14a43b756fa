import CjsxConversion.Proofs.Flag.Meaning

/-!
# Settings that spell values out

Settings can give each flag its value directly, so that no flag is off and none has its value from
another one. Then nothing interferes, and they resolve to these values.

Main results:
* `Settings.get?_ofList_eq_some_iff`: what settings hold that are written under distinct keys.
* `FlagSet.resolve_of_spellsOut`: settings that spell values out resolve to these values.
* `FlagSet.resolve_single`: a value for one flag alone is what that flag gets, and no other gets
  any.
* `FlagSet.forall₂_entries_iff`: the entries of resolved flags, flag by flag.
-/

namespace CjsxConversion

namespace Settings

theorem get?_insertAll_eq_some_iff {row : List (String × FlagValue)}
    (hrow : (row.map Prod.fst).Nodup) (s : Settings) {k : String} {v : FlagValue} :
    (s.insertAll row).get? k = some v ↔
      (k, v) ∈ row ∨ k ∉ row.map Prod.fst ∧ s.get? k = some v := by
  induction row generalizing s with
  | nil => simp [insertAll]
  | cons e row ih =>
    obtain ⟨hhead, htail⟩ := List.nodup_cons.1 hrow
    rw [insertAll_cons, ih htail, get?_insert]
    by_cases hk : e.1 = k
    · subst hk
      have hno : (e.1, v) ∉ row := fun hv => hhead (List.mem_map.2 ⟨_, hv, rfl⟩)
      have hhere : (e.1, v) = e ↔ e.2 = v :=
        ⟨fun h => by rw [← h], fun h => by rw [← h]⟩
      simp [hno, hhead, hhere]
    · have hne : (k, v) ≠ e := fun h => hk (by rw [← h])
      simp [hk, Ne.symm hk, hne]

/-- Settings that are written under distinct keys hold what was written. -/
theorem get?_ofList_eq_some_iff {row : List (String × FlagValue)}
    (hrow : (row.map Prod.fst).Nodup) {k : String} {v : FlagValue} :
    (ofList row).get? k = some v ↔ (k, v) ∈ row := by
  rw [ofList, get?_insertAll_eq_some_iff hrow]
  simp

end Settings

namespace FlagSet

variable {s : FlagSet} {settings : Settings} {r : ResolvedFlags} {value : Flag → Option FlagValue}

theorem eq_entriesAfter_of_resolve (h : s.resolve settings = .ok r) :
    r = ⟨s.name, s.entriesAfter settings s.flags⟩ := by
  rw [resolve_of_sound (sound_of_resolve h)] at h
  exact (Except.ok.inj h).symm

/-- The entries of resolved flags, flag by flag. -/
theorem forall₂_entries_iff (h : s.resolve settings = .ok r) (P : Flag → ResolvedFlag → Prop) :
    List.Forall₂ P s.flags r.entries ↔
      ∀ f ∈ s.flags, P f (entryOf (s.valueAfter settings s.flags) f) := by
  rw [eq_entriesAfter_of_resolve h, entriesAfter, List.forall₂_map_right_iff, List.forall₂_same]

/-- Settings spell values out when they hold something that is fitted to each of them, none of
which is false, and nothing for the flags that have no value. -/
def SpellsOut (s : FlagSet) (value : Flag → Option FlagValue) (settings : Settings) : Prop :=
  ∀ f ∈ s.flags,
    (∀ v, value f = some v →
      v ≠ .bool false ∧ ∃ raw, settings.get? f.settingKey = some raw ∧ f.fit raw = .ok v) ∧
    (value f = none → settings.get? f.settingKey = none)

theorem SpellsOut.not_isOff (h : s.SpellsOut value settings) {f : Flag} (hf : f ∈ s.flags) :
    ¬ f.IsOff settings := by
  rintro ⟨raw, hraw, hfit⟩
  obtain ⟨hsome, hnone⟩ := h f hf
  cases hvalue : value f with
  | none => simp [hnone hvalue] at hraw
  | some v =>
    obtain ⟨hfalse, raw', hraw', hfit'⟩ := hsome v hvalue
    obtain rfl := Option.some.inj (hraw.symm.trans hraw')
    exact hfalse (Except.ok.inj (hfit'.symm.trans hfit))

theorem SpellsOut.sound (h : s.SpellsOut value settings) {f : Flag} (hf : f ∈ s.flags) :
    s.Sound settings f := by
  intro fault hfaulty
  obtain ⟨hsome, hnone⟩ := h f hf
  cases hfaulty with
  | misfit configured misfits =>
    cases hvalue : value f with
    | none => simp [hnone hvalue] at configured
    | some v =>
      obtain ⟨-, raw, hraw, hfit⟩ := hsome v hvalue
      obtain rfl := Option.some.inj (configured.symm.trans hraw)
      simp [hfit] at misfits
  | unsayable off unsaid => exact h.not_isOff hf off

theorem SpellsOut.means (h : s.SpellsOut value settings) {f : Flag} (hf : f ∈ s.flags) :
    s.Means settings f (value f) := by
  obtain ⟨hsome, hnone⟩ := h f hf
  cases hvalue : value f with
  | none => exact .unsaid (hnone hvalue) fun e he hoff => absurd hoff (h.not_isOff he)
  | some v =>
    obtain ⟨hfalse, raw, hraw, hfit⟩ := hsome v hvalue
    exact .given hraw hfit hfalse

/-- Settings that spell values out resolve to these values. -/
theorem resolve_of_spellsOut (h : s.SpellsOut value settings) :
    s.resolve settings = .ok ⟨s.name, s.flags.map (entryOf value)⟩ := by
  have hentries : s.entriesAfter settings s.flags = s.flags.map (entryOf value) := by
    refine List.map_congr_left fun f hf => ?_
    rw [entryOf, entryOf, (h.means hf).eq_valueAfter hf]
  rw [resolve_of_sound fun f hf => h.sound hf, hentries]

/-- A value for one flag alone is what that flag gets, and no other gets any. -/
theorem resolve_single {g : Flag} (hg : g ∈ s.flags) {raw v : FlagValue}
    (hfit : g.fit raw = .ok v) (hfalse : v ≠ .bool false) :
    s.resolve (.ofList [(g.settingKey, raw)]) =
      .ok ⟨s.name, s.flags.map (entryOf fun f => if f = g then some v else none)⟩ := by
  have hget (key : String) (x : FlagValue) :
      (Settings.ofList [(g.settingKey, raw)]).get? key = some x ↔
        key = g.settingKey ∧ x = raw := by
    rw [Settings.get?_ofList_eq_some_iff (by simp)]
    simp
  refine resolve_of_spellsOut fun f hf => ?_
  by_cases hfg : f = g
  · subst hfg
    refine ⟨fun w hw => ?_, by simp⟩
    obtain rfl : v = w := by simpa using hw
    exact ⟨hfalse, raw, (hget _ _).2 ⟨rfl, rfl⟩, hfit⟩
  · refine ⟨by simp [hfg], fun _ => ?_⟩
    rw [Option.eq_none_iff_forall_not_mem]
    intro x hx
    exact hfg (eq_of_settingKey_eq s.distinct hf hg ((hget _ _).1 hx).1)

end FlagSet
end CjsxConversion
