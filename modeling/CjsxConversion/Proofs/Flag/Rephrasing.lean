import CjsxConversion.Flag.Catalog
import CjsxConversion.Proofs.Flag.Meaning
import CjsxConversion.Proofs.Text.Trimming

/-!
# Values given as text

A value can be given as it is or as the text that it is written as: `4` or `"4"`, `false` or
`"false"`. A value that is accepted as it is means the same as a text, since every kind of flag
reads the written form of what it accepts back to what it took it for.

Main results:
* `Blank.trim_render`: the written form of an integer has no blanks around it.
* `Flag.fit_asText`: a value that fits a flag fits it as a text too, and comes out the same.
* `resolve_of_rephrased`: any values of accepted settings may be given as texts.
* `resolve_asTexts`: accepted settings mean the same with every value given as a text.
-/

namespace CjsxConversion

/-- Whether something succeeds with a result of a kind. -/
instance decidableExistsOk {ε α : Type} {P : α → Prop} [DecidablePred P] :
    (answer : Except ε α) → Decidable (∃ a, answer = .ok a ∧ P a)
  | .error _ => isFalse fun ⟨_, h, _⟩ => nomatch h
  | .ok a => decidable_of_iff (P a) ⟨fun h => ⟨a, rfl, h⟩, fun ⟨_, h, hp⟩ => Except.ok.inj h ▸ hp⟩

namespace Blank

theorem trim_toDigits (n : Nat) : trim (Nat.toDigits 10 n) = Nat.toDigits 10 n := by
  refine trim_of_no_blank fun c hc => isBlank_of_isDigit ?_
  exact Nat.isDigit_of_mem_toDigits (by decide) (by decide) hc

/-- The written form of an integer has no blanks around it. -/
theorem trim_render (n : Int64) :
    trim (Integer.render n).toList = (Integer.render n).toList := by
  rw [Integer.render, String.toList_ofList]
  cases n.toInt with
  | ofNat m => exact trim_toDigits m
  | negSucc m =>
    refine trim_of_no_blank fun c hc => ?_
    rcases List.mem_cons.1 hc with rfl | hc
    · decide
    · exact isBlank_of_isDigit (Nat.isDigit_of_mem_toDigits (by decide) (by decide) hc)

end Blank

/-- A value as the text that it is written as. -/
def FlagValue.asText (v : FlagValue) : FlagValue := .text v.render

namespace Settings

/-- The same keys, every value given as the text that it is written as. -/
def asTexts (s : Settings) : Settings :=
  ⟨s.entries.map fun e => (e.1, e.2.asText),
    List.pairwise_map.2 (s.ascending.imp fun h => h)⟩

@[simp] theorem get?_asTexts (s : Settings) (k : String) :
    s.asTexts.get? k = (s.get? k).map FlagValue.asText := by
  simp only [get?, asTexts, List.find?_map, Option.map_map]
  rfl

/-- Other settings give the same values, some of them perhaps as texts. -/
def Rephrased (s other : Settings) : Prop :=
  ∀ k, other.get? k = s.get? k ∨ other.get? k = (s.get? k).map FlagValue.asText

theorem rephrased_asTexts (s : Settings) : s.Rephrased s.asTexts :=
  fun k => .inr (s.get?_asTexts k)

theorem rephrased_insert {s : Settings} {k : String} {v : FlagValue} (h : s.get? k = some v) :
    s.Rephrased (s.insert k v.asText) := by
  intro q
  rw [get?_insert]
  by_cases hq : k = q
  · subst hq
    right
    simp [h]
  · left
    simp [hq]

theorem Rephrased.isNone_get? {s other : Settings} (h : s.Rephrased other) (k : String) :
    (other.get? k).isNone = (s.get? k).isNone := by
  rcases h k with hk | hk
  · rw [hk]
  · rw [hk]
    cases s.get? k <;> rfl

end Settings

namespace Flag

variable {f : Flag} {v x : FlagValue}

theorem fit_asText_of_toggle (hkind : f.kind = .toggle) (h : f.fit v = .ok x) :
    f.fit v.asText = .ok x := by
  cases v with
  | bool b => cases b <;> simpa [fit, hkind, FlagValue.asText, FlagValue.render] using h
  | int n => simp [fit, hkind] at h
  | text t => exact h

theorem fit_asText_of_integer (hkind : f.kind = .integer) (h : f.fit v = .ok x) :
    f.fit v.asText = .ok x := by
  cases v with
  | bool b => simp [fit, hkind] at h
  | int n =>
    have hread : Integer.parse? (Blank.trim (Integer.render n).toList) = some n := by
      rw [Blank.trim_render, Integer.parse?_render]
    simpa [fit, hkind, FlagValue.asText, FlagValue.render, hread] using h
  | text t => exact h

theorem fit_asText_of_choice {words : List String} (hkind : f.kind = .choice words)
    (h : f.fit v = .ok x) : f.fit v.asText = .ok x := by
  cases v with
  | bool b =>
    -- Without words for the truth values, a truth value is not accepted at all.
    cases htruth : f.truthWords with
    | none => simp [fit, fitWord, hkind, htruth] at h
    | some w =>
      cases b <;>
        simpa [fit, fitWord, hkind, htruth, FlagValue.asText, FlagValue.render, truthWord] using h
  | int n => cases htruth : f.truthWords <;> simp [fit, fitWord, hkind, htruth] at h
  | text t => exact h

theorem fit_asText_of_text (hkind : f.kind = .text) (h : f.fit v = .ok x) :
    f.fit v.asText = .ok x := by
  cases v with
  | bool b => simp [fit, hkind] at h
  | int n => simpa [fit, hkind, FlagValue.asText, FlagValue.render] using h
  | text t => exact h

/-- A value that fits a flag fits it as a text too, and comes out the same. -/
theorem fit_asText (h : f.fit v = .ok x) : f.fit v.asText = .ok x := by
  cases hkind : f.kind with
  | toggle => exact fit_asText_of_toggle hkind h
  | integer => exact fit_asText_of_integer hkind h
  | choice words => exact fit_asText_of_choice hkind h
  | text => exact fit_asText_of_text hkind h

end Flag

namespace FlagSet

variable {s : FlagSet} {settings other : Settings}

/-- A flag that is accepted changes the entries as it does where values are given as texts. -/
theorem resolveStep_of_rephrased (h : settings.Rephrased other) {f : Flag}
    {entries entries' : List ResolvedFlag}
    (hstep : s.resolveStep settings entries f = .ok entries') :
    s.resolveStep other entries f = .ok entries' := by
  cases hget : settings.get? f.settingKey with
  | none =>
    have hnone : other.get? f.settingKey = none := by simpa [hget] using h f.settingKey
    simpa [resolveStep, hget, hnone] using hstep
  | some raw =>
    cases hfit : f.fit raw with
    | error fault => simp [resolveStep, hget, hfit] at hstep
    | ok v =>
      obtain ⟨raw', hget', hfit'⟩ :
          ∃ raw', other.get? f.settingKey = some raw' ∧ f.fit raw' = .ok v := by
        rcases h f.settingKey with hkept | htext
        · exact ⟨raw, hkept.trans hget, hfit⟩
        · exact ⟨raw.asText, by simp [htext, hget], Flag.fit_asText hfit⟩
      simp only [resolveStep, hget, hfit] at hstep
      simp only [resolveStep, hget', hfit', h.isNone_get?]
      exact hstep

theorem foldlM_resolveStep_of_rephrased (h : settings.Rephrased other) {flags : List Flag}
    {entries entries' : List ResolvedFlag}
    (hfold : flags.foldlM (s.resolveStep settings) entries = .ok entries') :
    flags.foldlM (s.resolveStep other) entries = .ok entries' := by
  induction flags generalizing entries with
  | nil => exact hfold
  | cons f rest ih =>
    rw [List.foldlM_cons] at hfold ⊢
    cases hstep : s.resolveStep settings entries f with
    | error fault =>
      rw [hstep] at hfold
      cases hfold
    | ok next =>
      rw [hstep] at hfold
      rw [resolveStep_of_rephrased h hstep]
      exact ih hfold

/-- Any values of accepted settings may be given as texts. -/
theorem resolve_of_rephrased (h : settings.Rephrased other) {r : ResolvedFlags}
    (hr : s.resolve settings = .ok r) : s.resolve other = .ok r := by
  unfold resolve at hr ⊢
  cases hfold : s.flags.foldlM (s.resolveStep settings) (s.flags.map Flag.blankEntry) with
  | error fault =>
    rw [hfold] at hr
    cases hr
  | ok entries =>
    rw [hfold] at hr
    rw [foldlM_resolveStep_of_rephrased h hfold]
    exact hr

/-- Accepted settings mean the same with every value given as a text, and with any one of
them. -/
theorem resolve_asTexts (s : FlagSet) (settings : Settings) (r : ResolvedFlags)
    (h : s.resolve settings = .ok r) :
    s.resolve settings.asTexts = .ok r ∧
      ∀ k v, settings.get? k = some v → s.resolve (settings.insert k v.asText) = .ok r := by
  constructor
  · exact resolve_of_rephrased settings.rephrased_asTexts h
  · intro k v hk
    exact resolve_of_rephrased (Settings.rephrased_insert hk) h

/-- A toggle that is switched off, an integer, and a truth value for a flag with listed words. -/
def typedSettings : Settings :=
  .ofList [("bracketSpacing", .bool false), ("tabWidth", .int 4), ("trailingComma", .bool true)]

theorem resolve_typedSettings_asTexts :
    ∃ r, Catalog.prettier.resolve typedSettings = .ok r ∧
      r.words = ["--tab-width", "4", "--trailing-comma", "es5", "--no-bracket-spacing"] ∧
      Catalog.prettier.resolve typedSettings.asTexts = .ok r ∧
      Catalog.prettier.resolve (typedSettings.insert "bracketSpacing" (.text "false")) =
        .ok r := by
  obtain ⟨r, hr, hwords⟩ : ∃ r, Catalog.prettier.resolve typedSettings = .ok r ∧
      r.words = ["--tab-width", "4", "--trailing-comma", "es5", "--no-bracket-spacing"] := by
    decide +kernel
  have hresolve := resolve_asTexts Catalog.prettier typedSettings r hr
  exact ⟨r, hr, hwords, hresolve.1, hresolve.2 "bracketSpacing" (.bool false) (by decide)⟩

end FlagSet
end CjsxConversion
