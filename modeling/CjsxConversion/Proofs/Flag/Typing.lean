import CjsxConversion.Proofs.Flag.Rephrasing
import CjsxConversion.Proofs.Flag.SpelledOut

/-!
# Values that fit their flags

A tool should get values that fit their flags: a toggle is true, an integer flag has an integer, a
flag with listed words has one of these words.

All values have the form of their kind, and a word that is given as such is refused if it is not
listed. A truth value, however, is replaced by the word that is declared for it before anything
looks at the list, and nothing asks of a set of flags that such words are listed. A flag for which
this happens strays.

Main results:
* `Flag.hasForm_of_fit`: what a flag makes of a value has the form of its kind.
* `Flag.listed_or_told_of_fit`: what a flag with listed words makes of a value.
* `FlagSet.conforms_of_listsTruthWords`: if all words for truth values are listed, all values fit.
* `FlagSet.values_fit`: the value of a flag fits exactly if the flag does not stray, and the values
  of a set always fit exactly if all its words for truth values are listed.
-/

namespace CjsxConversion

namespace FlagValue

/-- A value has the form of a kind. Which words are listed, and whether a toggle is true, does not
matter to it. -/
inductive HasForm : FlagValue → FlagKind → Prop
  | toggle (b : Bool) : HasForm (.bool b) .toggle
  | integer (n : Int64) : HasForm (.int n) .integer
  | choice (words : List String) (t : String) : HasForm (.text t) (.choice words)
  | text (t : String) : HasForm (.text t) .text

/-- A value fits a kind as a tool should get it. -/
inductive Fits : FlagValue → FlagKind → Prop
  | toggle : Fits (.bool true) .toggle
  | integer (n : Int64) : Fits (.int n) .integer
  | choice {words : List String} {t : String} (listed : t ∈ words) : Fits (.text t) (.choice words)
  | text (t : String) : Fits (.text t) .text

/-- A truth value, as it is or as a text. -/
def Tells (raw : FlagValue) (b : Bool) : Prop :=
  raw = .bool b ∨ raw = (FlagValue.bool b).asText

variable {k : FlagKind} {v : FlagValue}

theorem HasForm.fits (h : v.HasForm k) (hfalse : v ≠ .bool false)
    (hlisted : ∀ words t, k = .choice words → v = .text t → t ∈ words) : v.Fits k := by
  cases h with
  | toggle b =>
    cases b with
    | false => exact absurd rfl hfalse
    | true => exact .toggle
  | integer n => exact .integer n
  | choice words t => exact .choice (hlisted words t rfl rfl)
  | text t => exact .text t

theorem fits_choice_iff {words : List String} {t : String} :
    (FlagValue.text t).Fits (.choice words) ↔ t ∈ words := by
  constructor
  · rintro ⟨⟩
    assumption
  · exact .choice

end FlagValue

namespace Flag

variable {f : Flag} {raw v : FlagValue} {words : List String}

theorem fitWord_of_tells {w : TruthWords} (htruth : f.truthWords = some w) {b : Bool}
    (h : raw.Tells b) : f.fitWord words raw = .ok (.text (truthWord w b)) := by
  rcases h with rfl | rfl
  · simp [fitWord, htruth]
  · cases b <;> simp [fitWord, htruth, FlagValue.asText, FlagValue.render]

/-- A truth value becomes the word that is declared for it, listed or not. -/
theorem fit_of_tells (hkind : f.kind = .choice words) {w : TruthWords}
    (htruth : f.truthWords = some w) {b : Bool} (h : raw.Tells b) :
    f.fit raw = .ok (.text (truthWord w b)) := by
  have hword : f.fitWord words raw = .ok (.text (truthWord w b)) := fitWord_of_tells htruth h
  simpa [fit, hkind] using hword

theorem listed_or_told_of_fitWord (h : f.fitWord words raw = .ok v) :
    (v = raw ∧ ∃ t ∈ words, v = .text t) ∨
      ∃ w b, f.truthWords = some w ∧ raw.Tells b ∧ v = .text (truthWord w b) := by
  cases htruth : f.truthWords with
  | none =>
    left
    cases raw with
    | bool b => simp [fitWord, htruth] at h
    | int n => simp [fitWord, htruth] at h
    | text t =>
      by_cases ht : t ∈ words
      · have hv : v = .text t := by simpa [fitWord, htruth, ht] using h.symm
        exact ⟨hv, t, ht, hv⟩
      · simp [fitWord, htruth, ht] at h
  | some w =>
    have htold {b : Bool} (hraw : raw.Tells b) :
        ∃ w' b, some w = some w' ∧ raw.Tells b ∧ v = .text (truthWord w' b) := by
      rw [fitWord_of_tells htruth hraw] at h
      exact ⟨w, b, rfl, hraw, (Except.ok.inj h).symm⟩
    cases raw with
    | bool b => exact .inr (htold (.inl rfl))
    | int n => simp [fitWord, htruth] at h
    | text t =>
      by_cases htrue : t = "true"
      · exact .inr (htold (b := true) (.inr (by rw [htrue]; rfl)))
      by_cases hfalse : t = "false"
      · exact .inr (htold (b := false) (.inr (by rw [hfalse]; rfl)))
      left
      by_cases ht : t ∈ words
      · have hv : v = .text t := by simpa [fitWord, htruth, htrue, hfalse, ht] using h.symm
        exact ⟨hv, t, ht, hv⟩
      · simp [fitWord, htruth, htrue, hfalse, ht] at h

/-- What a flag with listed words makes of a value is the value itself, if it is one of them, or
the word for a truth value. -/
theorem listed_or_told_of_fit (hkind : f.kind = .choice words) (h : f.fit raw = .ok v) :
    (v = raw ∧ ∃ t ∈ words, v = .text t) ∨
      ∃ w b, f.truthWords = some w ∧ raw.Tells b ∧ v = .text (truthWord w b) :=
  listed_or_told_of_fitWord (by simpa [fit, hkind] using h)

/-- What a flag makes of a value has the form of its kind. -/
theorem hasForm_of_fit (h : f.fit raw = .ok v) : v.HasForm f.kind := by
  cases hkind : f.kind with
  | toggle =>
    cases raw with
    | bool b =>
      obtain rfl : .bool b = v := by simpa [fit, hkind] using h
      exact .toggle b
    | int n => simp [fit, hkind] at h
    | text t =>
      simp only [fit, hkind] at h
      split at h
      · cases h
        exact .toggle true
      · split at h
        · cases h
          exact .toggle false
        · cases h
  | integer =>
    cases raw with
    | bool b => simp [fit, hkind] at h
    | int n =>
      obtain rfl : .int n = v := by simpa [fit, hkind] using h
      exact .integer n
    | text t =>
      simp only [fit, hkind] at h
      split at h
      · cases h
        exact .integer _
      · cases h
  | choice words =>
    rcases listed_or_told_of_fit hkind h with ⟨-, t, -, rfl⟩ | ⟨w, b, -, -, rfl⟩
    · exact .choice words t
    · exact .choice words _
  | text =>
    cases raw with
    | bool b => simp [fit, hkind] at h
    | int n =>
      obtain rfl : .text (Integer.render n) = v := by simpa [fit, hkind] using h
      exact .text _
    | text t =>
      obtain rfl : .text t = v := by simpa [fit, hkind] using h
      exact .text t

/-- A flag takes a value exactly if its values are no truth values. -/
theorem takesValue_of_hasForm (hform : v.HasForm f.kind) :
    f.takesValue = true ↔ ∀ b, v ≠ .bool b := by
  unfold takesValue
  generalize f.kind = k at hform
  cases hform <;> simp

/-- A value of the form of its kind is accepted as it is, unless the kind lists words. -/
theorem fit_of_hasForm (hform : v.HasForm f.kind) (hunlisted : ∀ words, f.kind ≠ .choice words) :
    f.fit v = .ok v := by
  generalize hkind : f.kind = k at hform
  cases hform with
  | toggle b => simp [fit, hkind]
  | integer n => simp [fit, hkind]
  | choice words t => exact absurd hkind (hunlisted words)
  | text t => simp [fit, hkind]

/-- A flag strays when its settings hold a truth value, and the word for that is not listed. -/
def Strays (settings : Settings) (f : Flag) : Prop :=
  ∃ words w b raw, f.kind = .choice words ∧ f.truthWords = some w ∧
    (if b then w.on else w.off) ∉ words ∧ settings.get? f.settingKey = some raw ∧ raw.Tells b

/-- The words for the truth values of a flag with listed words are among these. -/
def ListsTruthWords (f : Flag) : Prop :=
  ∀ words w, f.kind = .choice words → f.truthWords = some w →
    ∀ b : Bool, (if b then w.on else w.off) ∈ words

theorem ListsTruthWords.not_strays (h : f.ListsTruthWords) (settings : Settings) :
    ¬ f.Strays settings := by
  rintro ⟨words, w, b, raw, hkind, htruth, hout, -⟩
  exact hout (h words w hkind htruth b)

theorem fits_iff_of_fit {settings : Settings} (hraw : settings.get? f.settingKey = some raw)
    (hfit : f.fit raw = .ok v) (hfalse : v ≠ .bool false) :
    v.Fits f.kind ↔ ¬ f.Strays settings := by
  constructor
  · rintro hv ⟨words, w, b, raw', hkind, htruth, hout, hraw', htells⟩
    obtain rfl := Option.some.inj (hraw.symm.trans hraw')
    rw [fit_of_tells hkind htruth htells] at hfit
    cases hfit
    rw [hkind, FlagValue.fits_choice_iff] at hv
    exact hout hv
  · intro hno
    refine (hasForm_of_fit hfit).fits hfalse fun words t hkind ht => ?_
    subst ht
    rcases listed_or_told_of_fit hkind hfit with ⟨-, t', ht', heq⟩ | ⟨w, b, htruth, htells, heq⟩
    · cases heq
      exact ht'
    · cases heq
      by_contra hout
      exact hno ⟨words, w, b, raw, hkind, htruth, hout, hraw, htells⟩

end Flag

namespace FlagSet

variable {s : FlagSet} {settings : Settings} {r : ResolvedFlags}

/-- What switches a toggle off is a toggle. -/
theorem kind_of_negation? {f g : Flag} (h : s.negation? f = some g) : g.kind = .toggle := by
  unfold negation? at h
  split at h
  · obtain ⟨-, hkind⟩ := Option.filter_eq_some_iff.1 h
    simpa using hkind
  · cases h

theorem Means.hasForm {f : Flag} {v : FlagValue} (h : s.Means settings f (some v)) :
    v.HasForm f.kind := by
  cases h with
  | given configured fits holds => exact Flag.hasForm_of_fit fits
  | negated absent member off negates =>
    rw [kind_of_negation? negates]
    exact .toggle true

/-- The value that a flag means fits exactly if the flag does not stray. -/
theorem Means.fits_iff {f : Flag} {v : FlagValue} (h : s.Means settings f (some v)) :
    v.Fits f.kind ↔ ¬ f.Strays settings := by
  cases h with
  | given configured fits holds => exact Flag.fits_iff_of_fit configured fits holds
  | negated absent member off negates =>
    have hkind := kind_of_negation? negates
    constructor
    · rintro - ⟨words, w, b, raw, hchoice, -⟩
      simp [hkind] at hchoice
    · intro _
      rw [hkind]
      exact .toggle

/-- The values of resolved flags fit. -/
def Conforms (s : FlagSet) (r : ResolvedFlags) : Prop :=
  List.Forall₂ (fun f e => ∀ v, e.value = some v → v.Fits f.kind) s.flags r.entries

theorem conforms_single_iff {g : Flag} {v : FlagValue} (hg : g ∈ s.flags) :
    s.Conforms ⟨s.name, s.flags.map (entryOf fun f => if f = g then some v else none)⟩ ↔
      v.Fits g.kind := by
  rw [Conforms, List.forall₂_map_right_iff, List.forall₂_same]
  constructor
  · intro h
    exact h g hg v (by simp [entryOf])
  · intro h f _ w hw
    by_cases hfg : f = g
    · subst hfg
      obtain rfl : v = w := by simpa [entryOf] using hw
      exact h
    · simp [entryOf, hfg] at hw

theorem fits_iff_of_resolve (h : s.resolve settings = .ok r) {f : Flag} (hf : f ∈ s.flags)
    {v : FlagValue} (hv : s.valueAfter settings s.flags f = some v) :
    v.Fits f.kind ↔ ¬ f.Strays settings := by
  have hmeans := means_valueAfter hf (sound_of_resolve h f hf)
  rw [hv] at hmeans
  exact hmeans.fits_iff

/-- The values of resolved flags fit if the words for truth values are listed. -/
theorem conforms_of_listsTruthWords (hlists : ∀ f ∈ s.flags, f.ListsTruthWords)
    (h : s.resolve settings = .ok r) : s.Conforms r := by
  refine (forall₂_entries_iff h _).2 fun f hf v hv => ?_
  exact (fits_iff_of_resolve h hf hv).2 ((hlists f hf).not_strays settings)

/-- The value of a flag fits exactly if the flag does not stray. The values of a set fit,
whatever the settings are, exactly if all its words for truth values are listed. -/
theorem values_fit (s : FlagSet) :
    (∀ settings r, s.resolve settings = .ok r →
      List.Forall₂ (fun f e => e.spelling = f.spelling ∧
        ∀ v, e.value = some v → (v.Fits f.kind ↔ ¬ f.Strays settings)) s.flags r.entries) ∧
    ((∀ settings r, s.resolve settings = .ok r → s.Conforms r) ↔
      ∀ f ∈ s.flags, f.ListsTruthWords) := by
  refine ⟨fun settings r h => ?_, fun h => ?_, fun h settings r => conforms_of_listsTruthWords h⟩
  · exact (forall₂_entries_iff h _).2 fun f hf => ⟨rfl, fun v => fits_iff_of_resolve h hf⟩
  · intro f hf words w hkind htruth b
    have hfit : f.fit (.bool b) = .ok (.text (Flag.truthWord w b)) :=
      Flag.fit_of_tells hkind htruth (.inl rfl)
    have hconforms := h _ _ (resolve_single hf hfit (by simp))
    rwa [conforms_single_iff hf, hkind, FlagValue.fits_choice_iff] at hconforms

/-- A flag with listed words that has kept an old word for true. -/
def outdated : FlagSet where
  name := "prettier"
  version := "3"
  flags := [{ spelling := "--trailing-comma", kind := .choice ["none", "all"],
              truthWords := some ⟨"es5", "none"⟩ }]
  distinct := by decide

/-- The word for true is handed on although it is not listed, and although the flag refuses it as
a word. -/
theorem unlisted_word_handed_on :
    ∃ r, outdated.resolve (.ofList [("trailingComma", .bool true)]) = .ok r ∧
      r.words = ["--trailing-comma", "es5"] ∧ ¬ outdated.Conforms r ∧
      outdated.resolve (.ofList [("trailingComma", .text "es5")]) =
        .error (.notListed "--trailing-comma" "es5" ["none", "all"]) := by
  refine ⟨⟨"prettier", [⟨"--trailing-comma", "trailingComma", some (.text "es5")⟩]⟩, ?_, ?_, ?_, ?_⟩
  · rfl
  · decide
  · intro h
    obtain ⟨hfits, -⟩ := List.forall₂_cons.1 h
    have hlisted := FlagValue.fits_choice_iff.1 (hfits _ rfl)
    simp at hlisted
  · rfl

end FlagSet
end CjsxConversion
