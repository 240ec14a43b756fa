import CjsxConversion.Flag.Catalog
import CjsxConversion.Proofs.Flag.Typing
import CjsxConversion.Proofs.Text.Decimal
import Mathlib.Data.List.Nodup

/-!
# Integers given as text

The value of an integer flag may be given as a text. It is accepted exactly if the text says an
integer of 64 bits, with a sign or without, with any number of zeros in front and blanks around.
What is handed on is the integer in its canonical form.

An integer flag is never off and is no negation, so that giving it a value changes its
own entry and nothing else.

Main results:
* `Flag.fit_text_of_integer`: when the text of an integer flag is accepted, and as what.
* `resolve_insert`: a flag that is not off and is given a value changes its own entry alone.
* `resolve_insert_integer`: all texts that say one integer mean the same for an integer flag.
* `integer_texts_read`: which texts are accepted for an integer flag, and what becomes of them.
-/

namespace CjsxConversion

namespace Flag

variable {f : Flag} {t : String} {n : Int64}

/-- The text of an integer flag is accepted exactly as the integer that it says. -/
theorem fit_text_of_integer (hkind : f.kind = .integer) :
    f.fit (.text t) = .ok (.int n) ↔ Integer.Says t n.toInt := by
  rw [← Integer.parse?_trim_eq_some_iff]
  cases hread : Integer.parse? (Blank.trim t.toList) <;> simp [fit, hkind, hread]

theorem fit_text_of_no_integer (hkind : f.kind = .integer)
    (h : ¬ ∃ i, Integer.InRange i ∧ Integer.Says t i) :
    f.fit (.text t) = .error (.notInteger f.spelling t) := by
  have hread := Integer.parse?_trim_eq_none_iff.2 h
  simp [fit, hkind, hread]

end Flag

namespace FlagSet

section Insert

variable {s : FlagSet} {settings : Settings} {f e : Flag} {raw : FlagValue}

theorem settingKey_ne (hf : f ∈ s.flags) (he : e ∈ s.flags) (hne : e ≠ f) :
    f.settingKey ≠ e.settingKey :=
  fun h => hne (eq_of_settingKey_eq s.distinct he hf h.symm)

theorem get?_insert_of_ne (hf : f ∈ s.flags) (he : e ∈ s.flags) (hne : e ≠ f) :
    (settings.insert f.settingKey raw).get? e.settingKey = settings.get? e.settingKey := by
  rw [Settings.get?_insert, if_neg (settingKey_ne hf he hne)]

theorem isOff_insert_of_ne (hf : f ∈ s.flags) (he : e ∈ s.flags) (hne : e ≠ f) :
    e.IsOff (settings.insert f.settingKey raw) ↔ e.IsOff settings := by
  unfold Flag.IsOff
  rw [get?_insert_of_ne hf he hne]

/-- Giving a flag a value makes no other flag faulty. -/
theorem sound_insert_of_ne (hf : f ∈ s.flags) (he : e ∈ s.flags) (hne : e ≠ f)
    (h : s.Sound settings e) : s.Sound (settings.insert f.settingKey raw) e := by
  intro fault hfaulty
  cases hfaulty with
  | misfit configured misfits =>
    rw [get?_insert_of_ne hf he hne] at configured
    exact h fault (.misfit configured misfits)
  | unsayable off unsaid =>
    exact h _ (.unsayable ((isOff_insert_of_ne hf he hne).1 off) unsaid)

/-- A value that does not come out false is accepted. -/
theorem sound_insert_self {v : FlagValue} (hfit : f.fit raw = .ok v) (hv : v ≠ .bool false) :
    s.Sound (settings.insert f.settingKey raw) f := by
  have hget : (settings.insert f.settingKey raw).get? f.settingKey = some raw := by
    rw [Settings.get?_insert, if_pos rfl]
  intro fault hfaulty
  cases hfaulty with
  | misfit configured misfits =>
    rw [hget] at configured
    cases configured
    cases hfit.symm.trans misfits
  | unsayable off unsaid =>
    rw [isOff_of_get? hget, hfit] at off
    exact hv (Except.ok.inj off)

/-- A flag that is off neither before nor after it is given a value changes its own value alone. -/
theorem valueAfter_insert {v : FlagValue} (hf : f ∈ s.flags) (hfit : f.fit raw = .ok v)
    (hv : v ≠ .bool false) (hon : ¬ f.IsOff settings) :
    ∀ e ∈ s.flags, s.valueAfter (settings.insert f.settingKey raw) s.flags e =
      if e = f then some v else s.valueAfter settings s.flags e := by
  have hget : (settings.insert f.settingKey raw).get? f.settingKey = some raw := by
    rw [Settings.get?_insert, if_pos rfl]
  have hon' : ¬ f.IsOff (settings.insert f.settingKey raw) := by
    rw [isOff_of_get? hget, hfit]
    simpa using hv
  have hoff : ∀ e ∈ s.flags,
      (e.IsOff (settings.insert f.settingKey raw) ↔ e.IsOff settings) := by
    intro e he
    by_cases hef : e = f
    · subst hef
      exact iff_of_false hon' hon
    · exact isOff_insert_of_ne hf he hef
  intro e he
  by_cases hef : e = f
  · subst hef
    simp [valueAfter, hget, he, hfit, Except.toOption, hv]
  · have hnegated : (∃ e' ∈ s.flags, e'.IsOff (settings.insert f.settingKey raw) ∧
        s.negation? e' = some e) ↔ ∃ e' ∈ s.flags, e'.IsOff settings ∧ s.negation? e' = some e :=
      exists_congr fun e' => and_congr_right fun he' => by rw [hoff e' he']
    simp only [valueAfter, get?_insert_of_ne hf he hef, if_neg hef, hnegated]

/-- A flag that is not off and is given a value changes its own entry alone. -/
theorem resolve_insert {v : FlagValue} {r : ResolvedFlags} (hr : s.resolve settings = .ok r)
    (hf : f ∈ s.flags) (hv : v ≠ .bool false) (hon : ¬ f.IsOff settings) :
    ∃ before after, r.entries = before ++ entryOf (s.valueAfter settings s.flags) f :: after ∧
      ∀ raw, f.fit raw = .ok v → s.resolve (settings.insert f.settingKey raw) =
        .ok ⟨r.setName, before ++ ⟨f.spelling, f.forwardKey, some v⟩ :: after⟩ := by
  have hsound := sound_of_resolve hr
  rw [resolve_of_sound hsound] at hr
  cases hr
  obtain ⟨before, after, hflags⟩ := List.append_of_mem hf
  have hnodup : (before ++ f :: after).Nodup := hflags ▸ List.Nodup.of_map _ s.distinct
  obtain ⟨-, hfafter, hapart⟩ := List.nodup_append.1 hnodup
  have hbefore : f ∉ before := fun h => hapart f h f List.mem_cons_self rfl
  have hafter : f ∉ after := (List.nodup_cons.1 hfafter).1
  refine ⟨before.map (entryOf (s.valueAfter settings s.flags)),
    after.map (entryOf (s.valueAfter settings s.flags)), ?_, fun raw hfit => ?_⟩
  · rw [entriesAfter, ← List.map_cons, ← List.map_append, ← hflags]
  have hsound' : ∀ e ∈ s.flags, s.Sound (settings.insert f.settingKey raw) e := by
    intro e he
    by_cases hef : e = f
    · subst hef
      exact sound_insert_self hfit hv
    · exact sound_insert_of_ne hf he hef (hsound e he)
  have hvalue := valueAfter_insert hf hfit hv hon
  have hself : entryOf (s.valueAfter (settings.insert f.settingKey raw) s.flags) f =
      ⟨f.spelling, f.forwardKey, some v⟩ := by
    rw [entryOf, hvalue f hf, if_pos rfl]
  have hkept : ∀ es : List Flag, es ⊆ s.flags → f ∉ es →
      es.map (entryOf (s.valueAfter (settings.insert f.settingKey raw) s.flags)) =
        es.map (entryOf (s.valueAfter settings s.flags)) := by
    intro es hes hout
    refine List.map_congr_left fun e he => ?_
    have hef : e ≠ f := fun heq => hout (heq ▸ he)
    rw [entryOf, entryOf, hvalue e (hes he), if_neg hef]
  rw [resolve_of_sound hsound', entriesAfter, ← hkept before (by simp [hflags]) hbefore,
    ← hkept after (by simp [hflags]) hafter, ← hself, ← List.map_cons, ← List.map_append, ← hflags]

/-- A flag whose value does not fit ends the resolution, if the others are accepted. -/
theorem resolve_insert_of_misfit {r : ResolvedFlags} {fault : ConfigFault}
    (hr : s.resolve settings = .ok r) (hf : f ∈ s.flags) (hmisfit : f.fit raw = .error fault) :
    s.resolve (settings.insert f.settingKey raw) = .error fault := by
  have hsound := sound_of_resolve hr
  obtain ⟨before, after, hflags⟩ := List.append_of_mem hf
  have hnodup : (before ++ f :: after).Nodup := hflags ▸ List.Nodup.of_map _ s.distinct
  have hget : (settings.insert f.settingKey raw).get? f.settingKey = some raw := by
    rw [Settings.get?_insert, if_pos rfl]
  refine FirstFault.resolve_eq ⟨before, f, after, hflags, fun e he => ?_, .misfit hget hmisfit⟩
  have hmem : e ∈ s.flags := by simp [hflags, he]
  have hef : e ≠ f := (List.nodup_append.1 hnodup).2.2 e he f List.mem_cons_self
  exact sound_insert_of_ne hf hmem hef (hsound e hmem)

/-- An integer flag that is not configured has no value. -/
theorem valueAfter_of_integer (hkind : f.kind = .integer)
    (habsent : settings.get? f.settingKey = none) : s.valueAfter settings s.flags f = none := by
  have hno : ¬ ∃ e ∈ s.flags, e.IsOff settings ∧ s.negation? e = some f := by
    rintro ⟨e, -, -, hneg⟩
    rw [kind_of_negation? hneg] at hkind
    cases hkind
  simp only [valueAfter, habsent, if_neg hno]

end Insert

end FlagSet

/-- An entry that gets a value adds the words of that value. -/
theorem ResolvedFlags.words_insert (name : String) (before after : List ResolvedFlag)
    (spelling key : String) (v : FlagValue) :
    ∃ first last, words ⟨name, before ++ ⟨spelling, key, none⟩ :: after⟩ = first ++ last ∧
      words ⟨name, before ++ ⟨spelling, key, some v⟩ :: after⟩ =
        first ++ wordsOf spelling v ++ last := by
  refine ⟨words ⟨name, before⟩, words ⟨name, after⟩, ?_, ?_⟩
  · simp [words, given]
  · simp [words, given]

/-- The canonical form of an integer says it. -/
theorem Integer.says_toString (n : Int64) : Says (toString n.toInt) n.toInt := by
  rw [← render_eq_toString, ← parse?_trim_eq_some_iff, Blank.trim_render, parse?_render]

namespace FlagSet

variable {s : FlagSet} {settings : Settings} {f : Flag} {r : ResolvedFlags}

/-- All texts that say one integer mean the same. The integer is the value of its flag, and is
handed on in its canonical form. -/
theorem resolve_insert_integer (hr : s.resolve settings = .ok r) (hf : f ∈ s.flags)
    (hkind : f.kind = .integer) (habsent : settings.get? f.settingKey = none) (n : Int64) :
    ∃ r', (∃ before after,
        r.entries = before ++ ⟨f.spelling, f.ownKey.getD f.settingKey, none⟩ :: after ∧
        r' = ⟨r.setName,
          before ++ ⟨f.spelling, f.ownKey.getD f.settingKey, some (.int n)⟩ :: after⟩) ∧
      (∃ before after, r.words = before ++ after ∧
        r'.words = before ++ [f.spelling, toString n.toInt] ++ after) ∧
      ∀ t, Integer.Says t n.toInt →
        s.resolve (settings.insert f.settingKey (.text t)) = .ok r' := by
  have hon : ¬ f.IsOff settings := not_isOff_of_get? habsent
  obtain ⟨before, after, hentries, hresolve⟩ := resolve_insert (v := .int n) hr hf (by simp) hon
  have hblank : entryOf (s.valueAfter settings s.flags) f = f.blankEntry := by
    rw [entryOf, valueAfter_of_integer hkind habsent, Flag.blankEntry]
  rw [hblank] at hentries
  obtain ⟨first, last, hwords, hwords'⟩ := ResolvedFlags.words_insert r.setName before after
    f.spelling f.forwardKey (.int n)
  rw [← Flag.blankEntry, ← hentries] at hwords
  have hcanonical : ResolvedFlags.wordsOf f.spelling (.int n) =
      [f.spelling, toString n.toInt] := by
    rw [← Integer.render_eq_toString]
    rfl
  rw [hcanonical] at hwords'
  exact ⟨_, ⟨before, after, hentries, rfl⟩, ⟨first, last, hwords, hwords'⟩,
    fun t hsays => hresolve _ ((Flag.fit_text_of_integer hkind).2 hsays)⟩

/-- Which texts are accepted for an integer flag, and what becomes of them. Where the other
settings are accepted, a text is accepted exactly if it says an integer of 64 bits. The entry of the
flag is then that integer, the words that are handed on have its canonical form behind the flag, and
this form is accepted as the same. Every other text is refused as it is, and is not accepted with
any other settings either. -/
theorem integer_texts_read (hr : s.resolve settings = .ok r) (hf : f ∈ s.flags)
    (hkind : f.kind = .integer) (habsent : settings.get? f.settingKey = none) (t : String) :
    ((∃ r', s.resolve (settings.insert f.settingKey (.text t)) = .ok r') ↔
      ∃ i, -2 ^ 63 ≤ i ∧ i ≤ 2 ^ 63 - 1 ∧ Integer.Says t i) ∧
    (∀ i, -2 ^ 63 ≤ i → i ≤ 2 ^ 63 - 1 → Integer.Says t i → ∃ n r', n.toInt = i ∧
      s.resolve (settings.insert f.settingKey (.text t)) = .ok r' ∧
      (∃ before after,
        r.entries = before ++ ⟨f.spelling, f.ownKey.getD f.settingKey, none⟩ :: after ∧
        r' = ⟨r.setName,
          before ++ ⟨f.spelling, f.ownKey.getD f.settingKey, some (.int n)⟩ :: after⟩) ∧
      (∃ before after, r.words = before ++ after ∧
        r'.words = before ++ [f.spelling, toString i] ++ after) ∧
      s.resolve (settings.insert f.settingKey (.text (toString i))) = .ok r') ∧
    ((¬ ∃ i, -2 ^ 63 ≤ i ∧ i ≤ 2 ^ 63 - 1 ∧ Integer.Says t i) →
      s.resolve (settings.insert f.settingKey (.text t)) = .error (.notInteger f.spelling t) ∧
      ∀ other : Settings, other.get? f.settingKey = some (.text t) →
        ∃ fault, s.resolve other = .error fault) := by
  have hrange : ∀ i : Int, -2 ^ 63 ≤ i → i ≤ 2 ^ 63 - 1 → ∃ n : Int64, n.toInt = i :=
    fun i hlow hhigh => ⟨Int64.ofInt i, Integer.toInt_ofInt ⟨hlow, hhigh⟩⟩
  have hrefused : (¬ ∃ i, -2 ^ 63 ≤ i ∧ i ≤ 2 ^ 63 - 1 ∧ Integer.Says t i) →
      f.fit (.text t) = .error (.notInteger f.spelling t) := fun hno =>
    Flag.fit_text_of_no_integer hkind fun ⟨i, hi, hsays⟩ => hno ⟨i, hi.1, hi.2, hsays⟩
  refine ⟨⟨?_, ?_⟩, ?_, fun hno => ⟨resolve_insert_of_misfit hr hf (hrefused hno), ?_⟩⟩
  · rintro ⟨r', hr'⟩
    refine Classical.byContradiction fun hno => ?_
    rw [resolve_insert_of_misfit hr hf (hrefused hno)] at hr'
    cases hr'
  · rintro ⟨i, hlow, hhigh, hsays⟩
    obtain ⟨n, rfl⟩ := hrange i hlow hhigh
    obtain ⟨r', -, -, hresolve⟩ := resolve_insert_integer hr hf hkind habsent n
    exact ⟨r', hresolve t hsays⟩
  · intro i hlow hhigh hsays
    obtain ⟨n, rfl⟩ := hrange i hlow hhigh
    obtain ⟨r', hentries, hwords, hresolve⟩ := resolve_insert_integer hr hf hkind habsent n
    exact ⟨n, r', rfl, hresolve t hsays, hentries, hwords, hresolve _ (Integer.says_toString n)⟩
  · intro other hother
    cases hresolve : s.resolve other with
    | error fault => exact ⟨fault, rfl⟩
    | ok r' => exact absurd (.misfit hother (hrefused hno)) (sound_of_resolve hresolve f hf _)

/-- The least integer of 64 bits is read with zeros in front and blanks around, and without its sign
it is refused. -/
theorem least_width_read :
    ∃ r r', Catalog.prettier.resolve (.ofList [("useTabs", .bool true)]) = .ok r ∧
      Catalog.prettier.resolve ((Settings.ofList [("useTabs", .bool true)]).insert "tabWidth"
        (.text "\u2003-0009223372036854775808\n")) = .ok r' ∧
      (∃ before after, r.words = before ++ after ∧
        r'.words = before ++ ["--tab-width", "-9223372036854775808"] ++ after) ∧
      Catalog.prettier.resolve ((Settings.ofList [("useTabs", .bool true)]).insert "tabWidth"
        (.text "9223372036854775808")) =
          .error (.notInteger "--tab-width" "9223372036854775808") := by
  obtain ⟨r, hr, -⟩ : ∃ r, Catalog.prettier.resolve (.ofList [("useTabs", .bool true)]) = .ok r ∧
      True := by decide +kernel
  obtain ⟨f, hf, hspelling, hkind, hkey⟩ : ∃ f ∈ Catalog.prettier.flags,
      f.spelling = "--tab-width" ∧ f.kind = .integer ∧ f.settingKey = "tabWidth" := by
    decide +kernel
  have habsent : (Settings.ofList [("useTabs", .bool true)]).get? f.settingKey = none := by
    rw [hkey]
    decide +kernel
  have hsays : Integer.Says "\u2003-0009223372036854775808\n" (-2 ^ 63) := by
    have hdigits : Integer.AreDigits "0009223372036854775808".toList :=
      ⟨by decide, List.all_eq_true.1 (by decide)⟩
    exact ⟨['\u2003'], _, ['\n'], rfl, List.forall_mem_singleton.2 (by decide),
      List.forall_mem_singleton.2 (by decide), .minus hdigits⟩
  have hno : ¬ ∃ i, -2 ^ 63 ≤ i ∧ i ≤ 2 ^ 63 - 1 ∧ Integer.Says "9223372036854775808" i :=
    fun ⟨i, hlow, hhigh, hi⟩ =>
      Integer.parse?_trim_eq_none_iff.1 (by decide +kernel) ⟨i, ⟨hlow, hhigh⟩, hi⟩
  obtain ⟨-, haccepted, -⟩ := integer_texts_read hr hf hkind habsent
    "\u2003-0009223372036854775808\n"
  obtain ⟨-, r', -, hr', -, hwords, -⟩ := haccepted _ (by decide) (by decide) hsays
  obtain ⟨-, -, hrefused⟩ := integer_texts_read hr hf hkind habsent "9223372036854775808"
  rw [hkey] at hr'
  rw [hspelling] at hwords
  have hbeyond := (hrefused hno).1
  rw [hkey, hspelling] at hbeyond
  exact ⟨r, r', hr, hr', hwords, hbeyond⟩

end FlagSet
end CjsxConversion
