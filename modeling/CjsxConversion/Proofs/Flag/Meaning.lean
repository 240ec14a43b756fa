import CjsxConversion.Flag.Resolution
import Mathlib.Data.List.Forall2

/-!
# What settings mean for a set of flags

Resolution takes the flags in turn and writes into the entries of other flags, before and after
the one it is at. What it comes to can be said flag by flag, without the order.

A flag is off when it is configured and its value comes out false. `Faulty` says
which flags are refused. `Means` says what value a flag gets: the one that is configured, none if
it is off, true if it is not configured and negates a flag that is off, and none otherwise.

Main results:
* `assign_map`: writing by the spelling of a member changes the entry of that member alone.
* `resolveStep_of_sound`, `foldlM_resolveStep`: after some of the flags, the entries are what
  these flags alone make of them.
* `FirstFault.resolve_eq`, `resolve_of_sound`: resolution stops at the first faulty flag, and
  succeeds if there is none.
* `resolve_meaning`: resolution is described by the meaning of each flag.
-/

namespace CjsxConversion

/-- A flag is off when it is configured and its value comes out false. -/
def Flag.IsOff (settings : Settings) (f : Flag) : Prop :=
  ∃ raw, settings.get? f.settingKey = some raw ∧ f.fit raw = .ok (.bool false)

theorem Flag.isOff_iff (settings : Settings) (f : Flag) :
    ((settings.get? f.settingKey).bind fun raw => (f.fit raw).toOption) = some (.bool false) ↔
      f.IsOff settings := by
  unfold IsOff
  cases settings.get? f.settingKey with
  | none => simp
  | some raw => cases h : f.fit raw <;> simp [Except.toOption, h]

instance (settings : Settings) (f : Flag) : Decidable (f.IsOff settings) :=
  decidable_of_iff _ (f.isOff_iff settings)

namespace FlagSet

section Meaning

variable (s : FlagSet) (settings : Settings)

/-- A flag is faulty when its configured value does not fit, or comes out false although no toggle
says the opposite. -/
inductive Faulty (f : Flag) : ConfigFault → Prop
  | misfit {raw : FlagValue} {fault : ConfigFault}
      (configured : settings.get? f.settingKey = some raw) (misfits : f.fit raw = .error fault) :
      Faulty f fault
  | unsayable (off : f.IsOff settings) (unsaid : s.negation? f = none) :
      Faulty f (.noNegation f.spelling)

/-- A flag that is not faulty. -/
def Sound (f : Flag) : Prop :=
  ∀ fault, ¬ s.Faulty settings f fault

/-- The fault of the first faulty flag. -/
def FirstFault (fault : ConfigFault) : Prop :=
  ∃ before f after, s.flags = before ++ f :: after ∧ (∀ e ∈ before, s.Sound settings e) ∧
    s.Faulty settings f fault

/-- The value that a flag gets. -/
inductive Means (f : Flag) : Option FlagValue → Prop
  | given {raw v : FlagValue} (configured : settings.get? f.settingKey = some raw)
      (fits : f.fit raw = .ok v) (holds : v ≠ .bool false) : Means f (some v)
  | off (off : f.IsOff settings) : Means f none
  | negated {e : Flag} (absent : settings.get? f.settingKey = none) (member : e ∈ s.flags)
      (off : e.IsOff settings) (negates : s.negation? e = some f) : Means f (some (.bool true))
  | unsaid (absent : settings.get? f.settingKey = none)
      (unsaid : ∀ e ∈ s.flags, e.IsOff settings → s.negation? e ≠ some f) : Means f none

/-- An entry belongs to a flag when it has the flag's names and the value that the flag gets. -/
def Belongs (f : Flag) (e : ResolvedFlag) : Prop :=
  e.spelling = f.spelling ∧ e.key = f.ownKey.getD f.settingKey ∧ s.Means settings f e.value

/-- The value of a flag when some flags have been taken into account. -/
def valueAfter (done : List Flag) (f : Flag) : Option FlagValue :=
  match settings.get? f.settingKey with
  | some raw => if f ∈ done then (f.fit raw).toOption.filter (· ≠ .bool false) else none
  | none =>
    if ∃ e ∈ done, e.IsOff settings ∧ s.negation? e = some f then some (.bool true) else none

/-- The entry of a flag, given the values of all flags. -/
def entryOf (value : Flag → Option FlagValue) (f : Flag) : ResolvedFlag :=
  ⟨f.spelling, f.forwardKey, value f⟩

/-- The entries when some flags have been taken into account. -/
def entriesAfter (done : List Flag) : List ResolvedFlag :=
  s.flags.map (entryOf (s.valueAfter settings done))

end Meaning

section Members

/-- A flag is found by a spelling exactly if it is a member that is spelled so. -/
theorem find?_eq_some_iff (s : FlagSet) {spelling : String} {f : Flag} :
    s.find? spelling = some f ↔ f ∈ s.flags ∧ f.spelling = spelling := by
  constructor
  · intro h
    have hs : f.spelling = spelling := by simpa using List.find?_some h
    exact ⟨List.mem_of_find?_eq_some h, hs⟩
  · rintro ⟨hf, rfl⟩
    exact s.find?_spelling hf

theorem mem_of_negation? (s : FlagSet) {f g : Flag} (h : s.negation? f = some g) :
    g ∈ s.flags := by
  unfold negation? at h
  split at h
  · exact (s.find?_eq_some_iff.1 (Option.eq_some_of_filter_eq_some h)).1
  · cases h

/-- The order of the flags does not matter for what is found. -/
theorem negation?_of_perm {s s' : FlagSet} (h : s'.flags.Perm s.flags) (f : Flag) :
    s'.negation? f = s.negation? f := by
  have hfind : s'.find? (oppositeSpelling f.name) = s.find? (oppositeSpelling f.name) := by
    refine Option.ext fun g => ?_
    rw [find?_eq_some_iff, find?_eq_some_iff, h.mem_iff]
  unfold negation?
  rw [hfind]

/-- Where setting keys are distinct, writing by the spelling of a flag changes its entry alone. -/
theorem assign_map_of_nodup (value : Flag → Option FlagValue) (v : FlagValue) {g : Flag} :
    ∀ {flags : List Flag}, (flags.map Flag.settingKey).Nodup → g ∈ flags →
      ResolvedFlag.assign g.spelling v (flags.map (entryOf value)) =
        flags.map (entryOf fun f => if f = g then some v else value f)
  | [], _, hg => nomatch hg
  | a :: rest, hd, hg => by
    have hrest := (List.nodup_cons.1 hd).2
    rw [List.map_cons, List.map_cons, ResolvedFlag.assign]
    by_cases ha : a = g
    · subst ha
      have hout : ∀ f ∈ rest, f ≠ a := fun f hf e =>
        (List.nodup_cons.1 hd).1 (e ▸ List.mem_map_of_mem hf)
      have htail : rest.map (entryOf value) =
          rest.map (entryOf fun f => if f = a then some v else value f) :=
        List.map_congr_left fun f hf => by simp [entryOf, hout f hf]
      simp [entryOf, htail]
    · have hmem : g ∈ rest := (List.mem_cons.1 hg).resolve_left fun e => ha e.symm
      have hne : a.spelling ≠ g.spelling := fun e =>
        ha (eq_of_settingKey_eq hd List.mem_cons_self hg (by simp [Flag.settingKey, e]))
      have htail := assign_map_of_nodup value v hrest hmem
      simp [entryOf, ha, hne, htail]

/-- Writing by the spelling of a member changes the entry of that member alone. -/
theorem assign_map (s : FlagSet) (value : Flag → Option FlagValue) (v : FlagValue) {g : Flag}
    (hg : g ∈ s.flags) :
    ResolvedFlag.assign g.spelling v (s.flags.map (entryOf value)) =
      s.flags.map (entryOf fun f => if f = g then some v else value f) :=
  assign_map_of_nodup value v s.distinct hg

end Members

section Steps

variable (s : FlagSet) (settings : Settings)

theorem isOff_of_get? {settings : Settings} {f : Flag} {raw : FlagValue}
    (h : settings.get? f.settingKey = some raw) :
    f.IsOff settings ↔ f.fit raw = .ok (.bool false) := by
  simp [Flag.IsOff, h]

theorem not_isOff_of_get? {settings : Settings} {f : Flag}
    (h : settings.get? f.settingKey = none) : ¬ f.IsOff settings := by
  simp [Flag.IsOff, h]

theorem entriesAfter_nil : s.flags.map Flag.blankEntry = s.entriesAfter settings [] := by
  refine List.map_congr_left fun f _ => ?_
  simp only [Flag.blankEntry, entryOf, valueAfter]
  split <;> simp

/-- A flag that is not configured changes no value. -/
theorem valueAfter_of_absent {f : Flag} (h : settings.get? f.settingKey = none)
    (done : List Flag) : s.valueAfter settings (done ++ [f]) = s.valueAfter settings done := by
  funext g
  have hoff := not_isOff_of_get? h
  unfold valueAfter
  split
  · next raw hg =>
    have hne : g ≠ f := by
      rintro rfl
      rw [hg] at h
      cases h
    simp [hne]
  · simp [or_and_right, exists_or, hoff]

/-- A configured flag that is not off changes its own value. -/
theorem valueAfter_of_given {f : Flag} {raw v : FlagValue}
    (h : settings.get? f.settingKey = some raw) (hfit : f.fit raw = .ok v)
    (hv : v ≠ .bool false) (done : List Flag) :
    s.valueAfter settings (done ++ [f]) =
      fun g => if g = f then some v else s.valueAfter settings done g := by
  funext g
  have hoff : ¬ f.IsOff settings := by
    rw [isOff_of_get? h, hfit]
    simpa using hv
  by_cases hg : g = f
  · subst hg
    simp [valueAfter, h, hfit, Except.toOption, hv]
  · simp only [hg, if_false, valueAfter]
    split
    · simp [hg]
    · simp [or_and_right, exists_or, hoff]

/-- A flag that is off changes the value of its negation, unless that one is configured. -/
theorem valueAfter_of_off {f g : Flag} (hoff : f.IsOff settings)
    (hneg : s.negation? f = some g) (done : List Flag) :
    s.valueAfter settings (done ++ [f]) =
      fun e => if e = g ∧ settings.get? g.settingKey = none then some (.bool true)
        else s.valueAfter settings done e := by
  funext e
  obtain ⟨raw, hraw, hfit⟩ := hoff
  have hoff : f.IsOff settings := ⟨raw, hraw, hfit⟩
  by_cases he : settings.get? e.settingKey = none
  · by_cases heg : e = g
    · subst heg
      simp only [valueAfter, he, and_self, if_true]
      rw [if_pos ⟨f, by simp, hoff, hneg⟩]
    · have hne : ¬ s.negation? f = some e := by
        rw [hneg]
        simpa using fun h => heg h.symm
      simp [valueAfter, he, heg, or_and_right, exists_or, hne]
  · obtain ⟨given, hgiven⟩ := Option.ne_none_iff_exists'.1 he
    have hkeep : ¬ (e = g ∧ settings.get? g.settingKey = none) := by
      rintro ⟨rfl, h⟩
      exact he h
    rw [if_neg hkeep]
    by_cases hef : e = f
    · subst hef
      simp [valueAfter, hraw, hfit, Except.toOption]
    · simp [valueAfter, hgiven, hef]

/-- A faulty flag ends the resolution with its fault. -/
theorem resolveStep_of_faulty {f : Flag} {fault : ConfigFault}
    (h : s.Faulty settings f fault) (entries : List ResolvedFlag) :
    s.resolveStep settings entries f = .error fault := by
  cases h with
  | misfit configured misfits => simp [resolveStep, configured, misfits]
  | unsayable off unsaid =>
    obtain ⟨raw, hraw, hfit⟩ := off
    simp [resolveStep, hraw, hfit, unsaid]

/-- A sound flag takes the entries to what they are with that flag taken into account. -/
theorem resolveStep_of_sound {f : Flag} (hf : f ∈ s.flags) (h : s.Sound settings f)
    (done : List Flag) :
    s.resolveStep settings (s.entriesAfter settings done) f =
      .ok (s.entriesAfter settings (done ++ [f])) := by
  cases hraw : settings.get? f.settingKey with
  | none =>
    unfold entriesAfter
    rw [valueAfter_of_absent s settings hraw]
    simp [resolveStep, hraw]
  | some raw =>
    cases hfit : f.fit raw with
    | error fault => exact absurd (.misfit hraw hfit) (h fault)
    | ok v =>
      by_cases hv : v = .bool false
      · subst hv
        have hoff : f.IsOff settings := ⟨raw, hraw, hfit⟩
        cases hneg : s.negation? f with
        | none => exact absurd (.unsayable hoff hneg) (h _)
        | some g =>
          unfold entriesAfter
          rw [valueAfter_of_off s settings hoff hneg]
          cases hg : settings.get? g.settingKey with
          | some _ => simp [resolveStep, hraw, hfit, hneg, hg]
          | none =>
            simp [resolveStep, hraw, hfit, hneg, hg, s.assign_map _ _ (s.mem_of_negation? hneg)]
      · unfold entriesAfter
        rw [valueAfter_of_given s settings hraw hfit hv]
        simp only [resolveStep, hraw, hfit]
        rw [s.assign_map _ _ hf]

/-- After some sound flags, the entries are what these flags make of them. -/
theorem foldlM_resolveStep {rest : List Flag} (hmem : ∀ f ∈ rest, f ∈ s.flags)
    (h : ∀ f ∈ rest, s.Sound settings f) (done : List Flag) :
    rest.foldlM (s.resolveStep settings) (s.entriesAfter settings done) =
      .ok (s.entriesAfter settings (done ++ rest)) := by
  induction rest generalizing done with
  | nil => simp [pure, Except.pure]
  | cons f rest ih =>
    have hstep := s.resolveStep_of_sound settings (hmem f (by simp)) (h f (by simp)) done
    have hrest := ih (fun g hg => hmem g (by simp [hg])) (fun g hg => h g (by simp [hg]))
      (done ++ [f])
    rw [List.foldlM_cons, hstep]
    change rest.foldlM (s.resolveStep settings) (s.entriesAfter settings (done ++ [f])) = _
    rw [hrest, List.append_assoc, List.singleton_append]

end Steps

section Outcome

variable {s : FlagSet} {settings : Settings}

/-- Resolution succeeds if no flag is faulty. -/
theorem resolve_of_sound (h : ∀ f ∈ s.flags, s.Sound settings f) :
    s.resolve settings = .ok ⟨s.name, s.entriesAfter settings s.flags⟩ := by
  have hfold := s.foldlM_resolveStep settings (fun f hf => hf) h []
  unfold resolve
  rw [entriesAfter_nil, hfold]
  rfl

/-- Resolution ends with the fault of the first faulty flag. -/
theorem FirstFault.resolve_eq {fault : ConfigFault} (h : s.FirstFault settings fault) :
    s.resolve settings = .error fault := by
  obtain ⟨before, f, after, hflags, hsound, hfaulty⟩ := h
  have hmem : ∀ g ∈ before, g ∈ s.flags := fun g hg => by simp [hflags, hg]
  have hbefore := s.foldlM_resolveStep settings hmem hsound []
  have hfold : s.flags.foldlM (s.resolveStep settings) (s.flags.map Flag.blankEntry) =
      .error fault := by
    rw [entriesAfter_nil, hflags, List.foldlM_append, hbefore]
    simp [bind, Except.bind, s.resolveStep_of_faulty settings hfaulty]
  unfold resolve
  rw [hfold]
  rfl

/-- Either every flag is sound, or there is a first faulty one. -/
theorem sound_or_firstFault (s : FlagSet) (settings : Settings) :
    (∀ f ∈ s.flags, s.Sound settings f) ∨ ∃ fault, s.FirstFault settings fault := by
  classical
  cases h : s.flags.find? fun f => decide ¬ s.Sound settings f with
  | none =>
    refine .inl fun f hf => ?_
    simpa using List.find?_eq_none.1 h f hf
  | some f =>
    obtain ⟨hf, before, after, hflags, hbefore⟩ := List.find?_eq_some_iff_append.1 h
    obtain ⟨fault, hfault⟩ : ∃ fault, s.Faulty settings f fault := by
      simpa [Sound] using hf
    exact .inr ⟨fault, before, f, after, hflags, by simpa using hbefore, hfault⟩

theorem FirstFault.exists_faulty {fault : ConfigFault} (h : s.FirstFault settings fault) :
    ∃ f ∈ s.flags, s.Faulty settings f fault := by
  obtain ⟨before, f, after, hflags, -, hfaulty⟩ := h
  exact ⟨f, by simp [hflags], hfaulty⟩

/-- A sound flag means the value that it has when all flags have been taken into account. -/
theorem means_valueAfter {f : Flag} (hf : f ∈ s.flags) (h : s.Sound settings f) :
    s.Means settings f (s.valueAfter settings s.flags f) := by
  unfold valueAfter
  split
  · next raw hraw =>
    rw [if_pos hf]
    cases hfit : f.fit raw with
    | error fault => exact absurd (.misfit hraw hfit) (h fault)
    | ok v =>
      by_cases hv : v = .bool false
      · subst hv
        exact .off ⟨raw, hraw, hfit⟩
      · have hsome : ((Except.ok v : Except ConfigFault FlagValue).toOption.filter
            (· ≠ .bool false)) = some v := by
          simp [Except.toOption, hv]
        rw [hsome]
        exact .given hraw hfit hv
  · next habsent =>
    split
    · next hex =>
      obtain ⟨e, he, hoff, hneg⟩ := hex
      exact .negated habsent he hoff hneg
    · next hno =>
      exact .unsaid habsent fun e he hoff hneg => hno ⟨e, he, hoff, hneg⟩

/-- A flag means one value only. -/
theorem Means.eq_valueAfter {f : Flag} {value : Option FlagValue}
    (h : s.Means settings f value) (hf : f ∈ s.flags) :
    value = s.valueAfter settings s.flags f := by
  cases h with
  | given configured fits holds =>
    simp [valueAfter, configured, hf, fits, Except.toOption, Option.filter, holds]
  | off off =>
    obtain ⟨raw, hraw, hfit⟩ := off
    simp [valueAfter, hraw, hfit, Except.toOption, Option.filter]
  | negated absent member off negates =>
    simp only [valueAfter, absent]
    rw [if_pos ⟨_, member, off, negates⟩]
  | unsaid absent unsaid =>
    simp only [valueAfter, absent]
    rw [if_neg]
    rintro ⟨e, he, hoff, hneg⟩
    exact unsaid e he hoff hneg

/-- No flag means false. -/
theorem Means.ne_false {f : Flag} {value : Option FlagValue} (h : s.Means settings f value) :
    value ≠ some (.bool false) := by
  cases h with
  | given configured fits holds => simpa using holds
  | off off => simp
  | negated absent member off negates => simp
  | unsaid absent unsaid => simp

/-- Resolution fails exactly with the fault of the first faulty flag. -/
theorem resolve_eq_error_iff {fault : ConfigFault} :
    s.resolve settings = .error fault ↔ s.FirstFault settings fault := by
  constructor
  · intro h
    rcases s.sound_or_firstFault settings with hsound | ⟨fault', hfirst⟩
    · rw [resolve_of_sound hsound] at h
      cases h
    · rw [hfirst.resolve_eq] at h
      cases h
      exact hfirst
  · exact FirstFault.resolve_eq

/-- Resolution succeeds only if every flag is sound. -/
theorem sound_of_resolve {r : ResolvedFlags} (h : s.resolve settings = .ok r) :
    ∀ f ∈ s.flags, s.Sound settings f := by
  rcases s.sound_or_firstFault settings with hsound | ⟨fault, hfirst⟩
  · exact hsound
  · rw [hfirst.resolve_eq] at h
    cases h

/-- A list of entries, one for each flag, is determined by what the flags mean. -/
theorem forall₂_belongs_iff {flags : List Flag} (hmem : ∀ f ∈ flags, f ∈ s.flags)
    (h : ∀ f ∈ flags, s.Sound settings f) (entries : List ResolvedFlag) :
    List.Forall₂ (s.Belongs settings) flags entries ↔
      entries = flags.map (entryOf (s.valueAfter settings s.flags)) := by
  induction flags generalizing entries with
  | nil => simp
  | cons f flags ih =>
    have hf := hmem f (by simp)
    have hih := ih (fun g hg => hmem g (by simp [hg])) (fun g hg => h g (by simp [hg]))
    rw [List.forall₂_cons_left_iff, List.map_cons]
    constructor
    · rintro ⟨e, rest, ⟨hspelling, hkey, hmeans⟩, hrest, rfl⟩
      have he : e = entryOf (s.valueAfter settings s.flags) f := by
        unfold entryOf
        rw [← hspelling, Flag.forwardKey, ← hkey, ← hmeans.eq_valueAfter hf]
      rw [(hih rest).1 hrest, he]
    · rintro rfl
      have hmeans := means_valueAfter hf (h f (by simp))
      exact ⟨_, _, ⟨rfl, rfl, hmeans⟩, (hih _).2 rfl, rfl⟩

/-- Resolution succeeds exactly with the entries that belong to the flags, all of them sound. -/
theorem resolve_eq_ok_iff {r : ResolvedFlags} :
    s.resolve settings = .ok r ↔ (∀ f ∈ s.flags, s.Sound settings f) ∧ r.setName = s.name ∧
      List.Forall₂ (s.Belongs settings) s.flags r.entries := by
  constructor
  · intro h
    have hsound := sound_of_resolve h
    rw [resolve_of_sound hsound] at h
    cases h
    exact ⟨hsound, rfl, (forall₂_belongs_iff (fun f hf => hf) hsound _).2 rfl⟩
  · rintro ⟨hsound, hname, hbelong⟩
    have hentries : r.entries = s.entriesAfter settings s.flags :=
      (forall₂_belongs_iff (fun f hf => hf) hsound _).1 hbelong
    rw [resolve_of_sound hsound, ← hname, ← hentries]

/-- The settings matter under the keys of the flags alone. -/
theorem resolveStep_congr {other : Settings}
    (h : ∀ f ∈ s.flags, other.get? f.settingKey = settings.get? f.settingKey) {f : Flag}
    (hf : f ∈ s.flags) (entries : List ResolvedFlag) :
    s.resolveStep other entries f = s.resolveStep settings entries f := by
  cases hneg : s.negation? f with
  | none => simp [resolveStep, h f hf, hneg]
  | some g => simp [resolveStep, h f hf, hneg, h g (s.mem_of_negation? hneg)]

theorem foldlM_resolveStep_congr {other : Settings}
    (h : ∀ f ∈ s.flags, other.get? f.settingKey = settings.get? f.settingKey)
    {rest : List Flag} (hmem : ∀ f ∈ rest, f ∈ s.flags) (entries : List ResolvedFlag) :
    rest.foldlM (s.resolveStep other) entries = rest.foldlM (s.resolveStep settings) entries := by
  induction rest generalizing entries with
  | nil => rfl
  | cons f rest ih =>
    rw [List.foldlM_cons, List.foldlM_cons, resolveStep_congr h (hmem f (by simp))]
    exact bind_congr fun entries => ih (fun g hg => hmem g (by simp [hg])) entries

/-- The order of the flags does not matter for what is faulty. -/
theorem sound_of_perm {s' : FlagSet} (hperm : s'.flags.Perm s.flags) {f : Flag}
    (h : s.Sound settings f) : s'.Sound settings f := by
  intro fault hfaulty
  cases hfaulty with
  | misfit configured misfits => exact h _ (.misfit configured misfits)
  | unsayable off unsaid => exact h _ (.unsayable off (negation?_of_perm hperm f ▸ unsaid))

/-- The order of the flags does not matter for their values. -/
theorem valueAfter_of_perm {s' : FlagSet} (hperm : s'.flags.Perm s.flags) :
    s'.valueAfter settings s'.flags = s.valueAfter settings s.flags := by
  funext f
  simp only [valueAfter, hperm.mem_iff, negation?_of_perm hperm]

/-- Resolution is described by the meaning of each flag. It fails with the fault of the first
faulty flag, if there is one. Otherwise there is an entry for each flag, in order, with the value
that the flag means, which is never false. Keys that no flag declares do not matter, and flags
that are declared in another order have their entries in that order. -/
theorem resolve_meaning (s : FlagSet) (settings : Settings) :
    (∀ fault, s.resolve settings = .error fault ↔ s.FirstFault settings fault) ∧
    ((∃ fault, s.resolve settings = .error fault) ↔
      ∃ f ∈ s.flags, ∃ fault, s.Faulty settings f fault) ∧
    (∀ r, s.resolve settings = .ok r ↔ (∀ f ∈ s.flags, s.Sound settings f) ∧
      r.setName = s.name ∧ List.Forall₂ (s.Belongs settings) s.flags r.entries) ∧
    (∀ r, s.resolve settings = .ok r → ∀ e ∈ r.entries, e.value ≠ some (.bool false)) ∧
    (∀ other : Settings, (∀ f ∈ s.flags, other.get? f.settingKey = settings.get? f.settingKey) →
      s.resolve other = s.resolve settings) ∧
    (∀ s' : FlagSet, s'.flags.Perm s.flags → ∀ r, s.resolve settings = .ok r →
      ∃ r', s'.resolve settings = .ok r' ∧ r'.setName = s'.name ∧ r'.entries.Perm r.entries) := by
  refine ⟨fun fault => resolve_eq_error_iff, ⟨?_, ?_⟩, fun r => resolve_eq_ok_iff, ?_, ?_, ?_⟩
  · rintro ⟨fault, h⟩
    obtain ⟨f, hf, hfaulty⟩ := (resolve_eq_error_iff.1 h).exists_faulty
    exact ⟨f, hf, fault, hfaulty⟩
  · rintro ⟨f, hf, fault, hfaulty⟩
    rcases s.sound_or_firstFault settings with hsound | ⟨first, hfirst⟩
    · exact absurd hfaulty (hsound f hf fault)
    · exact ⟨first, hfirst.resolve_eq⟩
  · intro r h e he
    have hsound := sound_of_resolve h
    rw [resolve_of_sound hsound] at h
    cases h
    obtain ⟨f, hf, rfl⟩ := List.mem_map.1 he
    exact (means_valueAfter hf (hsound f hf)).ne_false
  · intro other h
    unfold resolve
    rw [foldlM_resolveStep_congr h fun f hf => hf]
  · intro s' hperm r h
    have hsound := sound_of_resolve h
    have hsound' : ∀ f ∈ s'.flags, s'.Sound settings f :=
      fun f hf => sound_of_perm hperm (hsound f (hperm.mem_iff.1 hf))
    rw [resolve_of_sound hsound] at h
    cases h
    refine ⟨_, resolve_of_sound hsound', rfl, ?_⟩
    unfold entriesAfter
    rw [valueAfter_of_perm hperm]
    exact hperm.map _

end Outcome
end FlagSet
end CjsxConversion
