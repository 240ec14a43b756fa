import CjsxConversion.Invocation
import CjsxConversion.Pipeline.Options
import CjsxConversion.Proofs.Flag.Restating
import CjsxConversion.Proofs.Text.Encoding
import CjsxConversion.Proofs.Usage.Phrases
import Mathlib.Data.List.Nodup
import Mathlib.Data.List.Perm.Basic

/-!
# Options that are read back from a command line

The words that hand options on to the tools can be given to the program itself, around a file to
convert. The words of each value are a phrase for the switch of its flag, whatever the order of
the values, and what the program finds in them restates the values, though as texts.

This asks that no value looks like a switch, and of the catalog that its flags can be told apart.

Main results:
* `Flag.fit_told`: what the words of a value tell is fitted to the value again.
* `phrase_of_value`: the words of a value are a phrase for the switch of its flag.
* `StageOptions.groups_eq_chosen`, `Catalog.Sayable.mem_chosen`: the words of options in terms of
  the values, and what these are.
* `ofGiven_of_tellings`, `get?_settings_of_tellings`: what an invocation asks for whose arguments
  tell values.
* `Catalog.Sayable.read_groups`, `Invocation.read_optionWords`: options are read back from a
  command line.
-/

namespace CjsxConversion

namespace Catalog

/-- What it takes to tell the flags of a catalog apart on a command line, and to read their values
back. -/
structure Sayable (c : Catalog) : Prop where
  keys : (c.flags.map Flag.settingKey).Nodup
  names : (c.flags.map Flag.name).Nodup
  foreign : ∀ f ∈ c.flags, ∀ s ∈ Switch.own ++ Switch.informing, s.hasName f.name = false
  long : ∀ f ∈ c.flags, Word.ofOctets (Utf8.encode f.spelling) = .long (Utf8.encode f.name) none
  truthWords : ∀ f ∈ c.flags, f.hasPlainTruthWords = true

theorem builtIn_sayable : builtIn.Sayable := by
  -- The names and keys are computed once for all of it.
  have h : (builtIn.flags.map Flag.settingKey).Nodup ∧ (builtIn.flags.map Flag.name).Nodup ∧
      ∀ f ∈ builtIn.flags,
        (∀ s ∈ Switch.own ++ Switch.informing, s.hasName f.name = false) ∧
        Word.ofOctets (Utf8.encode f.spelling) = .long (Utf8.encode f.name) none ∧
        f.hasPlainTruthWords = true := by
    decide +kernel
  obtain ⟨hkeys, hnames, hflags⟩ := h
  exact ⟨hkeys, hnames, fun f hf => (hflags f hf).1, fun f hf => (hflags f hf).2.1,
    fun f hf => (hflags f hf).2.2⟩

/-- The switch of a flag is found by the name of the flag. -/
theorem Sayable.named? {c : Catalog} (hc : c.Sayable) {f : Flag} (hf : f ∈ c.flags) :
    Switch.named? (Switch.all c) f.name = some (.ofFlag f) := by
  have hself : (Switch.ofFlag f).hasName f.name = true := by
    simp [Switch.hasName, Switch.ofFlag]
  have hmem : Switch.ofFlag f ∈ Switch.all c := by
    have hflag := List.mem_map_of_mem (f := Switch.ofFlag) hf
    simp only [Switch.all, List.mem_append]
    exact .inl (.inr hflag)
  unfold Switch.named?
  cases hfind : (Switch.all c).find? (Switch.hasName f.name) with
  | none => exact absurd hself (List.find?_eq_none.1 hfind _ hmem)
  | some s =>
    have hname : s.hasName f.name = true := List.find?_some hfind
    have hs := List.mem_of_find?_eq_some hfind
    simp only [Switch.all, List.mem_append] at hs
    rcases hs with (hown | hflag) | hinforming
    · have hno := hc.foreign f hf s (List.mem_append_left _ hown)
      simp [hno] at hname
    · obtain ⟨g, hg, rfl⟩ := List.mem_map.1 hflag
      have hgf : g.name = f.name := by
        simpa [Switch.hasName, Switch.ofFlag] using hname
      rw [List.inj_on_of_nodup_map hc.names hg hf hgf]
    · have hno := hc.foreign f hf s (List.mem_append_right _ hinforming)
      simp [hno] at hname

end Catalog

/-- The written form of a value does not begin with a dash. -/
def FlagValue.Dashless : FlagValue → Prop
  | .bool _ => True
  | .int n => 0 ≤ n
  | .text t => t.toList.head? ≠ some '-'

instance FlagValue.decidableDashless : DecidablePred FlagValue.Dashless
  | .bool _ => inferInstanceAs (Decidable True)
  | .int n => inferInstanceAs (Decidable (0 ≤ n))
  | .text t => inferInstanceAs (Decidable (t.toList.head? ≠ some '-'))

theorem Word.ofOctets_encode {text : String} (h : text.toList.head? ≠ some '-') :
    ofOctets (Utf8.encode text) = .plain :=
  ofOctets_plain _ fun hhead => h ((Utf8.head?_encode_eq_some_iff (by decide)).1 hhead)

theorem Integer.head?_render {n : Int64} (h : 0 ≤ n) : (render n).toList.head? ≠ some '-' := by
  have hint : 0 ≤ n.toInt := Int64.le_iff_toInt_le.1 h
  obtain ⟨m, hm⟩ := Int.eq_ofNat_of_zero_le hint
  have hrender : renderInt m = Nat.toDigits 10 m := rfl
  rw [render, String.toList_ofList, hm, hrender]
  cases hdigits : Nat.toDigits 10 m with
  | nil => simp
  | cons c cs => simpa using (head_toDigits_ne m c cs hdigits).2

namespace FlagValue

theorem Dashless.ofOctets {v : FlagValue} (h : v.Dashless) :
    Word.ofOctets (Utf8.encode v.render) = .plain := by
  refine Word.ofOctets_encode ?_
  cases v with
  | bool b => cases b <;> decide
  | int n => exact Integer.head?_render h
  | text t => exact h

end FlagValue

/-! ### The words of a value -/

namespace Flag

/-- A value as it is told on a command line: a toggle is on if it is there at all. -/
def told (f : Flag) (v : FlagValue) : FlagValue :=
  if f.takesValue then v.asText else .bool true

variable {f : Flag} {v : FlagValue}

/-- A flag that can have a value takes one exactly if it is no truth value. -/
theorem takesValue_of_fit (hfit : f.fit v = .ok v) :
    f.takesValue = true ↔ ∀ b, v ≠ .bool b :=
  takesValue_of_hasForm (hasForm_of_fit hfit)

/-- What the words of a value tell is fitted to the value again. -/
theorem fit_told (hfit : f.fit v = .ok v) (hfalse : v ≠ .bool false) :
    f.fit (f.told v) = .ok v := by
  unfold told
  split
  · exact fit_asText hfit
  · next harity =>
    cases v with
    | bool b =>
      cases b with
      | false => exact absurd rfl hfalse
      | true => exact hfit
    | int n => exact absurd ((takesValue_of_fit hfit).2 (by simp)) harity
    | text t => exact absurd ((takesValue_of_fit hfit).2 (by simp)) harity

end Flag

namespace Given

/-- What the words of a value give. -/
def ofValue (f : Flag) (v : FlagValue) : Given :=
  ⟨.switch (.ofFlag f), if f.takesValue then some v.render else none⟩

theorem setting?_ofValue (f : Flag) (v : FlagValue) :
    Invocation.setting? (ofValue f v) = some (f.settingKey, f.told v) := by
  unfold ofValue Flag.told
  split <;> rfl

end Given

/-- The words of a value are a phrase for the switch of its flag. -/
theorem phrase_of_value {c : Catalog} (hc : c.Sayable) {f : Flag} (hf : f ∈ c.flags)
    {v : FlagValue} (hfit : f.fit v = .ok v) (hfalse : v ≠ .bool false) (hv : v.Dashless) :
    Phrase (Switch.all c) ((ResolvedFlags.wordsOf f.spelling v).map Utf8.encode)
      (Given.ofValue f v) := by
  have harity := Flag.takesValue_of_fit hfit
  have hswitch := Switch.takesValue_ofFlag f
  unfold Given.ofValue
  cases v with
  | bool b =>
    cases b with
    | false => exact absurd rfl hfalse
    | true =>
      have hno : f.takesValue = false := by simpa using harity
      rw [if_neg (by simp [hno])]
      exact .alone (hc.long f hf) (hc.named? hf) (by simp [Switch.ofFlag]) (hswitch.trans hno)
  | int n =>
    have hyes : f.takesValue = true := harity.2 (by simp)
    rw [if_pos hyes]
    exact .valued (hc.long f hf) (hc.named? hf) (hswitch.trans hyes) hv.ofOctets
  | text t =>
    have hyes : f.takesValue = true := harity.2 (by simp)
    rw [if_pos hyes]
    exact .valued (hc.long f hf) (hc.named? hf) (hswitch.trans hyes) hv.ofOctets

/-! ### The words of options -/

namespace ResolvedFlags

/-- The words of each value. -/
def groups (r : ResolvedFlags) : List (List String) :=
  r.given.map fun p => wordsOf p.1.spelling p.2

theorem flatten_groups (r : ResolvedFlags) : r.groups.flatten = r.words := by
  rw [groups, words, List.flatMap_def]

end ResolvedFlags

theorem FlagSet.given_eq_chosen {s : FlagSet} {settings : Settings} {r : ResolvedFlags}
    (h : s.resolve settings = .ok r) :
    r.given.map (fun p => (p.1.spelling, p.2)) =
      (s.chosen settings).map fun p => (p.1.spelling, p.2) := by
  rw [s.given_of_resolve h, List.map_map]
  rfl

/-- The words of resolved flags in terms of the values. -/
theorem FlagSet.groups_eq_chosen {s : FlagSet} {settings : Settings} {r : ResolvedFlags}
    (h : s.resolve settings = .ok r) :
    r.groups = (s.chosen settings).map fun p => ResolvedFlags.wordsOf p.1.spelling p.2 := by
  have hgiven := congrArg (List.map fun p => ResolvedFlags.wordsOf p.1 p.2) (given_eq_chosen h)
  simpa [ResolvedFlags.groups, Function.comp_def] using hgiven

/-- The values that options have in both tools. -/
def Catalog.chosen (c : Catalog) (settings : Settings) : List (Flag × FlagValue) :=
  c.dialect.chosen settings ++ c.format.chosen settings

section Options

variable {c : Catalog} {settings : Settings} {r : StageOptions}

theorem StageOptions.given_eq_chosen (h : StageOptions.resolve c settings = .ok r) :
    (r.dialect.given ++ r.format.given).map (fun p => (p.1.spelling, p.2)) =
      (c.chosen settings).map fun p => (p.1.spelling, p.2) := by
  obtain ⟨hdialect, hformat⟩ := StageOptions.resolve_eq_ok_iff.1 h
  rw [List.map_append, FlagSet.given_eq_chosen hdialect, FlagSet.given_eq_chosen hformat,
    Catalog.chosen, List.map_append]

/-- The words of options in terms of the values. -/
theorem StageOptions.groups_eq_chosen (h : StageOptions.resolve c settings = .ok r) :
    r.dialect.groups ++ r.format.groups =
      (c.chosen settings).map fun p => ResolvedFlags.wordsOf p.1.spelling p.2 := by
  obtain ⟨hdialect, hformat⟩ := StageOptions.resolve_eq_ok_iff.1 h
  rw [FlagSet.groups_eq_chosen hdialect, FlagSet.groups_eq_chosen hformat, Catalog.chosen,
    List.map_append]

theorem StageOptions.exists_given_iff (h : StageOptions.resolve c settings = .ok r)
    (P : String → FlagValue → Prop) :
    (∃ p ∈ r.dialect.given ++ r.format.given, P p.1.spelling p.2) ↔
      ∃ p ∈ c.chosen settings, P p.1.spelling p.2 := by
  have hgiven := congrArg (fun l => ∃ q ∈ l, P q.1 q.2) (given_eq_chosen h)
  simpa only [List.mem_map, exists_exists_and_eq_and, eq_iff_iff] using hgiven

/-- The values of options are fitted to flags of the catalog, and are not false. -/
theorem Catalog.Sayable.mem_chosen (hc : c.Sayable) (h : StageOptions.resolve c settings = .ok r)
    {p : Flag × FlagValue} (hp : p ∈ c.chosen settings) :
    p.1 ∈ c.flags ∧ p.1.fit p.2 = .ok p.2 ∧ p.2 ≠ .bool false := by
  obtain ⟨hdialect, hformat⟩ := StageOptions.resolve_eq_ok_iff.1 h
  rcases List.mem_append.1 hp with hp | hp
  · have hwords := fun f hf => hc.truthWords f (List.mem_append_left _ hf)
    obtain ⟨hf, hfit, hfalse⟩ := FlagSet.mem_chosen_of_resolve hdialect hwords hp
    exact ⟨List.mem_append_left _ hf, hfit, hfalse⟩
  · have hwords := fun f hf => hc.truthWords f (List.mem_append_right _ hf)
    obtain ⟨hf, hfit, hfalse⟩ := FlagSet.mem_chosen_of_resolve hformat hwords hp
    exact ⟨List.mem_append_right _ hf, hfit, hfalse⟩

theorem Catalog.Sayable.chosen_keys_nodup (hc : c.Sayable) (settings : Settings) :
    ((c.chosen settings).map fun p => p.1.settingKey).Nodup := by
  have hsub : ((c.chosen settings).map Prod.fst).Sublist c.flags := by
    rw [Catalog.chosen, List.map_append]
    exact (c.dialect.chosen_sublist settings).append (c.format.chosen_sublist settings)
  have hkeys := hc.keys.sublist (hsub.map Flag.settingKey)
  simpa [Function.comp_def] using hkeys

end Options

/-! ### The invocation that tells values -/

section Tellings

variable {file : String} {chosen : List (Flag × FlagValue)} {gs : List Given}

/-- What is given by an input and by the words of values. -/
def tellings (file : String) (chosen : List (Flag × FlagValue)) : List Given :=
  ⟨.input, some file⟩ :: chosen.map fun p => Given.ofValue p.1 p.2

theorem mem_tellings {g : Given} :
    g ∈ tellings file chosen ↔
      g = ⟨.input, some file⟩ ∨ ∃ p ∈ chosen, g = Given.ofValue p.1 p.2 := by
  simp [tellings, eq_comm]

theorem not_serves_of_mem_tellings {purpose : Purpose} (hpurpose : ∀ f, purpose ≠ .forward f)
    {g : Given} (hg : g ∈ tellings file chosen) :
    Invocation.serves purpose g.parameter = false := by
  rcases mem_tellings.1 hg with rfl | ⟨p, -, rfl⟩
  · rfl
  · have hforward : Purpose.forward p.1 ≠ purpose := fun h => hpurpose p.1 h.symm
    simpa [Invocation.serves, Given.ofValue, Switch.ofFlag] using hforward

theorem input_of_tellings (h : gs.Perm (tellings file chosen)) :
    Invocation.valueOf? gs (fun p => p = .input) = some file := by
  unfold Invocation.valueOf?
  cases hfind : gs.find? fun g => decide (g.parameter = .input) with
  | none =>
    have hmem : (⟨.input, some file⟩ : Given) ∈ gs := h.mem_iff.2 (mem_tellings.2 (.inl rfl))
    exact absurd (List.find?_eq_none.1 hfind _ hmem) (by simp)
  | some g =>
    have hinput : g.parameter = .input := by simpa using List.find?_some hfind
    rcases mem_tellings.1 (h.mem_iff.1 (List.mem_of_find?_eq_some hfind)) with rfl | ⟨p, -, rfl⟩
    · rfl
    · exact absurd hinput (by simp [Given.ofValue])

/-- An input and the words of values ask for nothing else. -/
theorem ofGiven_of_tellings (h : gs.Perm (tellings file chosen)) :
    Invocation.ofGiven gs =
      ⟨.ofString file, none, none, Invocation.settings gs, false, false, 0, false⟩ := by
  have hserves (purpose : Purpose) (hpurpose : ∀ f, purpose ≠ .forward f) :
      ∀ g ∈ gs, Invocation.serves purpose g.parameter = false :=
    fun g hg => not_serves_of_mem_tellings hpurpose (h.mem_iff.1 hg)
  have hpath (purpose : Purpose) (hpurpose : ∀ f, purpose ≠ .forward f) :
      Invocation.path? gs purpose = none := by
    have hfind : (gs.find? fun g => Invocation.serves purpose g.parameter) = none :=
      List.find?_eq_none.2 fun g hg => by simp [hserves purpose hpurpose g hg]
    simp [Invocation.path?, Invocation.valueOf?, hfind]
  have hon (purpose : Purpose) (hpurpose : ∀ f, purpose ≠ .forward f) :
      Invocation.isOn gs purpose = false :=
    List.any_eq_false.2 fun g hg => by simp [hserves purpose hpurpose g hg]
  have hcount : Invocation.count gs .verbose = 0 :=
    List.countP_eq_zero.2 fun g hg => by simp [hserves .verbose (by simp) g hg]
  unfold Invocation.ofGiven
  rw [input_of_tellings h, hpath .output (by simp), hpath .config (by simp),
    hon .skipFormat (by simp), hon .eslintFix (by simp), hon .logJson (by simp), hcount]
  rfl

/-- The settings of an invocation that tells values hold what was told, and nothing else. -/
theorem get?_settings_of_tellings (hkeys : (chosen.map fun p => p.1.settingKey).Nodup)
    (h : gs.Perm (tellings file chosen)) {key : String} {v : FlagValue} :
    (Invocation.settings gs).get? key = some v ↔
      ∃ p ∈ chosen, p.1.settingKey = key ∧ p.1.told p.2 = v := by
  have hrow : (gs.filterMap Invocation.setting?).Perm
      (chosen.map fun p => (p.1.settingKey, p.1.told p.2)) := by
    have hgs := h.filterMap Invocation.setting?
    have htellings : (tellings file chosen).filterMap Invocation.setting? =
        chosen.map fun p => (p.1.settingKey, p.1.told p.2) := by
      have hinput : Invocation.setting? ⟨.input, some file⟩ = none := rfl
      rw [tellings, List.filterMap_cons_none hinput, List.filterMap_map]
      simp only [Function.comp_def, Given.setting?_ofValue]
      rw [List.filterMap_eq_map']
    rwa [htellings] at hgs
  have hnodup : ((gs.filterMap Invocation.setting?).map Prod.fst).Nodup := by
    rw [(hrow.map Prod.fst).nodup_iff]
    simpa [Function.comp_def] using hkeys
  have hsettings : Invocation.settings gs = .ofList (gs.filterMap Invocation.setting?) := rfl
  rw [hsettings, Settings.get?_ofList_eq_some_iff hnodup, hrow.mem_iff]
  simp

end Tellings

/-- What was told of the values of a catalog's flags restates them to each of the two tools. -/
theorem restates_of_tellings {c : Catalog} (hc : c.Sayable) {settings : Settings}
    {r : StageOptions} (h : StageOptions.resolve c settings = .ok r) {other : Settings}
    (hother : ∀ key v, other.get? key = some v ↔
      ∃ p ∈ c.chosen settings, p.1.settingKey = key ∧ p.1.told p.2 = v) :
    c.dialect.Restates (c.dialect.chosen settings) other ∧
      c.format.Restates (c.format.chosen settings) other := by
  have htold : ∀ p ∈ c.chosen settings, ∃ raw, other.get? p.1.settingKey = some raw ∧
      p.1.fit raw = .ok p.2 := by
    intro p hp
    obtain ⟨-, hfit, hfalse⟩ := hc.mem_chosen h hp
    exact ⟨_, (hother _ _).2 ⟨p, hp, rfl, rfl⟩, Flag.fit_told hfit hfalse⟩
  have hsilent : ∀ f ∈ c.flags, (∀ v, (f, v) ∉ c.chosen settings) →
      other.get? f.settingKey = none := by
    intro f hf hno
    rw [Option.eq_none_iff_forall_not_mem]
    intro v hv
    obtain ⟨⟨g, w⟩, hg, hkey, -⟩ := (hother _ _).1 hv
    have hgf : g = f :=
      FlagSet.eq_of_settingKey_eq hc.keys (hc.mem_chosen h hg).1 hf hkey
    exact hno w (hgf ▸ hg)
  have hapart : ∀ f, f ∈ c.dialect.flags → f ∉ c.format.flags := by
    intro f hdialect hformat
    have hflags : c.flags.Nodup := List.Nodup.of_map Flag.settingKey hc.keys
    have hdisjoint := (List.nodup_append.1 hflags).2.2
    exact hdisjoint f hdialect f hformat rfl
  constructor
  · intro f hf
    refine ⟨fun v hv => htold (f, v) (List.mem_append_left _ hv), fun hno => ?_⟩
    refine hsilent f (List.mem_append_left _ hf) fun v hv => ?_
    rcases List.mem_append.1 hv with hv | hv
    · exact hno v hv
    · exact hapart f hf (FlagSet.mem_chosen_iff.1 hv).1
  · intro f hf
    refine ⟨fun v hv => htold (f, v) (List.mem_append_right _ hv), fun hno => ?_⟩
    refine hsilent f (List.mem_append_right _ hf) fun v hv => ?_
    rcases List.mem_append.1 hv with hv | hv
    · exact hapart f (FlagSet.mem_chosen_iff.1 hv).1 hf
    · exact hno v hv

/-- The phrases of an input and of values that do not look like switches. -/
theorem phrases_of_tellings {c : Catalog} (hc : c.Sayable) {chosen : List (Flag × FlagValue)}
    {file : String} (hfile : file.toList.head? ≠ some '-')
    (hchosen : ∀ p ∈ chosen, p.1 ∈ c.flags ∧ p.1.fit p.2 = .ok p.2 ∧ p.2 ≠ .bool false)
    (hdashless : ∀ p ∈ chosen, p.2.Dashless) :
    List.Forall₂ (fun words g => Phrase (Switch.all c) (words.map Utf8.encode) g)
      ([file] :: chosen.map fun p => ResolvedFlags.wordsOf p.1.spelling p.2)
      (tellings file chosen) := by
  refine .cons (.input (Word.ofOctets_encode hfile)) ?_
  rw [List.forall₂_map_left_iff, List.forall₂_map_right_iff, List.forall₂_same]
  intro p hp
  obtain ⟨hf, hfit, hfalse⟩ := hchosen p hp
  exact phrase_of_value hc hf hfit hfalse (hdashless p hp)

theorem parameters_nodup_of_tellings {chosen : List (Flag × FlagValue)} (file : String)
    (hkeys : (chosen.map fun p => p.1.settingKey).Nodup) :
    ((tellings file chosen).map Given.parameter).Nodup := by
  have hparameters : (tellings file chosen).map Given.parameter =
      .input :: chosen.map fun p => .switch (.ofFlag p.1) := by
    simp [tellings, Given.ofValue, Function.comp_def]
  rw [hparameters, List.nodup_cons]
  refine ⟨by simp, ?_⟩
  unfold List.Nodup at hkeys ⊢
  rw [List.pairwise_map] at hkeys ⊢
  refine hkeys.imp fun hne heq => hne ?_
  have hflag := congrArg Switch.purpose (Parameter.switch.inj heq)
  rw [Purpose.forward.inj hflag]

/-- Options are read back from any command line that is made of their words and an input. -/
theorem Catalog.Sayable.read_groups {c : Catalog} (hc : c.Sayable) {settings : Settings}
    {r : StageOptions} (h : StageOptions.resolve c settings = .ok r)
    (hvalues : ∀ p ∈ r.dialect.given ++ r.format.given, p.2.Dashless) {file : String}
    (hfile : file.toList.head? ≠ some '-') {groups : List (List String)}
    (hgroups : groups.Perm ([file] :: (r.dialect.groups ++ r.format.groups))) :
    ∃ options, Invocation.read c (groups.flatten.map Utf8.encode) =
        .ok ⟨.ofString file, none, none, options, false, false, 0, false⟩ ∧
      (∀ key, (options.get? key).isSome ↔
        ∃ p ∈ r.dialect.given ++ r.format.given, spellingKey p.1.spelling = key) ∧
      StageOptions.resolve c options = .ok r := by
  have hdashless : ∀ p ∈ c.chosen settings, p.2.Dashless := by
    intro p hp
    by_contra hno
    obtain ⟨q, hq, hdash⟩ :=
      (StageOptions.exists_given_iff h fun _ v => ¬ v.Dashless).2 ⟨p, hp, hno⟩
    exact hdash (hvalues q hq)
  have hkeys := hc.chosen_keys_nodup settings
  have hphrases := phrases_of_tellings hc hfile (fun p hp => hc.mem_chosen h hp) hdashless
  rw [StageOptions.groups_eq_chosen h] at hgroups
  -- The phrases stay what they are when they change places, and so does what they give.
  obtain ⟨gs, hgs, hperm⟩ := List.perm_comp_forall₂ hgroups hphrases
  have hdistinct : (gs.map Given.parameter).Nodup :=
    (hperm.map Given.parameter).nodup_iff.2 (parameters_nodup_of_tellings file hkeys)
  have hinput : Parameter.input ∈ gs.map Given.parameter :=
    (hperm.map Given.parameter).mem_iff.2 List.mem_cons_self
  have hgiven : Given.ofArguments c (groups.flatten.map Utf8.encode) = .ok gs := by
    rw [List.map_flatten]
    exact Given.ofArguments_phrases (List.forall₂_map_left_iff.2 hgs) hdistinct hinput
  have hsettings (key : String) (v : FlagValue) :
      (Invocation.settings gs).get? key = some v ↔
        ∃ p ∈ c.chosen settings, p.1.settingKey = key ∧ p.1.told p.2 = v :=
    get?_settings_of_tellings hkeys hperm
  obtain ⟨hdialect, hformat⟩ := StageOptions.resolve_eq_ok_iff.1 h
  obtain ⟨hrdialect, hrformat⟩ := restates_of_tellings hc h hsettings
  refine ⟨Invocation.settings gs, ?_, fun key => ?_, StageOptions.resolve_eq_ok_iff.2 ⟨?_, ?_⟩⟩
  · rw [Invocation.read, hgiven, Except.map, ofGiven_of_tellings hperm]
  · rw [StageOptions.exists_given_iff h fun spelling _ => spellingKey spelling = key,
      Option.isSome_iff_exists]
    simp only [hsettings]
    constructor
    · rintro ⟨v, p, hp, hkey, -⟩
      exact ⟨p, hp, hkey⟩
    · rintro ⟨p, hp, hkey⟩
      exact ⟨_, p, hp, hkey, rfl⟩
  · exact FlagSet.resolve_of_restates hdialect hrdialect
  · exact FlagSet.resolve_of_restates hformat hrformat

/-- Options are read back from a command line. The words that hand accepted options on to the
tools fall into groups, one for each value. Where no value begins with a dash, the groups can be
given to the program in any order, with a file to convert anywhere between them. The program finds
settings for exactly the flags that have a value, and they resolve to the same options. -/
theorem Invocation.read_optionWords (settings : Settings) (r : StageOptions) (file : String)
    (groups : List (List String)) (hresolve : StageOptions.resolve .builtIn settings = .ok r)
    (hvalues : ∀ p ∈ r.dialect.given ++ r.format.given, p.2.Dashless)
    (hfile : file.toList.head? ≠ some '-')
    (hgroups : groups.Perm ([file] :: (r.dialect.groups ++ r.format.groups))) :
    (r.dialect.groups ++ r.format.groups).flatten = r.dialect.words ++ r.format.words ∧
    ∃ options, Invocation.read .builtIn (groups.flatten.map Utf8.encode) =
        .ok ⟨.ofString file, none, none, options, false, false, 0, false⟩ ∧
      (∀ key, (options.get? key).isSome ↔
        ∃ p ∈ r.dialect.given ++ r.format.given, spellingKey p.1.spelling = key) ∧
      StageOptions.resolve .builtIn options = .ok r := by
  constructor
  · rw [List.flatten_append, ResolvedFlags.flatten_groups, ResolvedFlags.flatten_groups]
  · exact Catalog.builtIn_sayable.read_groups hresolve hvalues hfile hgroups

/-- A toggle under its own key, a truth value for a flag with listed words, an integer, and a
toggle that is switched off. -/
def Settings.ofEveryKind : Settings :=
  .ofList [("useJsModules", .bool true), ("trailingComma", .bool true), ("tabWidth", .int 4),
    ("bracketSpacing", .bool false)]

theorem Invocation.read_everyKind :
    ∃ r options, StageOptions.resolve .builtIn .ofEveryKind = .ok r ∧
      r.dialect.words = ["--use-js-modules"] ∧
      r.format.words = ["--tab-width", "4", "--trailing-comma", "es5", "--no-bracket-spacing"] ∧
      Invocation.read .builtIn (["--trailing-comma", "es5", "--no-bracket-spacing", "a.cjsx",
        "--tab-width", "4", "--use-js-modules"].map Utf8.encode) =
        .ok ⟨.ofString "a.cjsx", none, none, options, false, false, 0, false⟩ ∧
      StageOptions.resolve .builtIn options = .ok r := by
  obtain ⟨r, hr, hwords, hwords', hvalues, hgroups⟩ :
      ∃ r, StageOptions.resolve .builtIn .ofEveryKind = .ok r ∧
        r.dialect.words = ["--use-js-modules"] ∧
        r.format.words = ["--tab-width", "4", "--trailing-comma", "es5", "--no-bracket-spacing"] ∧
        (∀ p ∈ r.dialect.given ++ r.format.given, p.2.Dashless) ∧
        r.dialect.groups ++ r.format.groups = [["--use-js-modules"], ["--tab-width", "4"],
          ["--trailing-comma", "es5"], ["--no-bracket-spacing"]] := by
    decide +kernel
  obtain ⟨-, options, hread, -, hoptions⟩ := Invocation.read_optionWords .ofEveryKind r "a.cjsx"
    [["--trailing-comma", "es5"], ["--no-bracket-spacing"], ["a.cjsx"], ["--tab-width", "4"],
      ["--use-js-modules"]] hr hvalues (by decide) (by rw [hgroups]; decide)
  exact ⟨r, options, hr, hwords, hwords', hread, hoptions⟩

end CjsxConversion
