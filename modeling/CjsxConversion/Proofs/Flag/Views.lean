import CjsxConversion.Flag.Json
import CjsxConversion.Proofs.Flag.Typing
import Mathlib.Data.List.Dedup

/-!
# Two views of resolved flags

The values of resolved flags can be looked up one by one, or handed on together as a record. The
lookup takes the first flag with a key, whether it has a value or not. The record keeps the last
value that is written under a key.

The views agree where no value is handed on under a key that an earlier flag has as well. The
flags of a set have distinct setting keys, but the keys that they declare for handing values on
are free, and may coincide with those of other flags.

Main results:
* `Settings.size_ofList_eq_iff`: nothing is lost of what is written exactly under distinct keys.
* `ResolvedFlags.viewsAgree_iff`: the views agree exactly if no value is shadowed.
* `FlagSet.views_agree`: the views agree for all settings exactly if the keys of flags that can
  have a value are no keys of earlier flags.
-/

namespace CjsxConversion

/-! ### The record as an object -/

namespace Json

/-- The member of an object under a key. -/
def member? : Json → String → Option Json
  | .obj members, key => (members.find? fun m => m.1 == key).map (·.2)
  | _, _ => none

/-- The number of members of an object. -/
def memberCount : Json → Nat
  | .obj members => members.length
  | _ => 0

end Json

theorem FlagValue.toJson_injective : Function.Injective FlagValue.toJson := by
  intro v w h
  cases v with
  | bool b =>
    cases w with
    | bool c => cases h; rfl
    | int n => cases h
    | text t => cases h
  | int m =>
    cases w with
    | bool c => cases h
    | int n => rw [Int64.toInt_inj.1 (Json.int.inj h)]
    | text t => cases h
  | text t =>
    cases w with
    | bool c => cases h
    | int n => cases h
    | text t' => cases h; rfl

namespace Settings

theorem member?_toJson (s : Settings) (key : String) :
    s.toJson.member? key = (s.get? key).map FlagValue.toJson := by
  simp only [toJson, Json.member?, get?, List.find?_map, Option.map_map]
  rfl

theorem member?_toJson_eq_iff (s : Settings) (key : String) (v : FlagValue) :
    s.toJson.member? key = some v.toJson ↔ s.get? key = some v := by
  rw [member?_toJson]
  constructor
  · intro h
    obtain ⟨w, hw, hjson⟩ := Option.map_eq_some_iff.1 h
    rw [hw, FlagValue.toJson_injective hjson]
  · intro h
    rw [h, Option.map_some]

theorem memberCount_toJson (s : Settings) : s.toJson.memberCount = s.size := by
  simp [toJson, Json.memberCount, size]

theorem mem_keys_iff (s : Settings) (key : String) :
    key ∈ s.entries.map Prod.fst ↔ (s.get? key).isSome := by
  simp [get?]

theorem isSome_get?_insertAll (s : Settings) (row : List (String × FlagValue)) (key : String) :
    ((s.insertAll row).get? key).isSome ↔ key ∈ row.map Prod.fst ∨ (s.get? key).isSome := by
  induction row generalizing s with
  | nil => simp [insertAll]
  | cons e row ih =>
    rw [insertAll_cons, ih, get?_insert]
    by_cases h : e.1 = key
    · simp [h]
    · simp [h, Ne.symm h]

theorem keys_nodup (s : Settings) : (s.entries.map Prod.fst).Nodup :=
  List.pairwise_map.2 (s.ascending.imp fun hlt => String.ne_of_lt hlt)

/-- Nothing is lost of what is written exactly if it is written under distinct keys. -/
theorem size_ofList_eq_iff (row : List (String × FlagValue)) :
    (ofList row).size = row.length ↔ (row.map Prod.fst).Nodup := by
  have hperm : ((ofList row).entries.map Prod.fst).Perm (row.map Prod.fst).dedup := by
    refine (List.perm_ext_iff_of_nodup (keys_nodup _) (List.nodup_dedup _)).2 fun key => ?_
    rw [mem_keys_iff, ofList, isSome_get?_insertAll, List.mem_dedup]
    simp
  have hsize : (ofList row).size = (row.map Prod.fst).dedup.length := by
    rw [← hperm.length_eq, List.length_map, size]
  rw [hsize, ← List.length_map (f := Prod.fst)]
  constructor
  · intro h
    exact List.dedup_eq_self.1 ((List.dedup_sublist _).eq_of_length h)
  · intro h
    rw [h.dedup]

end Settings

/-! ### Resolved flags -/

namespace ResolvedFlags

/-- The views agree: a key has a value in the lookup exactly if the record has that value under
it, the record has as many members as there are values, and the key of each value is set. -/
structure ViewsAgree (r : ResolvedFlags) : Prop where
  get?_iff : ∀ key v, r.get? key = some v ↔ r.record.toJson.member? key = some v.toJson
  complete : r.record.toJson.memberCount = r.count
  isSet : ∀ p ∈ r.given, r.isSet p.1.key = true

/-- No value is handed on under a key that an earlier flag has. -/
def Unshadowed (r : ResolvedFlags) : Prop :=
  r.entries.Pairwise fun a b => b.value.isSome → a.key ≠ b.key

/-- The values with their keys, as they are written into the record. -/
def row (r : ResolvedFlags) : List (String × FlagValue) :=
  r.given.map fun p => (p.1.key, p.2)

theorem mem_row_iff {r : ResolvedFlags} {key : String} {v : FlagValue} :
    (key, v) ∈ r.row ↔ ∃ e ∈ r.entries, e.key = key ∧ e.value = some v := by
  simp [row, given, and_comm, and_left_comm]

section Cons

variable (name : String) (e : ResolvedFlag) (es : List ResolvedFlag)

theorem get?_cons (key : String) :
    get? ⟨name, e :: es⟩ key = if e.key = key then e.value else get? ⟨name, es⟩ key := by
  by_cases h : e.key = key <;> simp [get?, h]

theorem row_cons :
    row ⟨name, e :: es⟩ = (e.value.map fun v => (e.key, v)).toList ++ row ⟨name, es⟩ := by
  cases hvalue : e.value <;> simp [row, given, hvalue]

end Cons

/-- Values that are not shadowed lie under distinct keys. -/
theorem Unshadowed.keys_nodup {r : ResolvedFlags} (h : r.Unshadowed) :
    (r.row.map Prod.fst).Nodup := by
  have hpairs : r.given.Pairwise fun p q => p.1.key ≠ q.1.key := by
    refine List.pairwise_filterMap.2 (h.imp fun hab p hp q hq => ?_)
    obtain ⟨v, -, rfl⟩ := Option.map_eq_some_iff.1 hp
    obtain ⟨w, hw, rfl⟩ := Option.map_eq_some_iff.1 hq
    exact hab (by simp [hw])
  rw [row, List.map_map]
  exact List.pairwise_map.2 hpairs

/-- Values that are not shadowed are found. -/
theorem Unshadowed.get?_iff {name : String} {es : List ResolvedFlag}
    (h : Unshadowed ⟨name, es⟩) (key : String) (v : FlagValue) :
    get? ⟨name, es⟩ key = some v ↔ (key, v) ∈ row ⟨name, es⟩ := by
  induction es with
  | nil => simp [get?, row, given]
  | cons e es ih =>
    obtain ⟨hhead, htail⟩ := List.pairwise_cons.1 h
    rw [get?_cons]
    by_cases hkey : e.key = key
    · have hlater : (key, v) ∉ row ⟨name, es⟩ := by
        rw [mem_row_iff]
        rintro ⟨b, hb, hbkey, hvalue⟩
        exact hhead b hb (by simp [hvalue]) (hkey.trans hbkey.symm)
      rw [if_pos hkey, row_cons, List.mem_append, or_iff_left hlater]
      simp [hkey]
    · rw [if_neg hkey, ih htail, row_cons, List.mem_append, or_iff_right]
      simp [hkey]

/-- Values that lie under distinct keys, and are all found, are not shadowed. -/
theorem unshadowed_of_isSet {name : String} {es : List ResolvedFlag}
    (hkeys : ((row ⟨name, es⟩).map Prod.fst).Nodup)
    (hset : ∀ p ∈ row ⟨name, es⟩, (get? ⟨name, es⟩ p.1).isSome) : Unshadowed ⟨name, es⟩ := by
  induction es with
  | nil => exact .nil
  | cons e es ih =>
    rw [row_cons, List.map_append] at hkeys
    have hlater : ∀ p ∈ row ⟨name, es⟩, e.key ≠ p.1 := by
      intro p hp hkey
      have hfound := hset p (by simp [row_cons, hp])
      rw [get?_cons, if_pos hkey] at hfound
      obtain ⟨v, hv⟩ := Option.isSome_iff_exists.1 hfound
      -- The first flag with the key has a value as well, so the key is there twice.
      have hdisjoint := (List.nodup_append.1 hkeys).2.2
      exact hdisjoint e.key (by simp [hv]) p.1 (List.mem_map_of_mem hp) hkey
    have hrest : Unshadowed ⟨name, es⟩ := by
      refine ih (List.nodup_append.1 hkeys).2.1 fun p hp => ?_
      have hfound := hset p (by simp [row_cons, hp])
      rwa [get?_cons, if_neg (hlater p hp)] at hfound
    refine List.pairwise_cons.2 ⟨fun b hb hvalue => ?_, hrest⟩
    obtain ⟨w, hw⟩ := Option.isSome_iff_exists.1 hvalue
    exact hlater (b.key, w) (mem_row_iff.2 ⟨b, hb, rfl, hw⟩)

/-- The views agree exactly if no value is shadowed. -/
theorem viewsAgree_iff (r : ResolvedFlags) : r.ViewsAgree ↔ r.Unshadowed := by
  have hcomplete : r.record.toJson.memberCount = r.count ↔ (r.row.map Prod.fst).Nodup := by
    have hcount : r.count = r.row.length := by simp [count, row]
    rw [Settings.memberCount_toJson, hcount, ← Settings.size_ofList_eq_iff]
    rfl
  constructor
  · rintro ⟨-, hsize, hset⟩
    refine unshadowed_of_isSet (hcomplete.1 hsize) fun p hp => ?_
    obtain ⟨q, hq, rfl⟩ := List.mem_map.1 hp
    exact hset q hq
  · intro h
    have hkeys := h.keys_nodup
    refine ⟨fun key v => ?_, hcomplete.2 hkeys, fun p hp => ?_⟩
    · rw [h.get?_iff, Settings.member?_toJson_eq_iff, record]
      exact (Settings.get?_ofList_eq_some_iff hkeys).symm
    · have hfound := (h.get?_iff p.1.key p.2).2 (List.mem_map.2 ⟨p, hp, rfl⟩)
      rw [isSet, hfound, Option.isSome_some]

end ResolvedFlags

/-! ### Sets of flags -/

/-- A flag that can have a value: only one that lists no word, not even for a truth value, cannot.
-/
def Flag.Settable (f : Flag) : Prop :=
  f.kind = .choice [] → f.truthWords.isSome

instance (f : Flag) : Decidable f.Settable :=
  inferInstanceAs (Decidable (_ → _))

theorem Flag.settable_iff {f : Flag} :
    f.Settable ↔ ∃ raw v, f.fit raw = .ok v ∧ v ≠ .bool false := by
  constructor
  · intro h
    cases hkind : f.kind with
    | toggle => exact ⟨.bool true, .bool true, by simp [fit, hkind], by simp⟩
    | integer => exact ⟨.int 0, .int 0, by simp [fit, hkind], by simp⟩
    | text => exact ⟨.text "", .text "", by simp [fit, hkind], by simp⟩
    | choice words =>
      cases htruth : f.truthWords with
      | some w =>
        exact ⟨.bool true, .text (truthWord w true), fit_of_tells hkind htruth (.inl rfl), by simp⟩
      | none =>
        cases words with
        | nil => simp [Settable, hkind, htruth] at h
        | cons t words =>
          exact ⟨.text t, .text t, by simp [fit, fitWord, hkind, htruth], by simp⟩
  · rintro ⟨raw, v, hfit, -⟩ hkind
    rcases listed_or_told_of_fit hkind hfit with ⟨-, t, ht, -⟩ | ⟨w, b, htruth, -⟩
    · simp at ht
    · simp [htruth]

namespace FlagSet

variable {s : FlagSet} {settings : Settings} {r : ResolvedFlags}

/-- The keys of flags that can have a value are no keys of earlier flags. -/
def KeysApart (s : FlagSet) : Prop :=
  s.flags.Pairwise fun f g => g.Settable → f.ownKey.getD f.settingKey ≠ g.ownKey.getD g.settingKey

instance (s : FlagSet) : Decidable s.KeysApart :=
  inferInstanceAs (Decidable (List.Pairwise _ _))

theorem KeysApart.unshadowed (hs : s.KeysApart) (h : s.resolve settings = .ok r) :
    r.Unshadowed := by
  rw [eq_entriesAfter_of_resolve h]
  refine List.pairwise_map.2 (hs.imp_of_mem fun {f g} _ hg hkeys hvalue => hkeys ?_)
  obtain ⟨v, hv⟩ := Option.isSome_iff_exists.1 hvalue
  have hmeans := means_valueAfter hg (sound_of_resolve h g hg)
  have hsome : s.valueAfter settings s.flags g = some v := hv
  rw [hsome] at hmeans
  cases hmeans with
  | given configured fits holds => exact Flag.settable_iff.2 ⟨_, v, fits, holds⟩
  | negated absent member off negates =>
    intro hchoice
    simp [kind_of_negation? negates] at hchoice

theorem keysApart_of_viewsAgree
    (h : ∀ settings r, s.resolve settings = .ok r → r.ViewsAgree) : s.KeysApart := by
  refine List.pairwise_iff_forall_sublist.2 fun {f g} hsub hsettable => ?_
  have hg : g ∈ s.flags := hsub.subset (by simp)
  obtain ⟨raw, v, hfit, hfalse⟩ := Flag.settable_iff.1 hsettable
  -- With a value for the later flag alone, the earlier one would shadow it.
  have hagree := h _ _ (resolve_single hg hfit hfalse)
  have hpairs := List.pairwise_map.1 ((ResolvedFlags.viewsAgree_iff _).1 hagree)
  exact List.pairwise_iff_forall_sublist.1 hpairs hsub (by simp [entryOf])

/-- The views of resolved flags agree exactly if no value is shadowed, and they do so whatever
the settings are exactly if the keys of flags that can have a value are no keys of earlier
flags. -/
theorem views_agree (s : FlagSet) :
    (∀ settings r, s.resolve settings = .ok r → (r.ViewsAgree ↔ r.Unshadowed)) ∧
    ((∀ settings r, s.resolve settings = .ok r → r.ViewsAgree) ↔ s.KeysApart) := by
  refine ⟨fun _ r _ => r.viewsAgree_iff, keysApart_of_viewsAgree, fun hs settings r h => ?_⟩
  exact r.viewsAgree_iff.2 (hs.unshadowed h)

example : Catalog.decaffeinate.KeysApart := by decide +kernel

/-- Two toggles that are handed on under the same key. -/
def sharing : FlagSet where
  name := "decaffeinate"
  version := "7"
  flags := [{ spelling := "--use-js-modules", kind := .toggle, ownKey := some "useModules" },
    { spelling := "--use-es-modules", kind := .toggle, ownKey := some "useModules" }]
  distinct := by decide

/-- A value that the record has is not found, and of two values the record has only one. -/
theorem shared_key_misread :
    (∃ r, sharing.resolve (.ofList [("useEsModules", .bool true)]) = .ok r ∧
      r.record.toJson.member? "useModules" = some (FlagValue.bool true).toJson ∧
      r.get? "useModules" = none ∧ r.isSet "useModules" = false ∧ ¬ r.ViewsAgree) ∧
    ∃ r, sharing.resolve (.ofList [("useEsModules", .bool true), ("useJsModules", .bool true)]) =
        .ok r ∧ r.count = 2 ∧ r.record.toJson.memberCount = 1 := by
  refine ⟨⟨_, rfl, rfl, rfl, rfl, fun h => ?_⟩, ⟨_, rfl, rfl, rfl⟩⟩
  have hset := h.isSet (⟨"--use-es-modules", "useModules", some (.bool true)⟩, .bool true)
    List.mem_cons_self
  exact absurd hset (by decide)

end FlagSet
end CjsxConversion
