import CjsxConversion.ConfigFault
import CjsxConversion.Flag.Basic

/-!
# Sets of flags

The flags of one tool, in order, no two of them with the same setting key.

Main results:
* `ofFlags_eq_ok_iff`: a list of flags makes a set exactly when its setting keys are distinct.
* `find?_spelling`: a member is found by its spelling.
-/

namespace CjsxConversion

/-- The flags of one version of a tool, in the order in which they are handed on. No two share a
setting key. -/
structure FlagSet where
  name : String
  version : String
  flags : List Flag
  distinct : (flags.map Flag.settingKey).Nodup
  deriving DecidableEq

namespace FlagSet

/-- The first flag whose setting key has been seen before. -/
def firstRepeat? (seen : List String) : List Flag → Option Flag
  | [] => none
  | f :: rest =>
    if f.settingKey ∈ seen then some f else firstRepeat? (f.settingKey :: seen) rest

theorem firstRepeat?_eq_none {seen : List String} :
    ∀ {flags : List Flag}, firstRepeat? seen flags = none ↔
      (flags.map Flag.settingKey).Nodup ∧ ∀ f ∈ flags, f.settingKey ∉ seen
  | [] => by simp [firstRepeat?]
  | f :: rest => by
    unfold firstRepeat?
    split
    · next h => simp [h]
    · next h =>
      rw [firstRepeat?_eq_none]
      simp only [List.mem_cons, not_or, List.map_cons, List.nodup_cons, List.mem_map,
        not_exists, not_and, forall_eq_or_imp]
      constructor
      · rintro ⟨hd, hs⟩
        exact ⟨⟨fun g hg he => (hs g hg).1 he, hd⟩, h, fun g hg => (hs g hg).2⟩
      · rintro ⟨⟨hf, hd⟩, -, hs⟩
        exact ⟨hd, fun g hg => ⟨fun he => hf g hg he, hs g hg⟩⟩

/-- Makes a set of a list of flags, refusing a repeated setting key. -/
def ofFlags (name version : String) (flags : List Flag) : Except ConfigFault FlagSet :=
  match h : firstRepeat? [] flags with
  | some f => .error (.repeatedFlag name f.spelling)
  | none => .ok ⟨name, version, flags, (firstRepeat?_eq_none.1 h).1⟩

/-- A list of flags makes a set exactly when its setting keys are distinct. -/
theorem ofFlags_eq_ok_iff {name version : String} {flags : List Flag} {s : FlagSet} :
    ofFlags name version flags = .ok s ↔
      (flags.map Flag.settingKey).Nodup ∧ s.name = name ∧ s.version = version ∧
        s.flags = flags := by
  unfold ofFlags
  split
  · next f h =>
    have hn : ¬(flags.map Flag.settingKey).Nodup := fun hd => by
      have hnone : firstRepeat? [] flags = none := firstRepeat?_eq_none.2 ⟨hd, by simp⟩
      rw [hnone] at h
      cases h
    simp [hn]
  · next h =>
    have hd := (firstRepeat?_eq_none.1 h).1
    constructor
    · intro e
      cases e
      exact ⟨hd, rfl, rfl, rfl⟩
    · rintro ⟨-, rfl, rfl, rfl⟩
      rfl

def find? (s : FlagSet) (spelling : String) : Option Flag :=
  s.flags.find? fun f => f.spelling == spelling

/-- The toggle that switches a toggle off. -/
def negation? (s : FlagSet) (f : Flag) : Option Flag :=
  if f.kind = .toggle then
    (s.find? (oppositeSpelling f.name)).filter fun g => g.kind = .toggle
  else none

/-- Where setting keys are distinct, a flag is known by its key. -/
theorem eq_of_settingKey_eq :
    ∀ {flags : List Flag}, (flags.map Flag.settingKey).Nodup → ∀ {f g : Flag},
      f ∈ flags → g ∈ flags → f.settingKey = g.settingKey → f = g
  | [], _, _, _, hf, _, _ => nomatch hf
  | a :: rest, hd, f, g, hf, hg, h => by
    rw [List.map_cons, List.nodup_cons] at hd
    have hout : ∀ b ∈ rest, a.settingKey ≠ b.settingKey := fun b hb e =>
      hd.1 (e ▸ List.mem_map_of_mem hb)
    rcases List.mem_cons.1 hf with hfa | hfr
    · rcases List.mem_cons.1 hg with hga | hgr
      · exact hfa.trans hga.symm
      · exact absurd (hfa ▸ h) (hout g hgr)
    · rcases List.mem_cons.1 hg with hga | hgr
      · exact absurd (hga ▸ h.symm) (hout f hfr)
      · exact eq_of_settingKey_eq hd.2 hfr hgr h

/-- A member is found by its spelling. -/
theorem find?_spelling (s : FlagSet) {f : Flag} (hf : f ∈ s.flags) :
    s.find? f.spelling = some f := by
  cases h : s.find? f.spelling with
  | none => exact absurd (List.find?_eq_none.1 h f hf) (by simp)
  | some g =>
    have hg : g ∈ s.flags := List.mem_of_find?_eq_some h
    have hs : g.spelling = f.spelling := by simpa using List.find?_some h
    rw [eq_of_settingKey_eq s.distinct hg hf (by simp [Flag.settingKey, hs])]

end FlagSet
end CjsxConversion
