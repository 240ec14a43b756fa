import CjsxConversion.Proofs.Flag.Meaning
import CjsxConversion.Flag.Catalog
import Mathlib.Tactic.Tauto

/-!
# Toggles that say the opposite

The opposite of a name is found by its beginning. The beginnings `allow-` and `disallow-` are
exchanged, and so are `enable-` and `disable-`; a `no-` is taken off, and any other name gets one.
The opposite of the opposite need not be the name: from `no-allow-x` one comes to `allow-x` and from
there to `disallow-x`, and dashes behind a `no-` are lost with those of the flag.

`Opposes` says which name is the opposite of which, without dashes in front. It is a
function, and its rules are each turned round by one of them, but for the rule that takes a `no-`
off: what is left must be a name that gets a `no-`.

Main results:
* `oppositeChars_eq_iff`: the opposite of a name by the rule for its beginning.
* `Opposes.ne`: no name is its own opposite.
* `opposite_restored_iff`: the names that are the opposites of their opposites.
* `FlagSet.negation?_symm`: in a set of flags with such names, negation is symmetric.
* `negation_pairs`: all of this, for names and for sets of flags.
-/

namespace CjsxConversion

/-- The beginnings that are exchanged. -/
def exchanged : List (List Char × List Char) :=
  [("disallow-".toList, "allow-".toList), ("allow-".toList, "disallow-".toList),
    ("disable-".toList, "enable-".toList), ("enable-".toList, "disable-".toList)]

/-- A name begins as no rule but the last wants it. -/
def Unmarked (name : List Char) : Prop :=
  (∀ p ∈ exchanged, ¬ p.1 <+: name) ∧ ¬ "no-".toList <+: name

/-- A name is the opposite of another one. -/
inductive Opposes : List Char → List Char → Prop
  | exchange {p : List Char × List Char} (rest : List Char) (known : p ∈ exchanged) :
      Opposes (p.1 ++ rest) (p.2 ++ rest)
  | takeOff (rest : List Char) : Opposes ("no-".toList ++ rest) rest
  | putOn {name : List Char} (unmarked : Unmarked name) : Opposes name ("no-".toList ++ name)

namespace Search

theorem afterStart?_eq_none {ps cs : List Char} (h : ¬ ps <+: cs) : afterStart? ps cs = none := by
  rw [Option.eq_none_iff_forall_ne_some]
  intro rest hrest
  exact h ⟨rest, (eq_append_of_afterStart? hrest).symm⟩

end Search

/-! ### The opposite of a name -/

section Opposite

variable {name said : List Char}

theorem oppositeChars_exchange {p : List Char × List Char} (h : p ∈ exchanged) (rest : List Char) :
    oppositeChars (p.1 ++ rest) = "--".toList ++ (p.2 ++ rest) := by
  simp only [exchanged, List.mem_cons, List.not_mem_nil, or_false] at h
  rcases h with rfl | rfl | rfl | rfl <;> rfl

theorem oppositeChars_unmarked (h : Unmarked name) :
    oppositeChars name = "--".toList ++ ("no-".toList ++ name) := by
  have hno : ∀ p ∈ exchanged, Search.afterStart? p.1 name = none :=
    fun p hp => Search.afterStart?_eq_none (h.1 p hp)
  simp only [exchanged, List.forall_mem_cons] at hno
  obtain ⟨hdisallow, hallow, hdisable, henable, -⟩ := hno
  unfold oppositeChars
  rw [hdisallow, hallow, hdisable, henable, Search.afterStart?_eq_none h.2]
  rfl

theorem Opposes.oppositeChars_eq (h : Opposes name said) :
    oppositeChars name = "--".toList ++ said := by
  cases h with
  | exchange rest known => exact oppositeChars_exchange known rest
  | takeOff => rfl
  | putOn unmarked => exact oppositeChars_unmarked unmarked

theorem exists_opposes (name : List Char) : ∃ said, Opposes name said := by
  by_cases hexchanged : ∃ p ∈ exchanged, p.1 <+: name
  · obtain ⟨p, hp, rest, rfl⟩ := hexchanged
    exact ⟨_, .exchange rest hp⟩
  by_cases hno : "no-".toList <+: name
  · obtain ⟨rest, rfl⟩ := hno
    exact ⟨_, .takeOff rest⟩
  · exact ⟨_, .putOn ⟨by simpa using hexchanged, hno⟩⟩

/-- The opposite of a name is found by the rule for its beginning. -/
theorem oppositeChars_eq_iff : oppositeChars name = "--".toList ++ said ↔ Opposes name said := by
  constructor
  · intro h
    obtain ⟨said', hsaid'⟩ := exists_opposes name
    rw [hsaid'.oppositeChars_eq] at h
    exact List.append_cancel_left h ▸ hsaid'
  · exact Opposes.oppositeChars_eq

/-- What is exchanged is exchanged back, and begins neither with a dash nor as a `no-` does. -/
theorem exchanged_back {p : List Char × List Char} (h : p ∈ exchanged) :
    (p.2, p.1) ∈ exchanged ∧ p.1 ≠ p.2 ∧ ∃ c cs, p.2 = c :: cs ∧ c ≠ '-' ∧ c ≠ 'n' := by
  simp only [exchanged, List.mem_cons, List.not_mem_nil, or_false] at h
  rcases h with rfl | rfl | rfl | rfl
  all_goals exact ⟨by decide, by decide, _, _, rfl, by decide, by decide⟩

theorem ne_no_append (cs : List Char) : cs ≠ "no-".toList ++ cs := by
  intro h
  have hlength := congrArg List.length h
  have hmark : "no-".toList.length = 3 := rfl
  rw [List.length_append] at hlength
  omega

/-- No name is its own opposite. -/
theorem Opposes.ne (h : Opposes name said) : name ≠ said := by
  intro heq
  cases h with
  | exchange rest known => exact (exchanged_back known).2.1 (List.append_cancel_right heq)
  | takeOff => exact ne_no_append said heq.symm
  | putOn unmarked => exact ne_no_append name heq

end Opposite

/-! ### The opposite of the opposite -/

section Again

variable {name rest said : List Char}

/-- A name as it is written behind dashes. -/
def dropDashes (cs : List Char) : List Char :=
  cs.dropWhile (· = '-')

theorem dropDashes_cons {c : Char} (hc : c ≠ '-') (cs : List Char) :
    dropDashes (c :: cs) = c :: cs := by
  simp [dropDashes, hc]

theorem dropDashes_eq_self_iff {cs : List Char} : dropDashes cs = cs ↔ ¬ ['-'] <+: cs := by
  cases cs with
  | nil => simp [dropDashes]
  | cons c cs =>
    by_cases hc : c = '-'
    · have hlength : (dropDashes cs).length ≤ cs.length := (List.dropWhile_suffix _).length_le
      have hshorter : dropDashes (c :: cs) ≠ c :: cs := fun h => by
        have hsame := congrArg List.length h
        simp only [dropDashes, hc, decide_true, List.dropWhile_cons_of_pos] at hsame hlength
        rw [List.length_cons] at hsame
        omega
      simp [hc ▸ hshorter, hc]
    · simp [dropDashes_cons hc, Ne.symm hc]

/-- What is left when a `no-` is taken off has the name as its opposite if it gets a `no-`. -/
theorem opposes_dropDashes_iff :
    Opposes (dropDashes rest) ("no-".toList ++ rest) ↔ ¬ ['-'] <+: rest ∧ Unmarked rest := by
  constructor
  · intro h
    have hlength : (dropDashes rest).length ≤ rest.length := (List.dropWhile_suffix _).length_le
    generalize hleft : dropDashes rest = left at h hlength
    generalize hname : "no-".toList ++ rest = name at h
    cases h with
    | exchange more known =>
      obtain ⟨-, -, c, cs, hback, -, hc⟩ := exchanged_back known
      rw [hback] at hname
      exact absurd (List.cons.inj hname).1.symm hc
    | takeOff =>
      have hsame := congrArg List.length hname
      simp only [List.length_append] at hsame hlength
      have hmark : "no-".toList.length = 3 := rfl
      omega
    | putOn unmarked =>
      obtain rfl := List.append_cancel_left hname
      exact ⟨dropDashes_eq_self_iff.1 hleft, unmarked⟩
  · rintro ⟨hdash, hunmarked⟩
    rw [dropDashes_eq_self_iff.2 hdash]
    exact .putOn hunmarked

/-- A name is restored unless a `no-` is taken off what begins with a dash or a mark. -/
theorem Opposes.back_iff (h : Opposes name said) :
    Opposes (dropDashes said) name ↔
      ∀ rest, name = "no-".toList ++ rest → ¬ ['-'] <+: rest ∧ Unmarked rest := by
  cases h with
  | @exchange p rest known =>
    obtain ⟨hback, -, c, cs, hsaid, hdash, -⟩ := exchanged_back known
    obtain ⟨-, -, d, ds, hname, -, hd⟩ := exchanged_back hback
    have hother : ∀ rest', p.1 ++ rest ≠ "no-".toList ++ rest' := by
      intro rest' heq
      rw [show p.1 = d :: ds from hname] at heq
      exact hd (List.cons.inj heq).1
    have hkept : dropDashes (p.2 ++ rest) = p.2 ++ rest := by
      rw [hsaid]
      exact dropDashes_cons hdash _
    rw [hkept]
    exact iff_of_true (.exchange rest hback) fun rest' heq => absurd heq (hother rest')
  | takeOff =>
    rw [opposes_dropDashes_iff]
    constructor
    · intro h rest heq
      obtain rfl := List.append_cancel_left heq
      exact h
    · intro h
      exact h said rfl
  | putOn unmarked =>
    have hkept : dropDashes ("no-".toList ++ name) = "no-".toList ++ name :=
      dropDashes_cons (by decide) _
    rw [hkept]
    exact iff_of_true (.takeOff name) fun rest heq => absurd ⟨rest, heq.symm⟩ unmarked.2

end Again

/-! ### Sets of flags -/

/-- A text begins with another one. -/
def Begins (p n : String) : Prop :=
  ∃ rest, n = p ++ rest

theorem begins_iff {p n : String} : Begins p n ↔ p.toList <+: n.toList := by
  constructor
  · rintro ⟨rest, rfl⟩
    exact ⟨rest.toList, String.toList_append.symm⟩
  · rintro ⟨rest, hrest⟩
    exact ⟨String.ofList rest, String.toList_injective (by simp [hrest])⟩

instance (p n : String) : Decidable (Begins p n) :=
  decidable_of_iff _ begins_iff.symm

/-- The beginnings that are lost behind a `no-`. -/
def lostBeginnings : List String :=
  ["allow-", "disallow-", "enable-", "disable-", "no-", "-"]

/-- A name that is not restored: a `no-` stands before a beginning that is lost behind it. -/
def IsOverlaid (n : String) : Prop :=
  ∃ m, n = "no-" ++ m ∧ ∃ p ∈ lostBeginnings, Begins p m

theorem isOverlaid_iff {n : String} :
    IsOverlaid n ↔ ∃ p ∈ lostBeginnings, Begins ("no-" ++ p) n := by
  constructor
  · rintro ⟨m, rfl, p, hp, rest, rfl⟩
    exact ⟨p, hp, rest, String.append_assoc.symm⟩
  · rintro ⟨p, hp, rest, rfl⟩
    exact ⟨p ++ rest, String.append_assoc, p, hp, rest, rfl⟩

instance (n : String) : Decidable (IsOverlaid n) :=
  decidable_of_iff _ isOverlaid_iff.symm

/-- What is left of a spelling without the dashes in front. -/
def withoutDashes (spelling : String) : String :=
  String.ofList (dropDashes spelling.toList)

theorem oppositeSpelling_eq_iff {n said : String} :
    oppositeSpelling n = "--" ++ said ↔ Opposes n.toList said.toList := by
  rw [← oppositeChars_eq_iff, oppositeSpelling, ← String.toList_inj, String.toList_ofList,
    String.toList_append]

theorem begins_lost_iff {rest : List Char} :
    (∃ p ∈ lostBeginnings, p.toList <+: rest) ↔ ¬ (¬ ['-'] <+: rest ∧ Unmarked rest) := by
  have hdash : "-".toList = ['-'] := rfl
  simp only [lostBeginnings, Unmarked, exchanged, List.exists_mem_cons_iff, List.forall_mem_cons,
    hdash]
  simp only [List.not_mem_nil, false_and, exists_false, false_imp_iff, implies_true]
  tauto

/-- A name is the opposite of its opposite unless it is overlaid. -/
theorem opposite_restored_iff (n : String) :
    oppositeSpelling (withoutDashes (oppositeSpelling n)) = "--" ++ n ↔ ¬ IsOverlaid n := by
  obtain ⟨said, hsaid⟩ := exists_opposes n.toList
  have hspelling : (oppositeSpelling n).toList = "--".toList ++ said := by
    rw [oppositeSpelling, String.toList_ofList, hsaid.oppositeChars_eq]
  have hwithout : (withoutDashes (oppositeSpelling n)).toList = dropDashes said := by
    rw [withoutDashes, String.toList_ofList, hspelling]
    rfl
  rw [oppositeSpelling_eq_iff, hwithout, hsaid.back_iff]
  constructor
  · rintro h ⟨m, rfl, p, hp, hm⟩
    exact begins_lost_iff.1 ⟨p, hp, begins_iff.1 hm⟩ (h m.toList String.toList_append)
  · intro h rest hrest
    refine Classical.byContradiction fun hlost => ?_
    obtain ⟨p, hp, hbegins⟩ := begins_lost_iff.2 hlost
    have hname : n = "no-" ++ String.ofList rest := String.toList_injective (by simp [hrest])
    exact h ⟨_, hname, p, hp, begins_iff.2 (by rwa [String.toList_ofList])⟩

theorem oppositeSpelling_ne (n : String) : oppositeSpelling n ≠ "--" ++ n := by
  intro h
  exact (oppositeSpelling_eq_iff.1 h).ne rfl

/-- What begins with an exchanged beginning is not overlaid. -/
theorem not_isOverlaid_of_begins {n p : String}
    (hp : p ∈ ["allow-", "disallow-", "enable-", "disable-"]) (h : Begins p n) :
    ¬ IsOverlaid n := by
  rintro ⟨m, hm, -⟩
  obtain ⟨rest, rfl⟩ := h
  have hhead := congrArg String.toList hm
  rw [String.toList_append, String.toList_append] at hhead
  simp only [List.mem_cons, List.not_mem_nil, or_false] at hp
  rcases hp with rfl | rfl | rfl | rfl
  all_goals exact absurd (List.cons.inj hhead).1 (by decide)

namespace Flag

/-- A flag of two dashes and a name that is restored. -/
def IsRestorable (f : Flag) : Prop :=
  ∃ n, f.spelling = "--" ++ n ∧ ¬ Begins "-" n ∧ ¬ IsOverlaid n

theorem name_eq {f : Flag} {n : String} (h : f.spelling = "--" ++ n) (hdash : ¬ Begins "-" n) :
    f.name = n := by
  have hkept : dropDashes n.toList = n.toList :=
    dropDashes_eq_self_iff.2 fun h => hdash (begins_iff.2 h)
  have hname : f.name = withoutDashes f.spelling := rfl
  rw [hname, withoutDashes, h, String.toList_append, ← String.toList_inj, String.toList_ofList]
  exact hkept

theorem isRestorable_iff {f : Flag} :
    f.IsRestorable ↔ f.spelling = "--" ++ f.name ∧ ¬ Begins "-" f.name ∧ ¬ IsOverlaid f.name := by
  constructor
  · rintro ⟨n, hspelling, hdash, hoverlaid⟩
    rw [name_eq hspelling hdash]
    exact ⟨hspelling, hdash, hoverlaid⟩
  · intro h
    exact ⟨f.name, h⟩

instance (f : Flag) : Decidable f.IsRestorable :=
  decidable_of_iff _ isRestorable_iff.symm

end Flag

namespace FlagSet

variable {s : FlagSet} {f g : Flag}

theorem negation?_eq_some_iff : s.negation? f = some g ↔
    f.kind = .toggle ∧ g ∈ s.flags ∧ g.spelling = oppositeSpelling f.name ∧ g.kind = .toggle := by
  unfold negation?
  split
  · next hkind => simp [Option.filter_eq_some_iff, find?_eq_some_iff, hkind, and_assoc]
  · next hkind => simp [hkind]

/-- Negation is symmetric for a member whose name is restored. -/
theorem negation?_symm (hf : f ∈ s.flags) (hrestored : f.IsRestorable)
    (h : s.negation? f = some g) : s.negation? g = some f := by
  obtain ⟨hkind, hg, hspelling, hgkind⟩ := negation?_eq_some_iff.1 h
  obtain ⟨hdashes, -, hoverlaid⟩ := Flag.isRestorable_iff.1 hrestored
  have hback : oppositeSpelling g.name = f.spelling := by
    have hname : g.name = withoutDashes g.spelling := rfl
    rw [hname, hspelling, hdashes]
    exact (opposite_restored_iff f.name).2 hoverlaid
  exact negation?_eq_some_iff.2 ⟨hgkind, hf, hback.symm, hkind⟩

theorem negation?_ne_self (hdashes : f.spelling = "--" ++ f.name) : s.negation? f ≠ some f := by
  intro h
  obtain ⟨-, -, hspelling, -⟩ := negation?_eq_some_iff.1 h
  exact oppositeSpelling_ne f.name (hspelling.symm.trans hdashes)

end FlagSet

/-- When the opposite of the opposite is the name itself: exactly if the name is not a `no-` with
a lost beginning behind it, so that names with an exchanged beginning are always restored. In a set
of flags with such names, negation is symmetric, and no flag is its own negation. -/
theorem negation_pairs :
    (∀ n : String, oppositeSpelling (withoutDashes (oppositeSpelling n)) = "--" ++ n ↔
      ¬ ∃ m, n = "no-" ++ m ∧
        ∃ p ∈ ["allow-", "disallow-", "enable-", "disable-", "no-", "-"], Begins p m) ∧
    (∀ n : String, ∀ p ∈ ["allow-", "disallow-", "enable-", "disable-"], Begins p n →
      oppositeSpelling (withoutDashes (oppositeSpelling n)) = "--" ++ n) ∧
    ∀ s : FlagSet, (∀ f ∈ s.flags, f.IsRestorable) → ∀ f ∈ s.flags,
      (∀ g, s.negation? f = some g → s.negation? g = some f) ∧ s.negation? f ≠ some f := by
  refine ⟨opposite_restored_iff, fun n p hp h => ?_, fun s hs f hf => ⟨fun g h => ?_, ?_⟩⟩
  · exact (opposite_restored_iff n).2 (not_isOverlaid_of_begins hp h)
  · exact FlagSet.negation?_symm hf (hs f hf) h
  · exact FlagSet.negation?_ne_self (Flag.isRestorable_iff.1 (hs f hf)).1

/-- A mark behind a `no-` is lost, and one in front of it is not. The flags of prettier have names
that are restored. -/
theorem marks_in_front_restored :
    oppositeSpelling (withoutDashes (oppositeSpelling "no-allow-let")) ≠ "--no-allow-let" ∧
      oppositeSpelling (withoutDashes (oppositeSpelling "allow-no-let")) = "--allow-no-let" ∧
      ∃ f ∈ Catalog.prettier.flags, f.spelling = "--no-bracket-spacing" ∧
        ∃ g ∈ Catalog.prettier.flags, Catalog.prettier.negation? f = some g ∧
          Catalog.prettier.negation? g = some f := by
  obtain ⟨hrestored, hmarked, hsets⟩ := negation_pairs
  obtain ⟨f, hf, hspelling, g, hg, hneg⟩ : ∃ f ∈ Catalog.prettier.flags,
      f.spelling = "--no-bracket-spacing" ∧
        ∃ g ∈ Catalog.prettier.flags, Catalog.prettier.negation? f = some g := by
    decide +kernel
  have hnames : ∀ f ∈ Catalog.prettier.flags, f.IsRestorable := by decide +kernel
  refine ⟨fun h => ?_, hmarked "allow-no-let" "allow-" (by simp) ⟨"no-let", rfl⟩, f, hf, hspelling,
    g, hg, hneg, (hsets Catalog.prettier hnames f hf).1 g hneg⟩
  exact (hrestored "no-allow-let").1 h ⟨"allow-let", rfl, "allow-", by simp, "let", rfl⟩

end CjsxConversion
