import CjsxConversion.Proofs.FileTree.NewFile
import CjsxConversion.Proofs.Path.Components
import Mathlib.Data.List.Nodup
import Mathlib.Data.List.Perm.Subperm

/-!
# Names that are free

A new file is given a name that nothing has yet: numbers are tried one after the other until the
path leads to nothing. As many numbers are tried as the tree has entries, and no more names than
that are taken.

A tree is `Linkless` if nothing in it is a link, and a path is `IsTaken` if something
stands where it leads.

Main results:
* `sixDigits_injective`: different numbers have different names.
* `exists_end_of_walk`: without links, a walk ends at the last name of its segments.
* `freePathFrom_eq`: the first path that is not taken is found.
* `le_length_of_taken`: no more names are taken than a tree has entries.
-/

namespace CjsxConversion
namespace FileTree

variable {t u : FileTree} {links : Nat} {here l : Location} {s : Octets} {rest ss : List Octets}
  {p : Path}

/-! ### Numbered names -/

theorem isDigit_of_mem_padded {n : Nat} {c : Char}
    (h : c ∈ List.replicate (6 - (Nat.toDigits 10 n).length) '0' ++ Nat.toDigits 10 n) :
    c.isDigit = true := by
  rcases List.mem_append.1 h with hzero | hdigit
  · rw [List.eq_of_mem_replicate hzero]
    decide
  · exact Nat.isDigit_of_mem_toDigits (by decide) (by decide) hdigit

theorem octet_of_isDigit {c : Char} (h : c.isDigit = true) :
    (UInt8.ofNat c.toNat).toNat = c.toNat ∧ 48 ≤ c.toNat ∧ c.toNat ≤ 57 := by
  simp only [Char.isDigit, Bool.and_eq_true, decide_eq_true_eq, ge_iff_le,
    UInt32.le_iff_toNat_le] at h
  obtain ⟨hlow, hhigh⟩ : 48 ≤ c.toNat ∧ c.toNat ≤ 57 := h
  refine ⟨?_, hlow, hhigh⟩
  rw [UInt8.toNat_ofNat']
  omega

theorem six_le_length_sixDigits (n : Nat) : 6 ≤ (sixDigits n).length := by
  simp only [sixDigits, List.length_map, List.length_append, List.length_replicate]
  omega

theorem mem_sixDigits {n : Nat} {b : UInt8} (h : b ∈ sixDigits n) :
    48 ≤ b.toNat ∧ b.toNat ≤ 57 := by
  obtain ⟨c, hc, rfl⟩ := List.mem_map.1 h
  obtain ⟨hsame, hlow, hhigh⟩ := octet_of_isDigit (isDigit_of_mem_padded hc)
  omega

/-- The digits of a number tell the number. -/
theorem ofDigitChars_sixDigits (n : Nat) :
    Nat.ofDigitChars 10 ((sixDigits n).map fun b => Char.ofNat b.toNat) 0 = n := by
  have hchars : (sixDigits n).map (fun b => Char.ofNat b.toNat) =
      List.replicate (6 - (Nat.toDigits 10 n).length) '0' ++ Nat.toDigits 10 n := by
    unfold sixDigits
    rw [List.map_map]
    refine (List.map_congr_left fun c hc => ?_).trans (List.map_id _)
    simp [(octet_of_isDigit (isDigit_of_mem_padded hc)).1]
  rw [hchars, Nat.ofDigitChars_append, Nat.ofDigitChars_replicate_zero, Nat.mul_zero,
    Nat.ofDigitChars_ten_toDigits]

theorem sixDigits_injective : Function.Injective sixDigits := by
  intro m n h
  rw [← ofDigitChars_sixDigits m, h, ofDigitChars_sixDigits]

/-! ### Trees without links -/

/-- No link is in the tree. -/
def Linkless (t : FileTree) : Prop := ∀ l target, t.get? l ≠ some (.link target)

theorem linkless_of_entries (h : ∀ e ∈ t.entries, ∀ target, e.2 ≠ .link target) : t.Linkless := by
  intro l target hl
  unfold get? at hl
  split at hl
  · cases hl
  · obtain ⟨e, he, htarget⟩ := Option.map_eq_some_iff.1 hl
    exact h e (List.mem_of_find?_eq_some he) target htarget

/-- Where there is no link, it does not matter whether one is followed at the end. -/
theorem Linkless.find_eq (h : t.Linkless) (here : Location) (p : Path) :
    t.find false here p = t.find true here p := by
  have hwalk : t.walk false linkLimit (startOf here p) p.segments =
      t.walk true linkLimit (startOf here p) p.segments := by
    rcases t.walk_unfollowed linkLimit (startOf here p) p.segments with hsame | ⟨l, target, -, hl⟩
    · exact hsame
    · exact absurd hl (h l target)
  simp only [find, locate, hwalk]

/-- A walk along trivial segments stays where it is. -/
theorem walk_of_trivial (hss : ∀ s ∈ ss, Path.isTrivial s = true)
    (h : t.walk true links here ss = .ok l) : l = here := by
  induction ss with
  | nil =>
    rw [walk_nil] at h
    exact (Except.ok.inj h).symm
  | cons s rest ih =>
    rw [walk_cons] at h
    have hs := hss s List.mem_cons_self
    unfold onward at h
    cases hhere : t.get? here with
    | none =>
      rw [hhere] at h
      cases h
    | some node =>
      rw [hhere] at h
      cases node with
      | directory =>
        simp only [hs, if_true] at h
        exact ih (fun s' hs' => hss s' (List.mem_cons_of_mem s hs')) h
      | _ => cases h

/-- The last segment that says something, where there is one more segment in front. -/
theorem getLast?_filter_cons {x : Octets}
    (h : ((x :: rest).filter fun s => !Path.isTrivial s).getLast? = some s) :
    (rest.filter fun s => !Path.isTrivial s).getLast? = some s ∨
      x = s ∧ ∀ s' ∈ rest, Path.isTrivial s' = true := by
  cases hrest : rest.filter fun s => !Path.isTrivial s with
  | nil =>
    right
    rw [List.filter_cons, hrest] at h
    split at h
    · exact ⟨by simpa using h, fun s' hs' => by simpa using List.filter_eq_nil_iff.1 hrest s' hs'⟩
    · cases h
  | cons s' more =>
    left
    rw [List.filter_cons, hrest] at h
    split at h
    · simpa [List.getLast?_cons_cons] using h
    · exact h

/-- Without links, a walk ends at the last name of its segments. -/
theorem exists_end_of_walk (hlinks : t.Linkless) (h : t.walk true links here ss = .ok l)
    (hlast : (ss.filter fun s => !Path.isTrivial s).getLast? = some s)
    (hs : Path.isTrivial s = false) (hup : s ≠ [Path.dot, Path.dot]) :
    ∃ above, l = above ++ [s] := by
  induction links, here, ss using walk_induction (t := t) with
  | arrives links here => cases hlast
  | ends links here x rest outcome hends =>
    rw [walk_of_ends hends] at h
    subst h
    cases leads_of_onward hends with
    | arrives dir hx free last =>
      subst last
      rcases getLast?_filter_cons hlast with hrest | ⟨rfl, -⟩
      · cases hrest
      · exact ⟨here, rfl⟩
  | goes links here x rest n k more hgoes ih =>
    rw [walk_of_goes hgoes] at h
    rcases getLast?_filter_cons hlast with hrest | ⟨rfl, hrest⟩
    · cases leads_of_onward hgoes with
      | stays dir htrivial => exact ih h hrest
      | rises dir hdots => exact ih h hrest
      | descends dir hx child hnode => exact ih h hrest
      | follows dir hx child hleft => exact absurd child (hlinks _ _)
    · cases leads_of_onward hgoes with
      | stays dir htrivial => exact absurd htrivial (by simp [hs])
      | rises dir hdots => exact absurd hdots hup
      | descends dir hx child hnode => exact ⟨here, walk_of_trivial hrest h⟩
      | follows dir hx child hleft => exact absurd child (hlinks _ _)

/-! ### The first free path -/

/-- Something stands where a path leads. -/
def IsTaken (t : FileTree) (here : Location) (p : Path) : Prop :=
  ∃ l, t.find false here p = .ok l ∧ (t.get? l).isSome = true

variable {path : Nat → Path} {m n k : Nat}

theorem freePathFrom_of_taken (h : t.IsTaken here (path n)) (k : Nat) :
    t.freePathFrom here path (k + 1) n = t.freePathFrom here path k (n + 1) := by
  obtain ⟨l, hfind, htaken⟩ := h
  simp [freePathFrom, hfind, htaken]

theorem freePathFrom_of_not_taken (h : ¬ t.IsTaken here (path n)) (k : Nat) :
    t.freePathFrom here path k n = path n := by
  cases k with
  | zero => rfl
  | succ k =>
    unfold freePathFrom
    cases hfind : t.find false here (path n) with
    | error fault => rfl
    | ok l =>
      have hfree : ¬ (t.get? l).isSome = true := fun htaken => h ⟨l, hfind, htaken⟩
      simp only [hfree, if_false, Bool.false_eq_true]

/-- All paths before the one that is found are taken. -/
theorem exists_freePathFrom (t : FileTree) (here : Location) (path : Nat → Path) (k n : Nat) :
    ∃ m, n ≤ m ∧ t.freePathFrom here path k n = path m ∧
      ∀ i, n ≤ i → i < m → t.IsTaken here (path i) := by
  induction k generalizing n with
  | zero => exact ⟨n, Nat.le_refl n, rfl, fun i hi him => absurd him (by omega)⟩
  | succ k ih =>
    by_cases htaken : t.IsTaken here (path n)
    · obtain ⟨m, hm, hfound, hall⟩ := ih (n + 1)
      refine ⟨m, by omega, by rw [freePathFrom_of_taken htaken, hfound], fun i hi him => ?_⟩
      by_cases hin : i = n
      · rwa [hin]
      · exact hall i (by omega) him
    · exact ⟨n, Nat.le_refl n, freePathFrom_of_not_taken htaken _,
        fun i hi him => absurd him (by omega)⟩

/-- The first path that is not taken is found, if the search goes that far. -/
theorem freePathFrom_eq (htaken : ∀ i, n ≤ i → i < m → t.IsTaken here (path i))
    (hfree : ¬ t.IsTaken here (path m)) (hn : n ≤ m) (hk : m ≤ n + k) :
    t.freePathFrom here path k n = path m := by
  induction k generalizing n with
  | zero =>
    obtain rfl : n = m := by omega
    rfl
  | succ k ih =>
    by_cases hnm : n = m
    · subst hnm
      exact freePathFrom_of_not_taken hfree _
    · rw [freePathFrom_of_taken (htaken n (Nat.le_refl n) (by omega))]
      exact ih (fun i hi him => htaken i (by omega) him) (by omega) (by omega)

theorem mem_entries_of_isSome (hl : l ≠ []) (h : (t.get? l).isSome = true) :
    l ∈ t.entries.map Prod.fst := by
  rw [get?, if_neg hl, Option.isSome_map, List.find?_isSome] at h
  obtain ⟨e, he, hel⟩ := h
  exact List.mem_map.2 ⟨e, he, by simpa using hel⟩

/-- No more names are taken than a tree has entries. -/
theorem le_length_of_taken {name : Nat → Octets} (hname : Function.Injective name)
    (htaken : ∀ i < m, ∃ above, (t.get? (above ++ [name i])).isSome = true) :
    m ≤ t.entries.length := by
  have hnodup : ((List.range m).map name).Nodup := List.Nodup.map hname List.nodup_range
  have hsubset :
      (List.range m).map name ⊆ t.entries.map fun e => e.1.getLast?.getD [] := by
    intro n hn
    obtain ⟨i, hi, rfl⟩ := List.mem_map.1 hn
    obtain ⟨above, hsome⟩ := htaken i (List.mem_range.1 hi)
    obtain ⟨e, he, hlast⟩ := List.mem_map.1 (mem_entries_of_isSome (by simp) hsome)
    exact List.mem_map.2 ⟨e, he, by simp [hlast]⟩
  simpa using (hnodup.subperm hsubset).length_le

end FileTree
end CjsxConversion
