import CjsxConversion.Text.Blank
import Mathlib.Data.List.TakeWhile

/-!
# Texts without the blanks around them

Main results:
* `isBlank_iff`: which characters are blanks.
* `trimEnd_spec`: trimming cuts blanks at the end, and all of them.
* `trim_spec`: trimming cuts blanks at both ends only.
* `trim_of_bounded`: what neither begins nor ends with a blank is found again between blanks.
-/

namespace CjsxConversion
namespace Blank

/-- The code points with the Unicode property White_Space. -/
def whiteSpace : List Nat :=
  [0x9, 0xA, 0xB, 0xC, 0xD, 0x20, 0x85, 0xA0, 0x1680, 0x2000, 0x2001, 0x2002, 0x2003, 0x2004,
    0x2005, 0x2006, 0x2007, 0x2008, 0x2009, 0x200A, 0x2028, 0x2029, 0x202F, 0x205F, 0x3000]

theorem isBlank_iff {c : Char} : isBlank c = true ↔ c.toNat ∈ whiteSpace := by
  simp only [isBlank, whiteSpace, List.mem_cons, List.not_mem_nil, or_false, Bool.or_eq_true,
    Bool.and_eq_true, decide_eq_true_eq, beq_iff_eq]
  omega

/-- Trimming cuts blanks at the end, and all of them. -/
theorem trimEnd_spec (cs : List Char) :
    ∃ blanks, cs = trimEnd cs ++ blanks ∧ (∀ c ∈ blanks, isBlank c = true) ∧
      ∀ c, (trimEnd cs).getLast? = some c → isBlank c = false := by
  refine ⟨(cs.reverse.takeWhile isBlank).reverse, ?_, ?_, ?_⟩
  · rw [trimEnd, ← List.reverse_append, List.takeWhile_append_dropWhile, List.reverse_reverse]
  · intro c hc
    exact List.mem_takeWhile_imp (List.mem_reverse.1 hc)
  · intro c hc
    rw [trimEnd, List.getLast?_reverse] at hc
    have hhead := List.head?_dropWhile_not isBlank cs.reverse
    rw [hc] at hhead
    simpa using hhead

/-- A text that shows something still does so when it is trimmed. -/
theorem exists_getLast?_trimEnd {cs : List Char} (h : allBlank cs = false) :
    ∃ c, (trimEnd cs).getLast? = some c ∧ isBlank c = false := by
  obtain ⟨blanks, hcs, hblanks, hlast⟩ := trimEnd_spec cs
  cases hend : (trimEnd cs).getLast? with
  | some c => exact ⟨c, rfl, hlast c hend⟩
  | none =>
    rw [List.getLast?_eq_none_iff.1 hend, List.nil_append] at hcs
    rw [hcs, allBlank, List.all_eq_true.2 hblanks] at h
    cases h

/-- Trimming cuts blanks at both ends only. -/
theorem trim_spec (cs : List Char) :
    ∃ before after, cs = before ++ trim cs ++ after ∧ (∀ c ∈ before, isBlank c = true) ∧
      ∀ c ∈ after, isBlank c = true := by
  obtain ⟨after, hend, hafter, -⟩ := trimEnd_spec (trimStart cs)
  refine ⟨cs.takeWhile isBlank, after, ?_, fun c hc => List.mem_takeWhile_imp hc, hafter⟩
  rw [List.append_assoc, trim, ← hend, trimStart_append_takeWhile]

theorem isBlank_head?_trim (cs : List Char) : ∀ c ∈ (trim cs).head?, isBlank c = false := by
  intro c hc
  obtain ⟨after, hend, -, -⟩ := trimEnd_spec (trimStart cs)
  have hhead := List.head?_dropWhile_not isBlank cs
  rw [← trimStart, hend, List.head?_append, ← trim, hc] at hhead
  simpa using hhead

theorem isBlank_getLast?_trim (cs : List Char) : ∀ c ∈ (trim cs).getLast?, isBlank c = false := by
  obtain ⟨after, -, -, hlast⟩ := trimEnd_spec (trimStart cs)
  exact hlast

theorem trim_eq_nil_iff {cs : List Char} : trim cs = [] ↔ allBlank cs = true := by
  rw [allBlank, List.all_eq_true]
  constructor
  · intro h
    obtain ⟨before, after, hcs, hbefore, hafter⟩ := trim_spec cs
    rw [h, List.append_nil] at hcs
    rw [hcs]
    exact fun c hc => (List.mem_append.1 hc).elim (hbefore c) (hafter c)
  · intro h
    have hnothing : trimStart cs = [] := List.dropWhile_eq_nil_iff.2 h
    rw [trim, hnothing]
    rfl

theorem trim_ne_nil {cs : List Char} (h : allBlank cs = false) : trim cs ≠ [] := by
  rw [Ne, trim_eq_nil_iff, h]
  exact Bool.false_ne_true

section Surrounded

variable {before core after cs : List Char}

theorem trimStart_append (h : ∀ c ∈ before, isBlank c = true) (cs : List Char) :
    trimStart (before ++ cs) = trimStart cs :=
  List.dropWhile_append_of_pos h

theorem trimEnd_append (h : ∀ c ∈ after, isBlank c = true) (cs : List Char) :
    trimEnd (cs ++ after) = trimEnd cs := by
  rw [trimEnd, List.reverse_append,
    List.dropWhile_append_of_pos fun c hc => h c (List.mem_reverse.1 hc), trimEnd]

theorem trimStart_of_head (h : ∀ c ∈ cs.head?, isBlank c = false) : trimStart cs = cs := by
  cases cs with
  | nil => rfl
  | cons c cs => simp [trimStart, h c rfl]

theorem trimEnd_of_last (h : ∀ c ∈ cs.getLast?, isBlank c = false) : trimEnd cs = cs := by
  have hreverse : trimStart cs.reverse = cs.reverse :=
    trimStart_of_head fun c hc => h c (by rwa [List.head?_reverse] at hc)
  rw [trimEnd, ← trimStart, hreverse, List.reverse_reverse]

/-- What neither begins nor ends with a blank is found again between blanks. -/
theorem trim_of_bounded (hbefore : ∀ c ∈ before, isBlank c = true)
    (hhead : ∀ c ∈ core.head?, isBlank c = false) (hlast : ∀ c ∈ core.getLast?, isBlank c = false)
    (hafter : ∀ c ∈ after, isBlank c = true) : trim (before ++ core ++ after) = core := by
  rw [List.append_assoc, trim, trimStart_append hbefore]
  cases core with
  | nil =>
    have hnothing : trimStart after = [] := List.dropWhile_eq_nil_iff.2 hafter
    rw [List.nil_append, hnothing]
    rfl
  | cons c rest =>
    have hstart : ∀ d ∈ (c :: rest ++ after).head?, isBlank d = false := hhead
    rw [trimStart_of_head hstart, trimEnd_append hafter, trimEnd_of_last hlast]

theorem trim_of_ends (hhead : ∀ c ∈ cs.head?, isBlank c = false)
    (hlast : ∀ c ∈ cs.getLast?, isBlank c = false) : trim cs = cs := by
  have htrim : trim ([] ++ cs ++ []) = cs := trim_of_bounded (by simp) hhead hlast (by simp)
  rwa [List.nil_append, List.append_nil] at htrim

/-- What has no blanks is found again between blanks. -/
theorem trim_of_surrounded (hbefore : ∀ c ∈ before, isBlank c = true)
    (hcore : ∀ c ∈ core, isBlank c = false) (hafter : ∀ c ∈ after, isBlank c = true) :
    trim (before ++ core ++ after) = core :=
  trim_of_bounded hbefore (fun c hc => hcore c (List.mem_of_mem_head? hc))
    (fun c hc => hcore c (List.mem_of_mem_getLast? hc)) hafter

theorem trim_of_no_blank (h : ∀ c ∈ cs, isBlank c = false) : trim cs = cs :=
  trim_of_ends (fun c hc => h c (List.mem_of_mem_head? hc))
    fun c hc => h c (List.mem_of_mem_getLast? hc)

end Surrounded

theorem isBlank_of_visible {c : Char} (h : 0x20 < c.toNat) (h' : c.toNat < 0x80) :
    isBlank c = false := by
  simp only [isBlank, Bool.or_eq_false_iff, Bool.and_eq_false_iff, decide_eq_false_iff_not,
    beq_eq_false_iff_ne]
  omega

theorem isBlank_of_isDigit {c : Char} (h : c.isDigit = true) : isBlank c = false := by
  simp only [Char.isDigit, Bool.and_eq_true, decide_eq_true_eq] at h
  have hd : 48 ≤ c.toNat ∧ c.toNat ≤ 57 := h
  exact isBlank_of_visible (by omega) (by omega)

theorem isBlank_of_isAlphanum {c : Char} (h : c.isAlphanum = true) : isBlank c = false := by
  have hkinds : (c.isUpper || c.isLower || c.isDigit) = true := h
  rw [Bool.or_eq_true, Bool.or_eq_true] at hkinds
  rcases hkinds with (hupper | hlower) | hdigit
  · have hc : 65 ≤ c.toNat ∧ c.toNat ≤ 90 := of_decide_eq_true hupper
    exact isBlank_of_visible (by omega) (by omega)
  · have hc : 97 ≤ c.toNat ∧ c.toNat ≤ 122 :=
      (Bool.and_eq_true_iff.1 hlower).imp of_decide_eq_true of_decide_eq_true
    exact isBlank_of_visible (by omega) (by omega)
  · exact isBlank_of_isDigit hdigit

end Blank
end CjsxConversion
