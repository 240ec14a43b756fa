import CjsxConversion.Text.Search

/-!
# What replacing a pattern does

Replacing goes from left to right and passes over the characters of a match. For a pattern whose
first character does not come again in it, matches do not overlap, and replacing can be done on
both sides of a match by itself.

A text begins with the pattern or it does not; `match_induction` follows it so. Every
statement about replacing is carried along in this way.

Main results:
* `occursIn_iff`: what it means that a pattern is found.
* `replaceFrom_append_match`: what stands before a match and what stands after it is replaced
  separately.
* `replaceFrom_eq_self_iff`: when replacing changes nothing.
* `drift_replaceFrom`: how replacing changes the length.
-/

namespace CjsxConversion
namespace Search

variable {pattern replacement cs ds : List Char} {p : Char} {ps : List Char}

theorem afterStart?_append (ps rest : List Char) : afterStart? ps (ps ++ rest) = some rest := by
  induction ps with
  | nil => rfl
  | cons p ps ih => simp [afterStart?, ih]

/-- A pattern is found exactly where it stands. -/
theorem occursIn_iff : occursIn pattern cs = true ↔ pattern <:+: cs := by
  constructor
  · intro h
    obtain ⟨⟨before, after⟩, hcut⟩ := Option.isSome_iff_exists.1 h
    exact ⟨before, after, (eq_append_of_cut? hcut).symm⟩
  · unfold occursIn
    induction cs with
    | nil =>
      intro h
      simp [cut?, List.infix_nil.1 h]
    | cons c cs ih =>
      intro h
      unfold cut?
      split
      · rfl
      · next hnone =>
        rcases List.infix_cons_iff.1 h with ⟨rest, hrest⟩ | hlater
        · rw [← hrest, afterStart?_append] at hnone
          cases hnone
        · simpa using ih hlater

theorem replaceFrom_eq_drop (pattern replacement : List Char) (n : Nat) (cs : List Char) :
    replaceFrom pattern replacement n cs = replaceFrom pattern replacement 0 (cs.drop n) := by
  induction n generalizing cs with
  | zero => rw [List.drop_zero]
  | succ n ih =>
    cases cs with
    | nil => simp [replaceFrom]
    | cons c cs => rw [replaceFrom, ih, List.drop_succ_cons]

@[simp] theorem replaceFrom_nil (pattern replacement : List Char) :
    replaceFrom pattern replacement 0 [] = [] := by
  simp [replaceFrom]

/-- Where the pattern stands, it is replaced, and what follows it is looked at next. -/
theorem replaceFrom_of_match (replacement cs : List Char) :
    replaceFrom (p :: ps) replacement 0 ((p :: ps) ++ cs) =
      replacement ++ replaceFrom (p :: ps) replacement 0 cs := by
  have hstart : (p :: ps).isPrefixOf ((p :: ps) ++ cs) = true :=
    List.isPrefixOf_iff_prefix.2 ⟨cs, rfl⟩
  rw [List.cons_append] at hstart ⊢
  rw [replaceFrom, if_pos hstart, replaceFrom_eq_drop]
  simp

/-- Where the pattern does not stand, a character is kept. -/
theorem replaceFrom_of_plain (replacement : List Char) {c : Char} (h : ¬ pattern <+: c :: cs) :
    replaceFrom pattern replacement 0 (c :: cs) =
      c :: replaceFrom pattern replacement 0 cs := by
  have hstart : ¬ pattern.isPrefixOf (c :: cs) = true :=
    fun hp => h (List.isPrefixOf_iff_prefix.1 hp)
  rw [replaceFrom, if_neg hstart]

/-- A text is empty, begins with the pattern, or begins with some other character. -/
@[elab_as_elim]
theorem match_induction (p : Char) (ps : List Char) {motive : List Char → Prop}
    (nil : motive [])
    (found : ∀ cs, motive cs → motive ((p :: ps) ++ cs))
    (plain : ∀ c cs, ¬ (p :: ps) <+: c :: cs → motive cs → motive (c :: cs)) :
    ∀ cs, motive cs
  | [] => nil
  | c :: cs =>
    if h : (p :: ps) <+: c :: cs then
      have hcs : (p :: ps) ++ (c :: cs).drop (ps.length + 1) = c :: cs :=
        List.prefix_iff_eq_append.1 h
      hcs ▸ found _ (match_induction p ps nil found plain ((c :: cs).drop (ps.length + 1)))
    else plain c cs h (match_induction p ps nil found plain cs)
termination_by cs => cs.length
decreasing_by
  · simp only [List.length_drop, List.length_cons]
    omega
  · simp

theorem replaceFrom_of_absent (replacement : List Char) (h : ¬ pattern <:+: cs) :
    replaceFrom pattern replacement 0 cs = cs := by
  induction cs with
  | nil => exact replaceFrom_nil _ _
  | cons c cs ih =>
    rw [List.infix_cons_iff, not_or] at h
    rw [replaceFrom_of_plain replacement h.1, ih h.2]

/-- What does not have the first character of the pattern has no part in an occurrence of it that
ends behind. -/
theorem infix_of_infix_append (h : p ∉ cs) (hin : (p :: ps) <:+: cs ++ ds) : (p :: ps) <:+: ds := by
  induction cs with
  | nil => exact hin
  | cons c cs ih =>
    rw [List.mem_cons, not_or] at h
    rw [List.cons_append, List.infix_cons_iff, List.cons_prefix_cons] at hin
    rcases hin with ⟨hpc, -⟩ | hlater
    · exact absurd hpc h.1
    · exact ih h.2 hlater

theorem replaceFrom_self (cs : List Char) : replaceFrom (p :: ps) (p :: ps) 0 cs = cs := by
  induction cs using match_induction p ps with
  | nil => exact replaceFrom_nil _ _
  | found cs ih => rw [replaceFrom_of_match, ih]
  | plain c cs h ih => rw [replaceFrom_of_plain _ h, ih]

/-! ### On both sides of a match -/

/-- A pattern that begins before a match of it ends before that match. -/
theorem prefix_of_prefix_append_match (hp : p ∉ ps) {c : Char}
    (h : (p :: ps) <+: (c :: cs) ++ ((p :: ps) ++ ds)) : (p :: ps) <+: c :: cs := by
  rcases Nat.le_total (p :: ps).length (c :: cs).length with hle | hle
  · exact List.prefix_of_prefix_length_le h (List.prefix_append _ _) hle
  · obtain ⟨rest, hrest⟩ := List.prefix_of_prefix_length_le (List.prefix_append _ _) h hle
    have hover : rest <+: (p :: ps) ++ ds := by
      rw [← List.prefix_append_right_inj (c :: cs), hrest]
      exact h
    -- what is left of the pattern begins with its first character, which does not come again
    cases rest with
    | nil => exact ⟨[], by rw [List.append_nil, ← hrest, List.append_nil]⟩
    | cons d rest =>
      rw [List.cons_append, List.cons_prefix_cons] at hover
      rw [List.cons_append, List.cons_eq_cons] at hrest
      exact absurd (by simp [← hrest.2, hover.1]) hp

/-- What stands before a match and what stands after it is replaced separately. -/
theorem replaceFrom_append_match (hp : p ∉ ps) (replacement cs ds : List Char) :
    replaceFrom (p :: ps) replacement 0 (cs ++ ((p :: ps) ++ ds)) =
      replaceFrom (p :: ps) replacement 0 cs ++
        (replacement ++ replaceFrom (p :: ps) replacement 0 ds) := by
  induction cs using match_induction p ps with
  | nil => rw [List.nil_append, replaceFrom_of_match, replaceFrom_nil, List.nil_append]
  | found cs ih =>
    rw [List.append_assoc, replaceFrom_of_match, ih, replaceFrom_of_match, List.append_assoc]
  | plain c cs h ih =>
    have hlonger : ¬ (p :: ps) <+: c :: (cs ++ ((p :: ps) ++ ds)) :=
      fun hlong => h (prefix_of_prefix_append_match hp hlong)
    rw [List.cons_append, replaceFrom_of_plain _ hlonger, ih, replaceFrom_of_plain _ h,
      List.cons_append]

/-! ### Lengths -/

/-- One length is that of a text in which some words of one length are replaced by words of another
length, and the other is that of the text before. -/
def Drift (old new : Nat) (after before : Nat) : Prop :=
  ∃ n, after + n * old = before + n * new

theorem Drift.refl (old new n : Nat) : Drift old new n n := ⟨0, by simp⟩

theorem Drift.add {old new a b a' b' : Nat} (h : Drift old new a b) (h' : Drift old new a' b') :
    Drift old new (a + a') (b + b') := by
  obtain ⟨n, hn⟩ := h
  obtain ⟨m, hm⟩ := h'
  exact ⟨n + m, by rw [Nat.add_mul, Nat.add_mul]; omega⟩

/-- Two drifts go in one direction, so that they do not make up for each other. -/
theorem Drift.cancel {old new a b a' b' : Nat} (h : Drift old new a b)
    (h' : Drift old new a' b') (hsum : a + a' = b + b') : a = b := by
  obtain ⟨n, hn⟩ := h
  obtain ⟨m, hm⟩ := h'
  have hboth : (n + m) * old = (n + m) * new := by
    rw [Nat.add_mul, Nat.add_mul]
    omega
  rcases Nat.eq_zero_or_pos (n + m) with hzero | hpos
  · have hn0 : n = 0 := by omega
    subst hn0
    simpa using hn
  · rw [Nat.eq_of_mul_eq_mul_left hpos hboth] at hn
    exact Nat.add_right_cancel hn

/-- Replacing changes the length by a multiple of what one replacement changes it by. -/
theorem drift_replaceFrom (replacement cs : List Char) :
    Drift (p :: ps).length replacement.length
      (replaceFrom (p :: ps) replacement 0 cs).length cs.length := by
  induction cs using match_induction p ps with
  | nil => exact Drift.refl _ _ _
  | found cs ih =>
    obtain ⟨n, hn⟩ := ih
    refine ⟨n + 1, ?_⟩
    rw [replaceFrom_of_match, List.length_append, List.length_append, Nat.succ_mul, Nat.succ_mul]
    omega
  | plain c cs h ih =>
    rw [replaceFrom_of_plain _ h]
    exact ih.add (Drift.refl _ _ 1)

/-- Replacing changes nothing exactly if the pattern is replaced by itself or does not occur. -/
theorem replaceFrom_eq_self_iff :
    replaceFrom (p :: ps) replacement 0 cs = cs ↔
      replacement = p :: ps ∨ ¬ (p :: ps) <:+: cs := by
  constructor
  · intro h
    induction cs using match_induction p ps with
    | nil => exact .inr (by simp)
    | found cs ih =>
      rw [replaceFrom_of_match] at h
      have hlength : replacement.length = (p :: ps).length := by
        have hone : Drift (p :: ps).length replacement.length replacement.length
            (p :: ps).length := ⟨1, by omega⟩
        refine hone.cancel (drift_replaceFrom replacement cs) ?_
        rw [← List.length_append, h, List.length_append]
      exact .inl (List.append_inj h hlength).1
    | plain c cs hplain ih =>
      rw [replaceFrom_of_plain _ hplain, List.cons_inj_right] at h
      exact (ih h).imp_right fun hcs => by simp [List.infix_cons_iff, hplain, hcs]
  · rintro (rfl | h)
    · exact replaceFrom_self cs
    · exact replaceFrom_of_absent replacement h

end Search
end CjsxConversion
