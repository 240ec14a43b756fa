import CjsxConversion.Proofs.Text.Replacing

/-!
# Where a pattern stands first

A text is cut at the first occurrence of a pattern. If the first character of the pattern does not
come again in it, an occurrence cannot begin before another one and end inside it, so that a
pattern is found right behind any text in which it does not stand.

Main results:
* `cut?_eq_none_iff`: when there is nothing to cut at.
* `cut?_append`: what follows does not change where the first occurrence is.
* `not_infix_of_cut?`: the pattern does not stand in front of its first occurrence.
* `cut?_of_first`: a pattern is found behind a text in which it does not stand.
* `infix_of_infix_append_cons`: an occurrence does not reach over a character that is not in it.
-/

namespace CjsxConversion
namespace Search

variable {pattern cs before after : List Char} {p : Char} {ps : List Char}

theorem cut?_eq_none_iff : cut? pattern cs = none ↔ ¬ pattern <:+: cs := by
  rw [← occursIn_iff, occursIn, Bool.not_eq_true, Option.isSome_eq_false_iff,
    Option.isNone_iff_eq_none]

theorem afterStart?_eq_none_iff : afterStart? pattern cs = none ↔ ¬ pattern <+: cs := by
  constructor
  · rintro h ⟨rest, rfl⟩
    rw [afterStart?_append] at h
    cases h
  · intro h
    cases hrest : afterStart? pattern cs with
    | none => rfl
    | some rest => exact absurd ⟨rest, (eq_append_of_afterStart? hrest).symm⟩ h

/-- A character at which the pattern does not stand is passed over. -/
theorem cut?_cons_of_plain {c : Char} (h : ¬ pattern <+: c :: cs) :
    cut? pattern (c :: cs) = (cut? pattern cs).map fun q => (c :: q.1, q.2) := by
  rw [cut?, afterStart?_eq_none_iff.2 h]

theorem cut?_of_prefix (h : pattern ≠ []) (after : List Char) :
    cut? pattern (pattern ++ after) = some ([], after) := by
  obtain ⟨p, ps, rfl⟩ := List.exists_cons_of_ne_nil h
  have hstart := afterStart?_append (p :: ps) after
  rw [List.cons_append] at hstart ⊢
  rw [cut?, hstart]

/-- What follows does not change where the first occurrence is. -/
theorem cut?_append (hne : pattern ≠ []) (h : cut? pattern cs = some (before, after))
    (ds : List Char) : cut? pattern (cs ++ ds) = some (before, after ++ ds) := by
  induction cs generalizing before with
  | nil => simp [cut?, hne] at h
  | cons c cs ih =>
    by_cases hstart : pattern <+: c :: cs
    · obtain ⟨rest, hrest⟩ := hstart
      rw [← hrest, cut?_of_prefix hne] at h
      cases h
      rw [← hrest, List.append_assoc, cut?_of_prefix hne]
    · rw [cut?_cons_of_plain hstart] at h
      obtain ⟨⟨b, a⟩, hcut, he⟩ := Option.map_eq_some_iff.1 h
      cases he
      have hlonger : ¬ pattern <+: c :: (cs ++ ds) := by
        intro hlong
        have hlater : pattern <:+: cs := by
          rw [eq_append_of_cut? hcut]
          exact ⟨b, _, rfl⟩
        refine hstart (List.prefix_of_prefix_length_le hlong (List.prefix_append (c :: cs) ds) ?_)
        have hlength := hlater.length_le
        simp only [List.length_cons]
        omega
      rw [List.cons_append, cut?_cons_of_plain hlonger, ih hcut]
      rfl

/-- The pattern does not stand in front of its first occurrence. -/
theorem not_infix_of_cut? (hne : pattern ≠ []) (h : cut? pattern cs = some (before, after)) :
    ¬ pattern <:+: before := by
  intro hin
  cases hcut : cut? pattern before with
  | none => exact cut?_eq_none_iff.1 hcut hin
  | some q =>
    obtain ⟨b, a⟩ := q
    have hlonger := cut?_append hne hcut (pattern ++ after)
    rw [← List.append_assoc, ← eq_append_of_cut? h, h] at hlonger
    have hb : before = b := congrArg Prod.fst (Option.some.inj hlonger)
    have hlength := congrArg List.length (eq_append_of_cut? hcut)
    have hpos := List.length_pos_iff.2 hne
    simp only [hb, List.length_append] at hlength
    omega

/-- A pattern is found behind a text in which it does not stand. -/
theorem cut?_of_first (hp : p ∉ ps) (h : ¬ (p :: ps) <:+: before) (after : List Char) :
    cut? (p :: ps) (before ++ ((p :: ps) ++ after)) = some (before, after) := by
  induction before with
  | nil => exact cut?_of_prefix (List.cons_ne_nil p ps) after
  | cons c before ih =>
    rw [List.infix_cons_iff, not_or] at h
    have hstart : ¬ (p :: ps) <+: c :: (before ++ ((p :: ps) ++ after)) :=
      fun hlong => h.1 (prefix_of_prefix_append_match hp hlong)
    rw [List.cons_append, cut?_cons_of_plain hstart, ih h.2]
    rfl

/-- A character is found behind a text that does not have it. -/
theorem cut?_singleton (h : p ∉ before) (after : List Char) :
    cut? [p] (before ++ p :: after) = some (before, after) := by
  have hin : ¬ [p] <:+: before := fun hin => h (hin.subset List.mem_cons_self)
  exact cut?_of_first List.not_mem_nil hin after

/-- An occurrence does not reach over a character that is not in the pattern. -/
theorem infix_of_infix_append_cons {x : Char} (hx : x ∉ pattern) {cs ds : List Char}
    (h : pattern <:+: cs ++ x :: ds) : pattern <:+: cs ∨ pattern <:+: ds := by
  induction cs with
  | nil =>
    rw [List.nil_append, List.infix_cons_iff, List.prefix_cons_iff] at h
    rcases h with (rfl | ⟨rest, rfl, -⟩) | hlater
    · exact .inl List.nil_infix
    · exact absurd List.mem_cons_self hx
    · exact .inr hlater
  | cons c cs ih =>
    rw [List.cons_append, List.infix_cons_iff] at h
    rcases h with hstart | hlater
    · rcases Nat.lt_or_ge (c :: cs).length pattern.length with hlong | hshort
      · -- the character would be one of the pattern
        have hreach : c :: cs ++ [x] <+: c :: (cs ++ x :: ds) := ⟨ds, by simp⟩
        have hin : c :: cs ++ [x] <+: pattern := by
          refine List.prefix_of_prefix_length_le hreach hstart ?_
          rw [List.length_append, List.length_singleton]
          exact hlong
        exact absurd (hin.subset (by simp)) hx
      · exact .inl (List.prefix_of_prefix_length_le hstart (List.prefix_append _ _) hshort).isInfix
    · exact (ih hlater).imp_left fun hcs => List.infix_cons hcs

end Search
end CjsxConversion
