import CjsxConversion.Proofs.Text.Cutting
import CjsxConversion.StandIn.Transforms

/-!
# How element macros are expanded

A text is read from left to right: what stands before an opening bracket is kept, and the element
between the bracket and the first end after it is expanded. Each turn of this loop has its own
equation, and `scan_induction` follows the loop.

Main results:
* `expandFrom_finished`, `expandFrom_element`, `expandFrom_broken`: one turn of the loop.
* `scan_induction`: every text is one of the three, with a shorter text behind an element.
-/

namespace CjsxConversion
namespace StandIn

/-- How an element ends. -/
abbrev closing : List Char := ['/', '>']

variable {before inner after cs : List Char}

@[simp] theorem octets_nil : octets [] = 0 := rfl

@[simp] theorem octets_cons (c : Char) (cs : List Char) :
    octets (c :: cs) = c.utf8Size + octets cs := rfl

@[simp] theorem octets_append (cs ds : List Char) : octets (cs ++ ds) = octets cs + octets ds := by
  induction cs with
  | nil => simp
  | cons c cs ih => simp [ih, Nat.add_assoc]

/-- Text without an opening bracket is kept. -/
theorem expandFrom_append (h : '<' ∉ before) (n : Nat) (cs : List Char) :
    expandFrom n none (before ++ cs) =
      (expandFrom (n + octets before) none cs).map (before ++ ·) := by
  induction before generalizing n with
  | nil =>
    rw [List.nil_append, octets_nil, Nat.add_zero]
    cases expandFrom n none cs <;> rfl
  | cons c before ih =>
    rw [List.mem_cons, not_or] at h
    rw [List.cons_append, expandFrom, if_neg (Ne.symm h.1), ih h.2, octets_cons, Nat.add_assoc]
    cases expandFrom (n + (c.utf8Size + octets before)) none cs <;> rfl

theorem expandFrom_opening (n : Nat) (cs : List Char) :
    expandFrom n none ('<' :: cs) = expandFrom (n + 1) (some (n, [])) cs := by
  rw [expandFrom, if_pos rfl]

/-- A character inside an element at which the element does not end belongs to it. -/
theorem expandFrom_inside {c : Char} (h : ¬ closing <+: c :: cs) (n start : Nat)
    (seen : List Char) :
    expandFrom n (some (start, seen)) (c :: cs) =
      expandFrom (n + c.utf8Size) (some (start, seen ++ [c])) cs := by
  rw [expandFrom]
  rintro rest rfl hcs
  exact h ⟨rest, by rw [hcs]; rfl⟩

/-- An element ends at the first end behind its bracket. -/
theorem expandFrom_closing (h : ¬ closing <:+: inner) (n start : Nat) (seen rest : List Char) :
    expandFrom n (some (start, seen)) (inner ++ (closing ++ rest)) =
      (expandFrom (n + octets (inner ++ closing)) none rest).map (call (seen ++ inner) ++ ·) := by
  induction inner generalizing n seen with
  | nil =>
    rw [List.nil_append, List.append_nil]
    rfl
  | cons c inner ih =>
    rw [List.infix_cons_iff, not_or] at h
    have hinside : ¬ closing <+: c :: (inner ++ (closing ++ rest)) :=
      fun hlong => h.1 (Search.prefix_of_prefix_append_match (by decide) hlong)
    rw [List.cons_append, expandFrom_inside hinside, ih h.2]
    simp only [List.cons_append, octets_cons, List.append_assoc, List.nil_append, Nat.add_assoc]

/-- An element without its end is a fault at its bracket. -/
theorem expandFrom_unclosed (h : ¬ closing <:+: cs) (n start : Nat) (seen : List Char) :
    expandFrom n (some (start, seen)) cs = .error (unterminated start) := by
  induction cs generalizing n seen with
  | nil => rw [expandFrom]
  | cons c cs ih =>
    rw [List.infix_cons_iff, not_or] at h
    rw [expandFrom_inside h.1, ih h.2]

/-- An end of an element does not reach over any other character. -/
theorem not_closing_infix_append_cons {x : Char} (hx : x ∉ closing)
    (hbefore : ¬ closing <:+: before) (hafter : ¬ closing <:+: after) :
    ¬ closing <:+: before ++ x :: after := fun h =>
  (Search.infix_of_infix_append_cons hx h).elim hbefore hafter

/-! ### One turn -/

/-- A text without an opening bracket is kept as it is. -/
theorem expandFrom_finished (h : '<' ∉ cs) (n : Nat) : expandFrom n none cs = .ok cs := by
  have hkept := expandFrom_append h n []
  rw [List.append_nil, expandFrom] at hkept
  rw [hkept, Except.map, List.append_nil]

/-- The first element is expanded, and then what follows it. -/
theorem expandFrom_element (hbefore : '<' ∉ before) (hinner : ¬ closing <:+: inner) (n : Nat)
    (rest : List Char) :
    expandFrom n none (before ++ '<' :: (inner ++ (closing ++ rest))) =
      (expandFrom (n + octets (before ++ '<' :: (inner ++ closing))) none rest).map
        (before ++ call inner ++ ·) := by
  rw [expandFrom_append hbefore, expandFrom_opening, expandFrom_closing hinner]
  have hsize : '<'.utf8Size = 1 := by decide
  simp only [octets_append, octets_cons, hsize, Nat.add_assoc, List.nil_append]
  cases expandFrom _ none rest with
  | error message => rfl
  | ok out => simp [Except.map]

/-- The first element has no end. -/
theorem expandFrom_broken (hbefore : '<' ∉ before) (hafter : ¬ closing <:+: after) (n : Nat) :
    expandFrom n none (before ++ '<' :: after) = .error (unterminated (n + octets before)) := by
  rw [expandFrom_append hbefore, expandFrom_opening, expandFrom_unclosed hafter]
  rfl

/-- A text has no opening bracket, has an element after the first one, or has no end after it. -/
@[elab_as_elim]
theorem scan_induction {motive : List Char → Prop}
    (finished : ∀ cs, '<' ∉ cs → motive cs)
    (broken : ∀ before after, '<' ∉ before → ¬ closing <:+: after →
      motive (before ++ '<' :: after))
    (element : ∀ before inner rest, '<' ∉ before → ¬ closing <:+: inner → motive rest →
      motive (before ++ '<' :: (inner ++ (closing ++ rest)))) (cs : List Char) : motive cs := by
  induction hn : cs.length using Nat.strongRecOn generalizing cs with
  | ind n ih =>
    subst hn
    by_cases hopening : '<' ∈ cs
    · obtain ⟨before, after, rfl, hbefore⟩ := List.eq_append_cons_of_mem hopening
      cases hcut : Search.cut? closing after with
      | none => exact broken before after hbefore (Search.cut?_eq_none_iff.1 hcut)
      | some found =>
        obtain ⟨inner, rest⟩ := found
        have hinner := Search.not_infix_of_cut? (by decide) hcut
        obtain rfl : after = inner ++ (closing ++ rest) := by
          rw [Search.eq_append_of_cut? hcut, List.append_assoc]
        refine element before inner rest hbefore hinner (ih rest.length ?_ rest rfl)
        simp only [List.length_append, List.length_cons]
        omega
    · exact finished cs hopening

end StandIn
end CjsxConversion
