import Mathlib.Data.List.Forall2

/-!
# Rows of steps that can fail

The same step is done with one element after the other, and the first one that fails ends the row.

Main results:
* `mapM_eq_ok_iff`, `mapM_eq_error_iff`: how a row of steps ends.
-/

namespace CjsxConversion
namespace Traversal

variable {α β ε : Type} {f : α → Except ε β}

/-- A row of steps succeeds exactly if each of them does. -/
theorem mapM_eq_ok_iff {xs : List α} {ys : List β} :
    xs.mapM f = .ok ys ↔ List.Forall₂ (fun x y => f x = .ok y) xs ys := by
  induction xs generalizing ys with
  | nil => cases ys <;> simp [pure, Except.pure]
  | cons x xs ih =>
    rw [List.mapM_cons, List.forall₂_cons_left_iff]
    simp only [← ih]
    cases hx : f x with
    | error fault => simp [bind, Except.bind]
    | ok y =>
      cases hxs : xs.mapM f with
      | error fault => simp [bind, Except.bind]
      | ok rest => simp [bind, Except.bind, pure, Except.pure, eq_comm]

/-- A row of steps fails exactly with the first of them that does. -/
theorem mapM_eq_error_iff {xs : List α} {fault : ε} :
    xs.mapM f = .error fault ↔ ∃ before x after, xs = before ++ x :: after ∧
      (∀ y ∈ before, ∃ b, f y = .ok b) ∧ f x = .error fault := by
  induction xs with
  | nil => simp [pure, Except.pure]
  | cons x xs ih =>
    rw [List.mapM_cons]
    cases hx : f x with
    | error first =>
      constructor
      · rintro ⟨⟩
        exact ⟨[], x, xs, rfl, by simp, hx⟩
      · rintro ⟨before, y, after, heq, hbefore, hy⟩
        cases before with
        | nil =>
          cases heq
          cases hx.symm.trans hy
          rfl
        | cons z before =>
          cases heq
          obtain ⟨b, hb⟩ := hbefore _ List.mem_cons_self
          exact nomatch hx.symm.trans hb
    | ok y =>
      have hrest : (do let b ← Except.ok y; let bs ← xs.mapM f; pure (b :: bs)) =
          (Except.error fault : Except ε (List β)) ↔ xs.mapM f = .error fault := by
        cases xs.mapM f <;> simp [bind, Except.bind, pure, Except.pure]
      rw [hrest, ih]
      constructor
      · rintro ⟨before, z, after, rfl, hbefore, hz⟩
        refine ⟨x :: before, z, after, rfl, ?_, hz⟩
        exact List.forall_mem_cons.2 ⟨⟨y, hx⟩, hbefore⟩
      · rintro ⟨before, z, after, heq, hbefore, hz⟩
        cases before with
        | nil =>
          cases heq
          exact nomatch hx.symm.trans hz
        | cons z' before =>
          cases heq
          exact ⟨before, z, after, rfl, fun a ha => hbefore a (List.mem_cons_of_mem _ ha), hz⟩

end Traversal
end CjsxConversion
