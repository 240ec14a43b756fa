import CjsxConversion.Proofs.Path.Components

/-!
# What is above a path

A path and what is above it form a chain: each link is the parent of the one before, and an absolute
path ends it with the root. No matter how the path is spelled, every link has one component less.

`above?` climbs a number of levels. The recursion that lists the chain has a bound, and
climbing has none.

Main results:
* `exists_parent_iff`: an absolute path has a parent exactly if it is not the root.
* `getElem?_ancestors`: the list of ancestors holds what is above a path, level by level.
* `components_above?`: so many levels up, so many components less.
* `exists_above?_iff`: an absolute path has as many ancestors as components, with itself as the
  first.
-/

namespace CjsxConversion
namespace Path

/-- What is so many levels above a path. -/
def above? : Nat → Path → Option Path
  | 0, p => some p
  | n + 1, p => p.parent.bind (above? n)

variable {p q : Path} {k : Nat}

@[simp] theorem above?_zero (p : Path) : p.above? 0 = some p := rfl

theorem above?_succ_of_parent (h : p.parent = some q) (k : Nat) :
    p.above? (k + 1) = q.above? k := by
  rw [above?, h, Option.bind_some]

theorem above?_succ_of_no_parent (h : p.parent = none) (k : Nat) : p.above? (k + 1) = none := by
  rw [above?, h, Option.bind_none]

theorem parent_of_no_components (h : p.components = []) : p.parent = none := by
  rw [parent, h, List.getLast?_nil]

/-- Behind the root, an absolute path has no other root. -/
theorem components_of_isAbsolute (h : p.isAbsolute = true) :
    ∃ rest, p.components = .root :: rest ∧ .root ∉ rest := by
  refine ⟨(p.segments.filter fun s => !isTrivial s).map componentOf, ?_, ?_⟩
  · rw [components_eq, h]
    rfl
  · intro hmem
    obtain ⟨s, -, hs⟩ := List.mem_map.1 hmem
    exact componentOf_ne_root s hs

/-- An absolute path has a parent exactly if it is not the root. -/
theorem exists_parent_iff (h : p.isAbsolute = true) :
    (∃ q, p.parent = some q) ↔ 1 < p.components.length := by
  obtain ⟨rest, hp, hroot⟩ := components_of_isAbsolute h
  rcases List.eq_nil_or_concat rest with rfl | ⟨front, k, rfl⟩
  · simp [parent, hp]
  · have hk : k ≠ .root := fun e => hroot (by simp [e])
    have hconcat : p.components = (.root :: front) ++ [k] := by simpa using hp
    obtain ⟨q, hq, -⟩ := Option.map_eq_some_iff.1 (components_parent_of_concat hconcat hk)
    simp [hq, hp]

theorem length_components_parent (h : p.parent = some q) :
    q.components.length = p.components.length - 1 := by
  rw [components_parent h, List.length_dropLast]

/-- The parent of an absolute path is absolute. -/
theorem isAbsolute_parent (habs : p.isAbsolute = true) (h : p.parent = some q) :
    q.isAbsolute = true := by
  have hlength := (exists_parent_iff habs).1 ⟨q, h⟩
  obtain ⟨rest, hp, -⟩ := components_of_isAbsolute habs
  have hrest : rest ≠ [] := by
    rintro rfl
    rw [hp] at hlength
    exact absurd hlength (by decide)
  rw [isAbsolute_iff, components_parent h, hp, List.dropLast_cons_of_ne_nil hrest, List.head?_cons]

/-- A bound that the components do not exceed does not cut the list of ancestors short. -/
theorem getElem?_ancestorsWithin {n : Nat} (h : p.components.length ≤ n) (k : Nat) :
    (ancestorsWithin n p)[k]? = p.above? k := by
  induction n generalizing p k with
  | zero =>
    have hparent := parent_of_no_components (List.length_eq_zero_iff.1 (Nat.le_zero.1 h))
    cases k with
    | zero => rfl
    | succ k => rw [above?_succ_of_no_parent hparent, ancestorsWithin, List.getElem?_cons_succ,
        List.getElem?_nil]
  | succ n ih =>
    unfold ancestorsWithin
    cases hparent : p.parent with
    | none =>
      cases k with
      | zero => rfl
      | succ k => rw [above?_succ_of_no_parent hparent, List.getElem?_cons_succ, List.getElem?_nil]
    | some q =>
      have hq := length_components_parent hparent
      cases k with
      | zero => rfl
      | succ k =>
        rw [above?_succ_of_parent hparent, List.getElem?_cons_succ]
        exact ih (by omega) k

/-- The list of ancestors holds what is above a path, level by level. -/
theorem getElem?_ancestors (p : Path) (k : Nat) : p.ancestors[k]? = p.above? k :=
  getElem?_ancestorsWithin (Nat.le_refl _) k

/-- So many levels up, so many components less. -/
theorem components_above? (h : p.above? k = some q) :
    q.components = p.components.take (p.components.length - k) := by
  induction k generalizing p with
  | zero =>
    obtain rfl : p = q := Option.some.inj h
    simp
  | succ k ih =>
    cases hparent : p.parent with
    | none =>
      rw [above?_succ_of_no_parent hparent] at h
      cases h
    | some r =>
      rw [above?_succ_of_parent hparent] at h
      have hr : r.components = p.components.take (p.components.length - 1) := by
        rw [components_parent hparent, List.dropLast_eq_take]
      rw [ih h, hr, List.take_take, List.length_take]
      congr 1
      omega

/-- An absolute path has as many ancestors as components, with itself as the first. -/
theorem exists_above?_iff (habs : p.isAbsolute = true) :
    (∃ q, p.above? k = some q) ↔ k < p.components.length := by
  induction k generalizing p with
  | zero =>
    obtain ⟨rest, hp, -⟩ := components_of_isAbsolute habs
    simp [hp]
  | succ k ih =>
    cases hparent : p.parent with
    | none =>
      have hroot : ¬ 1 < p.components.length := by simp [← exists_parent_iff habs, hparent]
      rw [above?_succ_of_no_parent hparent]
      exact iff_of_false nofun (by omega)
    | some q =>
      have hq := length_components_parent hparent
      rw [above?_succ_of_parent hparent, ih (isAbsolute_parent habs hparent)]
      omega

end Path
end CjsxConversion
