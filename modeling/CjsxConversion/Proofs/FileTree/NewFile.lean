import CjsxConversion.Proofs.FileTree.Replacement
import Mathlib.Data.List.Basic

/-!
# Reading a file that was just made

A file is made where a path leads without following a link at its end. Nothing is there before, so
that there is no link to follow either, and the same path leads to the file afterwards.

Main results:
* `walk_unfollowed`: not following a link at the end matters only if there is one.
* `walk_to_new_file`: a walk to where nothing is leads to the file that is put there.
* `read_of_createNew`: a path at which a file is made leads to it, whatever is written to it.
-/

namespace CjsxConversion
namespace FileTree

variable {t u v : FileTree} {links : Nat} {here l : Location} {s : Octets} {rest ss : List Octets}
  {data : Octets} {mode mode' : Nat} {p : Path}

/-- A walk that does not follow a link at its end does the same at a segment as one that does,
unless it ends there with a link. -/
theorem walk_unfollowed_cons (t : FileTree) (links : Nat) (here : Location) (s : Octets)
    (rest : List Octets) :
    (t.walk false links here (s :: rest) =
        match t.onward links here s rest with
        | .ends outcome => outcome
        | .goes n l ss => t.walk false n l ss) ∨
      ∃ target, t.walk false links here (s :: rest) = .ok (here ++ [s]) ∧
        t.get? (here ++ [s]) = some (.link target) := by
  rw [walk_segment, onward]
  cases t.get? here with
  | none => exact .inl rfl
  | some node =>
    cases node with
    | directory =>
      by_cases htrivial : Path.isTrivial s = true
      · simp only [htrivial, if_true, true_or]
      by_cases hup : s = [Path.dot, Path.dot]
      · subst hup
        exact .inl rfl
      by_cases hlong : nameLimit < s.length
      · simp only [htrivial, hup, hlong, if_true, Bool.false_eq_true, if_false, true_or]
      simp only [htrivial, hup, hlong, Bool.false_eq_true, if_false]
      cases t.get? (here ++ [s]) with
      | none => exact .inl rfl
      | some child =>
        cases child with
        | link target =>
          -- only a link at the end is treated in another way
          by_cases hlast : rest = []
          · exact .inr ⟨target, by simp [hlast], rfl⟩
          · left
            cases links <;> simp [hlast]
        | _ => exact .inl rfl
    | _ => exact .inl rfl

/-- Not following a link at the end matters only if there is one. -/
theorem walk_unfollowed (t : FileTree) (links : Nat) (here : Location) (ss : List Octets) :
    t.walk false links here ss = t.walk true links here ss ∨
      ∃ l target, t.walk false links here ss = .ok l ∧ t.get? l = some (.link target) := by
  induction links, here, ss using walk_induction (t := t) with
  | arrives links here => exact .inl (by rw [walk_nil, walk_nil])
  | ends links here s rest outcome hends =>
    rcases t.walk_unfollowed_cons links here s rest with hsame | ⟨target, hend, hlink⟩
    · left
      rw [hsame, walk_of_ends hends, hends]
    · exact .inr ⟨_, target, hend, hlink⟩
  | goes links here s rest n l ss hgoes ih =>
    rcases t.walk_unfollowed_cons links here s rest with hsame | ⟨target, hend, hlink⟩
    · rw [hsame, walk_of_goes hgoes, hgoes]
      exact ih
    · exact .inr ⟨_, target, hend, hlink⟩

/-- Where a walk goes on, everything that it looked at is there. -/
theorem get?_of_onward_goes {n : Nat} {q : Location}
    (h : t.onward links here s rest = .goes n l ss) (hq : q ∈ t.looked here s) :
    t.get? q ≠ none := by
  cases leads_of_onward h with
  | stays dir htrivial =>
    have hq : q = here := by simpa [looked, IsName, htrivial] using hq
    simp [hq, dir]
  | rises dir hup =>
    have hq : q = here := by simpa [looked, IsName, hup] using hq
    simp [hq, dir]
  | descends dir hname child hnode =>
    rcases (by simpa [looked, dir, hname] using hq : q = here ∨ q = here ++ [s]) with rfl | rfl
    · simp [dir]
    · simp [child]
  | follows dir hname child hlinks =>
    rcases (by simpa [looked, dir, hname] using hq : q = here ∨ q = here ++ [s]) with rfl | rfl
    · simp [dir]
    · simp [child]

/-- A walk to where nothing is leads to the file that is put there. -/
theorem walk_to_new_file (hfree : t.get? l = none) (hu : t.WithFile u l data mode)
    (h : t.walk true links here ss = .ok l) : u.walk true links here ss = .ok l := by
  induction links, here, ss using walk_induction (t := t) with
  | arrives links here =>
    rw [walk_nil] at h ⊢
    exact h
  | ends links here s rest outcome hends =>
    rw [walk_of_ends hends] at h
    subst h
    cases leads_of_onward hends with
    | arrives dir hname free last =>
      -- the segment that led to nothing before leads to the file now
      have hdir : u.get? here = some .directory := by
        rw [hu.elsewhere here (by simp), dir]
      have hgoes : u.onward links here s rest = .goes links (here ++ [s]) rest := by
        rw [onward_of_name links rest hdir hname, hu.at_location]
      rw [walk_of_goes hgoes, last, walk_nil]
  | goes links here s rest n k ss hgoes ih =>
    obtain ⟨-, honward⟩ := onward_of_agree (u := u) links rest fun q hq =>
      hu.elsewhere q fun e => get?_of_onward_goes hgoes hq (e ▸ hfree)
    rw [walk_of_goes hgoes] at h
    rw [walk_of_goes (honward.trans hgoes), ih h]

/-- Finding a path is checking it and walking along it. -/
theorem find_eq_ok_iff {follow : Bool} :
    t.find follow here p = .ok l ↔ checkSpelling p = .ok () ∧
      t.walk follow linkLimit (startOf here p) p.segments = .ok l := by
  unfold find locate checkSpelling
  split
  · simp
  · split
    · simp [Except.mapError]
    · split
      · simp [Except.mapError]
      · cases t.walk follow linkLimit (startOf here p) p.segments <;> simp [Except.mapError]

/-- Where a file can be made is found without following a link at the end. -/
theorem find_of_findFree (h : t.findFree here p = .ok l) : t.find false here p = .ok l := by
  unfold findFree locateMade at h
  unfold find
  split at h
  · cases h
  · next hnul =>
    rw [if_neg hnul]
    split at h
    · cases hlocate : t.locate false here (withoutSlashes p) <;>
        simp [hlocate, bind, Except.bind, Except.mapError] at h
    · exact h

/-- A path at which a file is made leads to it, whatever is written to it. -/
theorem read_of_createNew (h : t.createNew here p mode = .ok (l, u))
    (hv : t.WithFile v l data mode') :
    v.find true here p = .ok l ∧ v.read here p = .ok data := by
  obtain ⟨hfree, -⟩ := createNew_withFile h
  have hfound : t.find false here p = .ok l := by
    unfold createNew at h
    cases hplace : t.findFree here p with
    | error fault =>
      rw [hplace] at h
      cases h
    | ok k =>
      rw [hplace] at h
      simp only [bind, Except.bind] at h
      split at h
      · cases h
        exact find_of_findFree hplace
      · cases h
  obtain ⟨hcheck, hunfollowed⟩ := find_eq_ok_iff.1 hfound
  -- nothing is there before, and so no link either
  have hwalk : t.walk true linkLimit (startOf here p) p.segments = .ok l := by
    rcases t.walk_unfollowed linkLimit (startOf here p) p.segments with
      hsame | ⟨k, target, hk, hlink⟩
    · rw [← hsame, hunfollowed]
    · rw [hk] at hunfollowed
      cases hunfollowed
      rw [hfree] at hlink
      cases hlink
  have hnew := walk_to_new_file hfree hv hwalk
  refine ⟨find_eq_ok_iff.2 ⟨hcheck, hnew⟩, ?_⟩
  unfold read
  rw [node_eq_ok_iff.2 ⟨hcheck, l, hnew, hv.at_location⟩]
  rfl

end FileTree
end CjsxConversion
