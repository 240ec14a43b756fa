import CjsxConversion.Proofs.Conversion.Renaming

/-!
# Laws of derived destinations

The destination of a source is found by renaming its path, and a path may be renamed before or
after it is put behind a directory, or renamed once more.

Everything follows from what renaming does to one name: the new name is not renamed
again, and it tells which name it came from. Paths are compared by their components.

Main results:
* `RenamedAs.not_again`, `RenamedAs.injective`: names that have been renamed.
* `derived_derived`: a derived path is its own destination.
* `components_eq_of_derived`: sources of known kinds do not share a destination.
* `components_derived_join`, `ofPath_join`: renaming does not depend on the directory.
* `derived_laws`: all of this for one path.
-/

namespace CjsxConversion

namespace RenamedAs

variable {kind kind' : SourceKind} {name name' n n' : Octets}

/-- A new name is not renamed again. -/
theorem not_again (h : RenamedAs kind name n) : ¬ RenamedAs kind' n n' := by
  obtain ⟨hcjsx, hjsx, hcoffee, hjs⟩ := Path.encode_endings
  intro h'
  generalize hn : n = other at h'
  have hends := congrArg List.reverse hn
  cases h with
  | cjsx stem =>
    cases h' with
    | cjsx stem' => simp [hjsx, hcjsx] at hends
    | coffee stem' => simp [hjsx, hcoffee] at hends
  | coffee stem =>
    cases h' with
    | cjsx stem' => simp [hjs, hcjsx] at hends
    | coffee stem' => simp [hjs, hcoffee] at hends

/-- A new name tells which name it came from. -/
theorem injective (h : RenamedAs kind name n) (h' : RenamedAs kind' name' n) : name = name' := by
  obtain ⟨-, hjsx, -, hjs⟩ := Path.encode_endings
  generalize hn : n = other at h'
  have hends := congrArg List.getLast? hn
  cases h with
  | cjsx stem =>
    cases h' with
    | cjsx stem' => rw [List.append_cancel_right hn]
    | coffee stem' => simp [hjsx, hjs] at hends
  | coffee stem =>
    cases h' with
    | cjsx stem' => simp [hjsx, hjs] at hends
    | coffee stem' => rw [List.append_cancel_right hn]

end RenamedAs

namespace Path

variable {p q : Path} {n : Octets}

theorem components_parent_derived (p : Path) :
    p.derived.parent.map components = p.parent.map components := by
  rcases p.derived_cases with hsame | ⟨front, kind, name, n, -, hp, hderived⟩
  · rw [hsame]
  · rw [components_parent_of_concat hp nofun, components_parent_of_concat hderived nofun]

/-- A derived path is its own destination. -/
theorem derived_derived (p : Path) : p.derived.derived = p.derived := by
  rcases p.derived_cases with hsame | ⟨front, kind, name, n, hrenamed, -, hderived⟩
  · rw [hsame, hsame]
  · refine derived_of_unknown ?_
    rw [Bool.eq_false_iff]
    intro hknown
    obtain ⟨name', n', hname', hrenamed'⟩ := exists_renamedAs hknown
    have hsame : n = name' := by
      have hfile := (fileName?_of_concat hderived).symm.trans (fileName?_of_readableName? hname')
      exact Option.some.inj hfile
    exact hrenamed.not_again (hsame ▸ hrenamed')

/-- Sources of known kinds do not share a destination. -/
theorem components_eq_of_derived (hp : (SourceKind.ofPath p).isRenamed = true)
    (hq : (SourceKind.ofPath q).isRenamed = true)
    (h : p.derived.components = q.derived.components) : p.components = q.components := by
  obtain ⟨name, n, hname, hrenamed⟩ := exists_renamedAs hp
  obtain ⟨front, hpname, hpderived⟩ := components_derived hname hrenamed
  obtain ⟨name', n', hname', hrenamed'⟩ := exists_renamedAs hq
  obtain ⟨front', hqname, hqderived⟩ := components_derived hname' hrenamed'
  rw [hpderived, hqderived] at h
  obtain ⟨hfront, hlast⟩ := List.append_inj' h rfl
  have hn : n = n' := by simpa using hlast
  subst hn
  rw [hpname, hqname, hfront, hrenamed.injective hrenamed']

/-- The kind of a path is that of its file name. -/
theorem ofPath_congr (h : p.fileName? = q.fileName?) :
    SourceKind.ofPath p = SourceKind.ofPath q := by
  unfold SourceKind.ofPath readableName? extension?
  rw [h]

/-- A path keeps its kind behind any directory. -/
theorem ofPath_join (base : Path) (h : p.fileName? = some n) :
    SourceKind.ofPath (base.join p) = SourceKind.ofPath p :=
  ofPath_congr (by rw [fileName?_join base h, h])

/-- A path may be renamed before or after it is put behind a directory. -/
theorem components_derived_join (base : Path) (h : p.fileName? = some n) :
    (base.join p).derived.components = (base.join p.derived).components := by
  cases hknown : (SourceKind.ofPath p).isRenamed with
  | false =>
    have hjoin : (SourceKind.ofPath (base.join p)).isRenamed = false := by
      rw [ofPath_join base h, hknown]
    rw [derived_of_unknown hknown, derived_of_unknown hjoin]
  | true =>
    by_cases habs : p.isAbsolute = true
    · rw [join_of_isAbsolute base p habs,
        join_of_isAbsolute base _ (by rw [isAbsolute_derived_eq, habs])]
    by_cases hbase : base.spelling = []
    · rw [join_of_empty hbase, join_of_empty hbase]
    have hrelative : p.isAbsolute = false := by simpa using habs
    obtain ⟨name, n', hname, hrenamed⟩ := exists_renamedAs hknown
    obtain ⟨front, hp, hderived⟩ := components_derived hname hrenamed
    have hreadable : (base.join p).readableName? = some name := by
      have hfile := fileName?_of_readableName? hname
      rw [← hname, readableName?, readableName?, fileName?_join base hfile, hfile]
    obtain ⟨front', hjoined, hjoinedDerived⟩ := components_derived hreadable hrenamed
    -- both are the directory, what is before the name, and the new name
    have hfront : front' = base.components ++ front.filter (fun k => k ≠ .here) := by
      rw [components_join_eq hbase hrelative, hp, List.filter_append,
        ← List.append_assoc] at hjoined
      exact (List.append_inj_left' hjoined rfl).symm
    have hrelative' : p.derived.isAbsolute = false := by rw [isAbsolute_derived_eq, hrelative]
    rw [hjoinedDerived, components_join_eq hbase hrelative', hderived, List.filter_append,
      ← List.append_assoc, hfront]
    rfl

/-- The laws of derived destinations. The destination of a path is in the same directory, and
differs from it at most by the end of the name. It is its own destination. Of two paths of known
kinds that have the same destination, one is the other. And where a path has a name, its destination
and its kind do not depend on whether it is first put behind a directory. -/
theorem derived_laws (p : Path) :
    (p.derived.isAbsolute = p.isAbsolute ∧
      p.derived.parent.map components = p.parent.map components ∧
      (p.derived = p ∨ ∃ front stem,
        p.components = front ++ [.name (stem ++ Utf8.encode ".cjsx")] ∧
          p.derived.components = front ++ [.name (stem ++ Utf8.encode ".jsx")] ∨
        p.components = front ++ [.name (stem ++ Utf8.encode ".coffee")] ∧
          p.derived.components = front ++ [.name (stem ++ Utf8.encode ".js")])) ∧
    p.derived.derived = p.derived ∧
    (∀ q, (SourceKind.ofPath p).isRenamed = true → (SourceKind.ofPath q).isRenamed = true →
      p.derived.components = q.derived.components → p.components = q.components) ∧
    ∀ (base : Path) n, p.fileName? = some n →
      (base.join p).derived.components = (base.join p.derived).components ∧
        SourceKind.ofPath (base.join p) = SourceKind.ofPath p := by
  refine ⟨⟨p.isAbsolute_derived_eq, p.components_parent_derived, ?_⟩, p.derived_derived,
    fun q => components_eq_of_derived, ?_⟩
  · rcases p.derived_cases with hsame | ⟨front, kind, name, n, hrenamed, hp, hderived⟩
    · exact .inl hsame
    · cases hrenamed with
      | cjsx stem => exact .inr ⟨front, stem, .inl ⟨hp, hderived⟩⟩
      | coffee stem => exact .inr ⟨front, stem, .inr ⟨hp, hderived⟩⟩
  · intro base n h
    exact ⟨components_derived_join base h, ofPath_join base h⟩

/-- Only the last of two ends is renamed, in a directory as well as outside of it. -/
theorem last_end_renamed :
    ((ofString "/w/").join (ofString "./a//b.coffee.cjsx/")).derived.components =
        ((ofString "/w/").join (ofString "a/b.coffee.jsx")).components ∧
      (ofString "./a//b.coffee.cjsx/").derived.derived =
        (ofString "./a//b.coffee.cjsx/").derived := by
  obtain ⟨-, hagain, -, hjoin⟩ := derived_laws (ofString "./a//b.coffee.cjsx/")
  refine ⟨?_, hagain⟩
  rw [(hjoin (ofString "/w/") (Utf8.encode "b.coffee.cjsx") (by decide +kernel)).1]
  decide +kernel

end Path
end CjsxConversion
