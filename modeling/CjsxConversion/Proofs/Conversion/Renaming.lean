import CjsxConversion.Proofs.Conversion.FaultOrder
import CjsxConversion.Proofs.Path.Components

/-!
# Kinds and destinations

The kind of a source and its destination are both found from the end of its file name, each by
itself. Here it is shown that they agree on every path: a path has a known kind exactly if its
destination is another path, and the kind tells which end the name has got.

A name is renamed as a source of one kind or of another, or is not renamed. Everything
that is said of kinds and of destinations follows the same cases.

Main results:
* `renamed?_eq_some_iff`, `ofPath_eq_iff`: what is renamed, and what has a known kind.
* `derived_cases`, `components_derived`: what renaming does to a path.
* `result_eq_outputIsInput_iff`: when a conversion refuses its destination.
* `destination_differs_iff`: kinds and destinations agree, and what a conversion makes of it.
-/

namespace CjsxConversion

/-- A name is renamed as that of a source of a kind. -/
inductive RenamedAs : SourceKind → Octets → Octets → Prop
  | cjsx (stem : Octets) :
      RenamedAs .cjsx (stem ++ Utf8.encode ".cjsx") (stem ++ Utf8.encode ".jsx")
  | coffee (stem : Octets) :
      RenamedAs .coffee (stem ++ Utf8.encode ".coffee") (stem ++ Utf8.encode ".js")

namespace Path

variable {p : Path} {ending name stem n n' : Octets} {kind kind' : SourceKind}

/-! ### Names -/

theorem encode_endings :
    Utf8.encode ".cjsx" = [46, 99, 106, 115, 120] ∧ Utf8.encode ".jsx" = [46, 106, 115, 120] ∧
      Utf8.encode ".coffee" = [46, 99, 111, 102, 102, 101, 101] ∧
      Utf8.encode ".js" = [46, 106, 115] := by
  decide

theorem stem?_eq_some_iff : stem? ending name = some stem ↔ name = stem ++ ending := by
  unfold stem?
  split
  · next h =>
    obtain ⟨front, rfl⟩ := List.isSuffixOf_iff_suffix.1 h
    simp [eq_comm]
  · next h =>
    simp only [reduceCtorEq, false_iff]
    rintro rfl
    exact h (List.isSuffixOf_iff_suffix.2 (List.suffix_append _ _))

end Path

namespace RenamedAs

variable {name n n' : Octets} {kind kind' : SourceKind}

/-- A name is renamed in one way only. -/
theorem unique (h : RenamedAs kind name n) (h' : RenamedAs kind' name n') :
    kind = kind' ∧ n = n' := by
  obtain ⟨hcjsx, -, hcoffee, -⟩ := Path.encode_endings
  have hends : ∀ s s' : Octets, s ++ Utf8.encode ".cjsx" ≠ s' ++ Utf8.encode ".coffee" := by
    intro s s' heq
    have hlast := congrArg List.getLast? heq
    simp [hcjsx, hcoffee] at hlast
  generalize hname : name = other at h'
  cases h with
  | cjsx stem =>
    cases h' with
    | cjsx stem' => exact ⟨rfl, by rw [List.append_cancel_right hname]⟩
    | coffee stem' => exact absurd hname (hends stem stem')
  | coffee stem =>
    cases h' with
    | cjsx stem' => exact absurd hname.symm (hends stem' stem)
    | coffee stem' => exact ⟨rfl, by rw [List.append_cancel_right hname]⟩

theorem ne (h : RenamedAs kind name n) : n ≠ name := by
  obtain ⟨hcjsx, hjsx, hcoffee, hjs⟩ := Path.encode_endings
  intro heq
  have hlength := congrArg List.length heq
  cases h with
  | cjsx stem => simp [hcjsx, hjsx] at hlength
  | coffee stem => simp [hcoffee, hjs] at hlength

/-- The new name is a file name if the old one is. -/
theorem isFileName (h : RenamedAs kind name n) (hname : Path.IsFileName name) :
    Path.IsFileName n := by
  obtain ⟨hcjsx, hjsx, hcoffee, hjs⟩ := Path.encode_endings
  have hlong : 3 ≤ n.length := by cases h <;> simp [hjsx, hjs]
  have hslash : Path.slash ∉ n := by
    have hold := hname.slashless
    cases h with
    | cjsx stem =>
      rw [List.mem_append, not_or] at hold ⊢
      exact ⟨hold.1, by rw [hjsx]; decide⟩
    | coffee stem =>
      rw [List.mem_append, not_or] at hold ⊢
      exact ⟨hold.1, by rw [hjs]; decide⟩
  refine ⟨hslash, ?_, ?_⟩
  · simp only [Path.isTrivial, Bool.or_eq_false_iff, decide_eq_false_iff_not]
    exact ⟨by rintro rfl; simp at hlong, by rintro rfl; simp at hlong⟩
  · rintro rfl
    simp at hlong

theorem isRenamed (h : RenamedAs kind name n) : kind.isRenamed = true := by
  cases h <;> rfl

end RenamedAs

namespace Path

variable {p : Path} {name n : Octets} {kind : SourceKind}

theorem renamed?_eq (name : Octets) :
    renamed? name =
      match stem? (Utf8.encode ".cjsx") name, stem? (Utf8.encode ".coffee") name with
      | some stem, _ => some (stem ++ Utf8.encode ".jsx")
      | none, some stem => some (stem ++ Utf8.encode ".js")
      | none, none => none := by
  simp only [renamed?, renamings, List.findSome?]
  cases stem? (Utf8.encode ".cjsx") name <;> cases stem? (Utf8.encode ".coffee") name <;> rfl

/-- A name is renamed exactly as that of a source of some kind. -/
theorem renamed?_eq_some_iff : renamed? name = some n ↔ ∃ kind, RenamedAs kind name n := by
  rw [renamed?_eq]
  constructor
  · split
    · next stem hstem =>
      rintro ⟨⟩
      rw [stem?_eq_some_iff] at hstem
      exact ⟨.cjsx, hstem ▸ .cjsx stem⟩
    · next stem _ hstem =>
      rintro ⟨⟩
      rw [stem?_eq_some_iff] at hstem
      exact ⟨.coffee, hstem ▸ .coffee stem⟩
    · intro h
      cases h
  · rintro ⟨kind, h⟩
    split
    · next stem hstem =>
      rw [stem?_eq_some_iff] at hstem
      subst hstem
      rw [(h.unique (.cjsx stem)).2]
    · next stem _ hstem =>
      rw [stem?_eq_some_iff] at hstem
      subst hstem
      rw [(h.unique (.coffee stem)).2]
    · next hcjsx hcoffee =>
      cases h with
      | cjsx stem => exact nomatch hcjsx.symm.trans (stem?_eq_some_iff.2 rfl)
      | coffee stem => exact nomatch hcoffee.symm.trans (stem?_eq_some_iff.2 rfl)

/-! ### Kinds -/

/-- A path whose name is renamed has the kind that it is renamed as. -/
theorem ofPath_of_renamedAs (hname : p.readableName? = some name) (h : RenamedAs kind name n) :
    SourceKind.ofPath p = kind := by
  unfold SourceKind.ofPath
  rw [hname]
  cases h with
  | cjsx stem =>
    have hstem : stem? (Utf8.encode ".cjsx") (stem ++ Utf8.encode ".cjsx") = some stem :=
      stem?_eq_some_iff.2 rfl
    simp [hstem]
  | coffee stem =>
    have hstem : stem? (Utf8.encode ".coffee") (stem ++ Utf8.encode ".coffee") = some stem :=
      stem?_eq_some_iff.2 rfl
    have hother : stem? (Utf8.encode ".cjsx") (stem ++ Utf8.encode ".coffee") = none := by
      refine Option.eq_none_iff_forall_ne_some.2 fun front hfront => ?_
      rw [stem?_eq_some_iff] at hfront
      have hcjsx := RenamedAs.cjsx front
      rw [← hfront] at hcjsx
      cases ((RenamedAs.coffee stem).unique hcjsx).1
    simp [hstem, hother]

/-- A path of a known kind has a name that is renamed as that of a source of its kind. -/
theorem exists_renamedAs (h : (SourceKind.ofPath p).isRenamed = true) :
    ∃ name n, p.readableName? = some name ∧ RenamedAs (SourceKind.ofPath p) name n := by
  by_cases hex : ∃ kind name n, p.readableName? = some name ∧ RenamedAs kind name n
  · obtain ⟨kind, name, n, hname, hrenamed⟩ := hex
    rw [ofPath_of_renamedAs hname hrenamed]
    exact ⟨name, n, hname, hrenamed⟩
  · obtain ⟨hcjsx, -, hcoffee, -⟩ := encode_endings
    -- what stands for the name of a path without one has no end
    have hnone : ∀ ending : Octets, ending ≠ [] →
        (∀ stem, p.readableName? ≠ some (stem ++ ending)) →
        stem? ending (p.readableName?.getD []) = none := by
      intro ending hending hnot
      refine Option.eq_none_iff_forall_ne_some.2 fun stem hstem => ?_
      rw [stem?_eq_some_iff] at hstem
      cases hname : p.readableName? with
      | none =>
        rw [hname, Option.getD_none] at hstem
        exact hending (List.append_eq_nil_iff.1 hstem.symm).2
      | some name =>
        rw [hname, Option.getD_some] at hstem
        exact hnot stem (by rw [hname, hstem])
    have hnoCjsx := hnone (Utf8.encode ".cjsx") (by simp [hcjsx]) fun stem hstem =>
      hex ⟨_, _, _, hstem, .cjsx stem⟩
    have hnoCoffee := hnone (Utf8.encode ".coffee") (by simp [hcoffee]) fun stem hstem =>
      hex ⟨_, _, _, hstem, .coffee stem⟩
    have hother : (SourceKind.ofPath p).isRenamed = false := by
      simp [SourceKind.ofPath, hnoCjsx, hnoCoffee, SourceKind.isRenamed]
    rw [hother] at h
    cases h

/-! ### Destinations -/

theorem fileName?_of_readableName? (h : p.readableName? = some name) : p.fileName? = some name :=
  (Option.filter_eq_some_iff.1 h).1

/-- Renaming replaces the last component of a path. -/
theorem components_derived (hname : p.readableName? = some name) (h : RenamedAs kind name n) :
    ∃ front, p.components = front ++ [.name name] ∧ p.derived.components = front ++ [.name n] := by
  have hfile := fileName?_of_readableName? hname
  have hlast := getLast?_of_fileName? hfile
  obtain ⟨front, hfront⟩ := List.getLast?_eq_some_iff.1 hlast
  have hmem : .name name ∈ p.components := List.mem_of_getLast? hlast
  have hn : IsFileName n := h.isFileName (isFileName_of_mem hmem)
  have hderived : p.derived = p.withFileName n := by
    unfold derived
    rw [hname, Option.bind_some, renamed?_eq_some_iff.2 ⟨kind, h⟩]
  refine ⟨front, hfront, ?_⟩
  rw [hderived, components_withFileName hfile hn, hfront, List.dropLast_concat]

/-- A path of an unknown kind is its own destination. -/
theorem derived_of_unknown (h : (SourceKind.ofPath p).isRenamed = false) : p.derived = p := by
  unfold derived
  cases hname : p.readableName?.bind renamed? with
  | none => rfl
  | some n =>
    obtain ⟨name, hreadable, hrenamed⟩ := Option.bind_eq_some_iff.1 hname
    obtain ⟨kind, hkind⟩ := renamed?_eq_some_iff.1 hrenamed
    rw [ofPath_of_renamedAs hreadable hkind, hkind.isRenamed] at h
    cases h

/-- A path has a known kind exactly if its destination is another path. -/
theorem isRenamed_iff :
    (SourceKind.ofPath p).isRenamed = true ↔ p.derived.components ≠ p.components := by
  constructor
  · intro h
    obtain ⟨name, n, hname, hrenamed⟩ := exists_renamedAs h
    obtain ⟨front, hp, hderived⟩ := components_derived hname hrenamed
    rw [hp, hderived]
    intro heq
    have hlast := List.append_cancel_left heq
    exact hrenamed.ne (by simpa using hlast)
  · intro hne
    cases h : (SourceKind.ofPath p).isRenamed with
    | true => rfl
    | false => exact absurd (by rw [derived_of_unknown h]) hne

/-- The kind of a path tells which end its name gets. -/
theorem ofPath_eq_iff (hkind : kind.isRenamed = true) :
    SourceKind.ofPath p = kind ↔ ∃ front name n, RenamedAs kind name n ∧
      p.components = front ++ [.name name] ∧ p.derived.components = front ++ [.name n] := by
  constructor
  · rintro rfl
    obtain ⟨name, n, hname, hrenamed⟩ := exists_renamedAs hkind
    obtain ⟨front, hp, hderived⟩ := components_derived hname hrenamed
    exact ⟨front, name, n, hrenamed, hp, hderived⟩
  · rintro ⟨front, name, n, hrenamed, hp, hderived⟩
    have hknown : (SourceKind.ofPath p).isRenamed = true := by
      rw [isRenamed_iff, hp, hderived]
      intro heq
      exact hrenamed.ne (by simpa using List.append_cancel_left heq)
    obtain ⟨name', n', hname', hrenamed'⟩ := exists_renamedAs hknown
    have hlast := getLast?_of_fileName? (fileName?_of_readableName? hname')
    obtain rfl : name = name' := by simpa [hp] using hlast
    exact (hrenamed'.unique hrenamed).1

/-- A path is its own destination, or has another name there. -/
theorem derived_cases (p : Path) :
    p.derived = p ∨ ∃ front kind name n, RenamedAs kind name n ∧
      p.components = front ++ [.name name] ∧ p.derived.components = front ++ [.name n] := by
  cases hknown : (SourceKind.ofPath p).isRenamed with
  | false => exact .inl (derived_of_unknown hknown)
  | true =>
    obtain ⟨name, n, hname, hrenamed⟩ := exists_renamedAs hknown
    obtain ⟨front, hp, hderived⟩ := components_derived hname hrenamed
    exact .inr ⟨front, _, name, n, hrenamed, hp, hderived⟩

theorem isAbsolute_derived_eq (p : Path) : p.derived.isAbsolute = p.isAbsolute := by
  rcases p.derived_cases with hsame | ⟨front, kind, name, n, -, hp, hderived⟩
  · rw [hsame]
  · rw [Bool.eq_iff_iff, isAbsolute_iff, isAbsolute_iff, hp, hderived]
    cases front <;> simp

/-- The destination of an absolute path is absolute. -/
theorem isAbsolute_derived (h : p.isAbsolute = true) : p.derived.isAbsolute = true := by
  rw [isAbsolute_derived_eq, h]

end Path

namespace Converter

variable {τ : Type} {c : Converter τ} {id : RunId} {r : ConversionRequest} {w : World τ}
  {o : StageOptions}

/-- A conversion refuses its destination exactly if it has the components of the input. -/
theorem result_eq_outputIsInput_iff (habs : c.workingDir.isAbsolute = true)
    (hoptions : StageOptions.resolve c.catalog r.config.options = .ok o) {q : Path} :
    (c.convert id r w).1.result = .error (.config (.outputIsInput q)) ↔
      q = c.inputOf r ∧ (c.outputOf r).components = (c.inputOf r).components := by
  constructor
  · intro h
    obtain ⟨k, hfirst⟩ := (convert_eq_error_iff_first habs).1 h
    obtain ⟨hdialect, hformat⟩ := StageOptions.resolve_eq_ok_iff.1 hoptions
    cases hfirst.fails.1 with
    | dialect unfit => exact nomatch hdialect.symm.trans unfit
    | format unfit => exact nomatch hformat.symm.trans unfit
    | destinationDiffers same => exact ⟨rfl, by simpa [Path.same] using same⟩
  · rintro ⟨rfl, hsame⟩
    rw [convert_of_same_components hoptions (by simpa [Path.same] using hsame)]

/-- Without a destination that is asked for, it is found by renaming the input. -/
theorem outputOf_of_none (habs : c.workingDir.isAbsolute = true) (hnone : r.output = none) :
    c.outputOf r = (c.inputOf r).derived := by
  unfold outputOf
  rw [hnone]
  exact Path.join_of_isAbsolute _ _ (Path.isAbsolute_derived (isAbsolute_join habs))

end Converter

/-- Kinds and destinations agree. A path has a known kind exactly if its destination is another
path, and the kind tells which end of its name has become which; a path of an unknown kind is its
own destination. So a conversion without a destination that is asked for is refused exactly if the
kind of its input is unknown, and one with a destination exactly if that is the input. -/
theorem destination_differs_iff (p : Path) :
    ((SourceKind.ofPath p).isRenamed = true ↔ p.derived.components ≠ p.components) ∧
    (SourceKind.ofPath p = .cjsx ↔ ∃ front stem,
      p.components = front ++ [.name (stem ++ Utf8.encode ".cjsx")] ∧
      p.derived.components = front ++ [.name (stem ++ Utf8.encode ".jsx")]) ∧
    (SourceKind.ofPath p = .coffee ↔ ∃ front stem,
      p.components = front ++ [.name (stem ++ Utf8.encode ".coffee")] ∧
      p.derived.components = front ++ [.name (stem ++ Utf8.encode ".js")]) ∧
    ((SourceKind.ofPath p).isRenamed = false → p.derived = p) ∧
    ∀ (τ : Type) (c : Converter τ) (id : RunId) (r : ConversionRequest) (w : World τ)
      (o : StageOptions), c.workingDir.isAbsolute = true →
      StageOptions.resolve c.catalog r.config.options = .ok o →
      (r.output = none → ∀ q,
        (c.convert id r w).1.result = .error (.config (.outputIsInput q)) ↔
          q = c.workingDir.join r.input ∧
            (SourceKind.ofPath (c.workingDir.join r.input)).isRenamed = false) ∧
      ∀ asked, r.output = some asked → ∀ q,
        (c.convert id r w).1.result = .error (.config (.outputIsInput q)) ↔
          q = c.workingDir.join r.input ∧
            (c.workingDir.join asked).components = (c.workingDir.join r.input).components := by
  refine ⟨Path.isRenamed_iff, ?_, ?_, Path.derived_of_unknown, fun τ c id r w o habs hoptions => ?_⟩
  · rw [Path.ofPath_eq_iff rfl]
    constructor
    · rintro ⟨front, name, n, hrenamed, hp, hderived⟩
      cases hrenamed with
      | cjsx stem => exact ⟨front, stem, hp, hderived⟩
    · rintro ⟨front, stem, hp, hderived⟩
      exact ⟨front, _, _, .cjsx stem, hp, hderived⟩
  · rw [Path.ofPath_eq_iff rfl]
    constructor
    · rintro ⟨front, name, n, hrenamed, hp, hderived⟩
      cases hrenamed with
      | coffee stem => exact ⟨front, stem, hp, hderived⟩
    · rintro ⟨front, stem, hp, hderived⟩
      exact ⟨front, _, _, .coffee stem, hp, hderived⟩
  · refine ⟨fun hnone q => ?_, fun asked hasked q => ?_⟩
    · rw [Converter.result_eq_outputIsInput_iff habs hoptions,
        Converter.outputOf_of_none habs hnone, Converter.inputOf, ← Bool.not_eq_true,
        Path.isRenamed_iff, not_not]
    · rw [Converter.result_eq_outputIsInput_iff habs hoptions, Converter.outputOf, hasked]
      rfl

/-- A conversion of a file of an unknown kind is refused unless it is told where its result goes. -/
theorem unknown_kind_refused :
    ((Converter.answering "y").convert .zero { input := .ofString "a.txt" }
        Converter.sampleWorld).1.result =
      .error (.config (.outputIsInput (.ofString "/a.txt"))) := by
  obtain ⟨-, -, -, -, hconverts⟩ := destination_differs_iff (.ofString "/a.txt")
  obtain ⟨hderived, -⟩ := hconverts Unit (Converter.answering "y") .zero
    { input := .ofString "a.txt" } Converter.sampleWorld .none (by decide +kernel) (by decide +kernel)
  refine (hderived rfl _).2 ⟨?_, ?_⟩
  · decide +kernel
  · decide +kernel

end CjsxConversion
