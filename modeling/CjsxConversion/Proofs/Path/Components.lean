import CjsxConversion.Path
import Mathlib.Data.List.Basic
import Mathlib.Data.List.TakeWhile

/-!
# What operations on paths do to components

Two paths are the same if they have the same components, so that an operation on paths is known by
what it does to them. The spellings that come of it may differ by slashes and dots that say nothing.

`componentsOf` are the components that segments stand for, before they are spelled.

Main results:
* `components_ofSegments`: segments that are put together have the components that they stand for.
* `components_join`, `components_join_eq`: a relative path that is put behind another one adds its
  components, without the dot that it may begin with.
* `components_parent`: the parent has all components but the last.
* `components_withFileName`: another file name replaces the last component.
* `getLast?_filter_segments`, `segments_join_name`: the segment that the file name is in.
* `isAbsolute_iff`: a path is absolute exactly if the root is its first component.
-/

namespace CjsxConversion
namespace Path

/-- The components that segments stand for, behind the root if there is one. -/
def componentsOf (absolute : Bool) (ss : List Octets) : List Component :=
  if absolute then .root :: (ss.filter fun s => !isTrivial s).map componentOf
  else
    match ss with
    | [] => []
    | s :: rest => componentOf s :: (rest.filter fun s => !isTrivial s).map componentOf

/-- Segments that a spelling can be cut into: they have no slash, and the first one of a relative
path is not empty. -/
structure Cut (absolute : Bool) (ss : List Octets) : Prop where
  slashless : ∀ s ∈ ss, slash ∉ s
  begins : absolute = false → ss.head? ≠ some []

/-- A segment that is a name. -/
structure IsFileName (n : Octets) : Prop where
  slashless : slash ∉ n
  nontrivial : isTrivial n = false
  not_up : n ≠ [dot, dot]

variable {p q : Path} {n : Octets} {absolute : Bool} {ss : List Octets}

/-! ### Segments -/

theorem components_eq (p : Path) : p.components = componentsOf p.isAbsolute p.segments := rfl

theorem not_mem_of_mem_splitOn {sep : UInt8} {cs s : Octets} (h : s ∈ cs.splitOn sep) :
    sep ∉ s := by
  induction cs generalizing s with
  | nil =>
    rw [List.splitOn_nil, List.mem_singleton] at h
    simp [h]
  | cons c cs ih =>
    rw [List.splitOn_cons_eq_if_modifyHead] at h
    split at h
    · rcases List.mem_cons.1 h with rfl | h
      · simp
      · exact ih h
    · next hc =>
      cases hpieces : cs.splitOn sep with
      | nil => exact absurd hpieces (List.splitOn_ne_nil _ _)
      | cons piece pieces =>
        rw [hpieces] at h ih
        rcases List.mem_cons.1 h with rfl | h
        · have hpiece := ih List.mem_cons_self
          simp only [beq_iff_eq] at hc
          simp [hpiece, Ne.symm hc]
        · exact ih (List.mem_cons_of_mem _ h)

/-- What does not begin with a separator has something before the first one. -/
theorem head?_splitOn_ne {sep c : UInt8} {cs : Octets} (h : c ≠ sep) :
    ((c :: cs).splitOn sep).head? ≠ some [] := by
  rw [List.splitOn_cons_eq_if_modifyHead, if_neg (by simpa using h)]
  cases cs.splitOn sep <;> simp

theorem cut_segments (p : Path) : Cut p.isAbsolute p.segments := by
  unfold segments
  cases habs : p.isAbsolute with
  | true =>
    rw [if_pos rfl]
    exact ⟨fun s hs => not_mem_of_mem_splitOn hs, nofun⟩
  | false =>
    rw [if_neg Bool.false_ne_true]
    split
    · exact ⟨by simp, by simp⟩
    · next hne =>
      refine ⟨fun s hs => not_mem_of_mem_splitOn hs, fun _ => ?_⟩
      obtain ⟨c, cs, hspelling⟩ := List.exists_cons_of_ne_nil hne
      rw [hspelling]
      refine head?_splitOn_ne ?_
      simpa [isAbsolute, hspelling] using habs

theorem Cut.of_prefix {ss' : List Octets} (h : Cut absolute ss) (hstart : ss' <+: ss) :
    Cut absolute ss' := by
  refine ⟨fun s hs => h.slashless s (hstart.subset hs), fun habs hhead => h.begins habs ?_⟩
  obtain ⟨rest, rfl⟩ := hstart
  rw [List.head?_append, hhead]
  rfl

theorem components_of_slash (cs : Octets) :
    (Path.mk (slash :: cs)).components = componentsOf true (cs.splitOn slash) := by
  have habs : (Path.mk (slash :: cs)).isAbsolute = true := by simp [isAbsolute]
  rw [components_eq, segments, habs, if_pos rfl, List.drop_one, List.tail_cons]

theorem components_of_relative {c : UInt8} (hc : c ≠ slash) (cs : Octets) :
    (Path.mk (c :: cs)).components = componentsOf false ((c :: cs).splitOn slash) := by
  have habs : (Path.mk (c :: cs)).isAbsolute = false := by simp [isAbsolute, hc]
  rw [components_eq, segments, habs, if_neg Bool.false_ne_true, if_neg (List.cons_ne_nil _ _)]

/-- Segments behind others add what they stand for. -/
theorem componentsOf_append (h : ss ≠ []) (more : List Octets) :
    componentsOf absolute (ss ++ more) =
      componentsOf absolute ss ++ (more.filter fun s => !isTrivial s).map componentOf := by
  cases absolute with
  | true => simp [componentsOf]
  | false =>
    obtain ⟨s, rest, rfl⟩ := List.exists_cons_of_ne_nil h
    simp [componentsOf]

/-- Segments that are put together have the components that they stand for. -/
theorem components_ofSegments (h : Cut absolute ss) :
    (ofSegments absolute ss).components = componentsOf absolute ss := by
  cases absolute with
  | true =>
    have hspelling : ofSegments true ss = ⟨slash :: [slash].intercalate ss⟩ := rfl
    rw [hspelling, components_of_slash]
    cases ss with
    | nil => simp [componentsOf, isTrivial]
    | cons s rest => rw [List.splitOn_intercalate slash h.slashless (by simp)]
  | false =>
    cases ss with
    | nil => rfl
    | cons s rest =>
      cases s with
      | nil => exact absurd rfl (h.begins rfl)
      | cons c s =>
        have hc : c ≠ slash := fun hc => h.slashless _ List.mem_cons_self (by simp [hc])
        obtain ⟨more, hmore⟩ : ∃ more, [slash].intercalate ((c :: s) :: rest) = c :: more := by
          cases rest <;> simp [List.intercalate]
        have hspelling : ofSegments false ((c :: s) :: rest) = ⟨c :: more⟩ := by
          simp [ofSegments, hmore]
        rw [hspelling, components_of_relative hc, ← hmore,
          List.splitOn_intercalate slash h.slashless (by simp)]

theorem components_of_empty (h : p.spelling = []) : p.components = [] := by
  obtain ⟨spelling⟩ := p
  obtain rfl : spelling = [] := h
  rfl

theorem components_ne_nil (h : p.spelling ≠ []) : p.components ≠ [] := by
  rw [components_eq]
  unfold componentsOf segments
  cases p.isAbsolute with
  | true => simp
  | false =>
    simp only [Bool.false_eq_true, if_false, if_neg h]
    cases hpieces : p.spelling.splitOn slash with
    | nil => exact absurd hpieces (List.splitOn_ne_nil _ _)
    | cons s rest => simp

/-! ### Joining -/

theorem join_of_empty {base : Path} (h : base.spelling = []) (p : Path) : base.join p = p := by
  simp [join, h]

/-- A relative path is put behind nothing or behind a slash. -/
theorem spelling_join (base : Path) (hp : p.isAbsolute = false) :
    ∃ front, (base.join p).spelling = front ++ p.spelling ∧
      (front = [] ∨ ∃ before, front = before ++ [slash]) := by
  unfold join
  rw [hp, if_neg Bool.false_ne_true]
  cases hlast : base.spelling.getLast? with
  | none => exact ⟨[], rfl, .inl rfl⟩
  | some c =>
    obtain ⟨before, hbefore⟩ := List.getLast?_eq_some_iff.1 hlast
    by_cases hc : c = slash
    · exact ⟨base.spelling, by simp [hc], .inr ⟨before, by rw [hbefore, hc]⟩⟩
    · exact ⟨base.spelling ++ [slash], by simp [hc], .inr ⟨base.spelling, rfl⟩⟩

/-- What is behind a slash adds its components to what is before it. -/
theorem components_append_slash {xs : Octets} (h : xs ≠ []) (as : Octets) :
    (Path.mk (xs ++ slash :: as)).components =
      (Path.mk xs).components ++
        ((as.splitOn slash).filter fun s => !isTrivial s).map componentOf := by
  obtain ⟨x, xs, rfl⟩ := List.exists_cons_of_ne_nil h
  rw [List.cons_append]
  by_cases hx : x = slash
  · rw [hx, components_of_slash, components_of_slash, List.splitOn_append_cons_self,
      componentsOf_append (List.splitOn_ne_nil _ _)]
  · rw [components_of_relative hx, components_of_relative hx, ← List.cons_append,
      List.splitOn_append_cons_self, componentsOf_append (List.splitOn_ne_nil _ _)]

/-- Behind a path that ends with a slash, nothing is needed in between. -/
theorem components_append_of_slash_end (xs as : Octets) :
    (Path.mk (xs ++ slash :: as)).components =
      (Path.mk (xs ++ [slash])).components ++
        ((as.splitOn slash).filter fun s => !isTrivial s).map componentOf := by
  have htrivial : ([[]] : List Octets).filter (fun s => !isTrivial s) = [] := by simp [isTrivial]
  by_cases hxs : xs = []
  · rw [hxs, List.nil_append, List.nil_append, components_of_slash, components_of_slash,
      List.splitOn_nil]
    simp [componentsOf, htrivial]
  · rw [components_append_slash hxs, components_append_slash hxs, List.splitOn_nil, htrivial,
      List.map_nil, List.append_nil]

/-- A relative path that is put behind another one adds its components, without the dot that it
may begin with. -/
theorem components_join {base : Path} (hbase : base.spelling ≠ []) (hp : p.isAbsolute = false) :
    (base.join p).components =
      base.components ++ (p.segments.filter fun s => !isTrivial s).map componentOf := by
  obtain ⟨xs⟩ := base
  obtain ⟨as⟩ := p
  have hsegments : ((Path.mk as).segments.filter fun s => !isTrivial s) =
      (as.splitOn slash).filter fun s => !isTrivial s := by
    unfold segments
    rw [hp, if_neg Bool.false_ne_true]
    split
    · next hnil =>
      have has : as = [] := hnil
      simp [has, isTrivial]
    · rfl
  rw [hsegments]
  obtain ⟨front, c, hfront⟩ : ∃ front c, xs = front ++ [c] :=
    ⟨xs.dropLast, xs.getLast hbase, (List.dropLast_concat_getLast hbase).symm⟩
  have hlast : (Path.mk xs).spelling.getLast? = some c := by simp [hfront]
  unfold join
  rw [hp, if_neg Bool.false_ne_true, hlast]
  simp only
  split
  · next hc =>
    rw [hfront, hc, List.append_assoc, List.singleton_append, components_append_of_slash_end]
  · exact components_append_slash hbase as

theorem componentOf_eq_here_iff {s : Octets} : componentOf s = .here ↔ s = [dot] := by
  unfold componentOf
  split
  · next h => simp [h]
  · next h =>
    split
    · simp [h]
    · simp [h]

theorem componentOf_ne_root (s : Octets) : componentOf s ≠ .root := by
  unfold componentOf
  split
  · nofun
  · split <;> nofun

theorem eq_of_componentOf {s : Octets} (h : componentOf s = .name n) : s = n := by
  unfold componentOf at h
  split at h
  · cases h
  · split at h
    · cases h
    · exact Component.name.inj h

/-- Of a relative path, only the dot that it may begin with is not a component for others. -/
theorem filter_components (hp : p.isAbsolute = false) :
    p.components.filter (fun k => k ≠ .here) =
      (p.segments.filter fun s => !isTrivial s).map componentOf := by
  have hrest : ∀ ss : List Octets,
      ((ss.filter fun s => !isTrivial s).map componentOf).filter (fun k => k ≠ .here) =
        (ss.filter fun s => !isTrivial s).map componentOf := by
    intro ss
    refine List.filter_eq_self.2 fun k hk => ?_
    obtain ⟨s, hs, rfl⟩ := List.mem_map.1 hk
    obtain ⟨-, htrivial⟩ := List.mem_filter.1 hs
    have hdot : s ≠ [dot] := by
      rintro rfl
      simp [isTrivial] at htrivial
    simp [componentOf_eq_here_iff, hdot]
  have hcut := p.cut_segments
  rw [components_eq, hp]
  rw [hp] at hcut
  cases hsegments : p.segments with
  | nil => rfl
  | cons s rest =>
    have hcomponents : componentsOf false (s :: rest) =
        componentOf s :: (rest.filter fun s => !isTrivial s).map componentOf := rfl
    rw [hcomponents, List.filter_cons, hrest]
    by_cases hdot : s = [dot]
    · subst hdot
      simp [componentOf, isTrivial]
    · have hempty : s ≠ [] := by
        rintro rfl
        exact hcut.begins rfl (by simp [hsegments])
      have hkept : isTrivial s = false := by simp [isTrivial, hdot, hempty]
      simp [componentOf_eq_here_iff, hdot, hkept]

/-- The last segment that says something is the last component, if that is a name. -/
theorem getLast?_filter_segments {front : List Component}
    (h : p.components = front ++ [.name n]) :
    (p.segments.filter fun s => !isTrivial s).getLast? = some n := by
  have hlast : ((p.segments.filter fun s => !isTrivial s).map componentOf).getLast? =
      some (.name n) := by
    cases habs : p.isAbsolute with
    | true =>
      have hroot : p.components =
          .root :: (p.segments.filter fun s => !isTrivial s).map componentOf := by
        rw [components_eq, habs]
        rfl
      have hend := congrArg List.getLast? (hroot.symm.trans h)
      rw [List.getLast?_concat] at hend
      cases hnames : (p.segments.filter fun s => !isTrivial s).map componentOf with
      | nil =>
        rw [hnames] at hend
        cases hend
      | cons k ks => rwa [hnames, List.getLast?_cons_cons] at hend
    | false =>
      rw [← filter_components habs, h, List.filter_append]
      simp
  rw [List.getLast?_map, Option.map_eq_some_iff] at hlast
  obtain ⟨s, hs, hname⟩ := hlast
  rw [hs, eq_of_componentOf hname]

/-- A relative path that is put behind another one adds its components but for a dot. -/
theorem components_join_eq {base : Path} (hbase : base.spelling ≠ []) (hp : p.isAbsolute = false) :
    (base.join p).components = base.components ++ p.components.filter (fun k => k ≠ .here) := by
  rw [components_join hbase hp, filter_components hp]

/-! ### Parents and file names -/

/-- Segments without the trivial ones at their end. -/
def withoutEnd (ss : List Octets) : List Octets := (ss.reverse.dropWhile isTrivial).reverse

theorem isPrefix_withoutEnd (ss : List Octets) : withoutEnd ss <+: ss := by
  rw [withoutEnd, ← List.reverse_suffix, List.reverse_reverse]
  exact List.dropWhile_suffix _

theorem filter_withoutEnd (ss : List Octets) :
    (withoutEnd ss).filter (fun s => !isTrivial s) = ss.filter fun s => !isTrivial s := by
  have hcut : ss = withoutEnd ss ++ (ss.reverse.takeWhile isTrivial).reverse := by
    rw [withoutEnd, ← List.reverse_append, List.takeWhile_append_dropWhile, List.reverse_reverse]
  have hnothing : (ss.reverse.takeWhile isTrivial).reverse.filter (fun s => !isTrivial s) = [] := by
    refine List.filter_eq_nil_iff.2 fun s hs => ?_
    simp [List.mem_takeWhile_imp (List.mem_reverse.1 hs)]
  calc (withoutEnd ss).filter (fun s => !isTrivial s)
      = (withoutEnd ss ++ (ss.reverse.takeWhile isTrivial).reverse).filter
          (fun s => !isTrivial s) := by rw [List.filter_append, hnothing, List.append_nil]
    _ = ss.filter fun s => !isTrivial s := by rw [← hcut]

/-- What is left says something at its end. -/
theorem withoutEnd_cases (ss : List Octets) :
    withoutEnd ss = [] ∨ ∃ front s, withoutEnd ss = front ++ [s] ∧ isTrivial s = false := by
  unfold withoutEnd
  have hhead := List.head?_dropWhile_not isTrivial ss.reverse
  cases hleft : ss.reverse.dropWhile isTrivial with
  | nil => exact .inl rfl
  | cons s front =>
    rw [hleft] at hhead
    exact .inr ⟨front.reverse, s, List.reverse_cons, by simpa using hhead⟩

theorem trimSegments_eq (p : Path) (ss : List Octets) :
    p.trimSegments ss =
      if p.isAbsolute then withoutEnd ss
      else match ss with
        | [] => []
        | s :: rest => s :: withoutEnd rest := rfl

theorem isPrefix_trimSegments (p : Path) (ss : List Octets) : p.trimSegments ss <+: ss := by
  rw [trimSegments_eq]
  split
  · exact isPrefix_withoutEnd ss
  · cases ss with
    | nil => exact List.prefix_rfl
    | cons s rest => exact (List.prefix_cons_inj s).2 (isPrefix_withoutEnd rest)

theorem componentsOf_trimSegments (p : Path) (ss : List Octets) :
    componentsOf p.isAbsolute (p.trimSegments ss) = componentsOf p.isAbsolute ss := by
  rw [trimSegments_eq]
  cases p.isAbsolute with
  | true => simp only [componentsOf, if_true, filter_withoutEnd]
  | false =>
    cases ss with
    | nil => rfl
    | cons s rest => simp only [componentsOf, Bool.false_eq_true, if_false, filter_withoutEnd]

/-- The last component of a path is that of its last segment when it is trimmed. -/
theorem trimSegments_eq_concat (hempty : p.components.getLast? ≠ none)
    (hroot : p.components.getLast? ≠ some .root) :
    ∃ front s, p.trimSegments p.segments = front ++ [s] ∧
      p.components = componentsOf p.isAbsolute front ++ [componentOf s] := by
  have htrim := componentsOf_trimSegments p p.segments
  rw [← components_eq] at htrim
  rw [← htrim] at hempty hroot ⊢
  rw [trimSegments_eq] at hempty hroot ⊢
  cases habs : p.isAbsolute with
  | true =>
    rw [habs] at hroot
    simp only [if_true] at hroot ⊢
    rcases withoutEnd_cases p.segments with hnil | ⟨front, s, hconcat, hs⟩
    · rw [hnil] at hroot
      exact absurd rfl hroot
    · rw [hconcat]
      exact ⟨front, s, rfl, by simp [componentsOf, hs]⟩
  | false =>
    rw [habs] at hempty
    simp only [Bool.false_eq_true, if_false] at hempty ⊢
    cases hsegments : p.segments with
    | nil =>
      rw [hsegments] at hempty
      exact absurd rfl hempty
    | cons s rest =>
      -- the first segment of a relative path is kept, be it trivial or not
      rcases withoutEnd_cases rest with hnil | ⟨front, x, hconcat, hx⟩
      · simp only [hnil]
        exact ⟨[], s, rfl, rfl⟩
      · simp only [hconcat]
        exact ⟨s :: front, x, rfl, by simp [componentsOf, hx]⟩

/-- The parent has all components but the last. -/
theorem components_parent (h : p.parent = some q) : q.components = p.components.dropLast := by
  have hlast : p.components.getLast? ≠ none ∧ p.components.getLast? ≠ some .root ∧
      q = ofSegments p.isAbsolute (p.trimSegments (p.trimSegments p.segments).dropLast) := by
    unfold parent at h
    cases hlast : p.components.getLast? with
    | none =>
      rw [hlast] at h
      cases h
    | some c =>
      rw [hlast] at h
      cases c with
      | root => cases h
      | _ => exact ⟨nofun, nofun, (Option.some.inj h).symm⟩
  obtain ⟨hempty, hroot, rfl⟩ := hlast
  obtain ⟨front, s, hconcat, hcomponents⟩ := trimSegments_eq_concat hempty hroot
  have hcut : Cut p.isAbsolute (p.trimSegments front) := by
    refine p.cut_segments.of_prefix ((p.isPrefix_trimSegments front).trans ?_)
    exact List.IsPrefix.trans ⟨[s], hconcat.symm⟩ (p.isPrefix_trimSegments _)
  rw [hconcat, List.dropLast_concat, components_ofSegments hcut, componentsOf_trimSegments,
    hcomponents, List.dropLast_concat]

/-- Paths with the same components have parents with the same components. -/
theorem components_parent_congr (h : p.components = q.components) :
    p.parent.map components = q.parent.map components := by
  have hboth : ∀ r : Path, r.parent.map components =
      if r.components.getLast? = none ∨ r.components.getLast? = some .root then none
      else some r.components.dropLast := by
    intro r
    cases hr : r.parent with
    | none =>
      unfold parent at hr
      split at hr
      · next hlast => simp [hlast]
      · next hlast => simp [hlast]
      · cases hr
    | some parent =>
      have hlast : ¬ (r.components.getLast? = none ∨ r.components.getLast? = some .root) := by
        unfold Path.parent at hr
        split at hr
        · cases hr
        · cases hr
        · next hempty hroot hlast => simpa [hlast] using hroot
      rw [if_neg hlast, Option.map_some, components_parent hr]
  rw [hboth, hboth, h]

/-- A path whose last component is not the root has a parent. -/
theorem components_parent_of_concat {front : List Component} {k : Component}
    (h : p.components = front ++ [k]) (hk : k ≠ .root) : p.parent.map components = some front := by
  have hlast : p.components.getLast? = some k := by rw [h, List.getLast?_concat]
  obtain ⟨q, hq⟩ : ∃ q, p.parent = some q := by
    unfold parent
    rw [hlast]
    cases k with
    | root => exact absurd rfl hk
    | _ => exact ⟨_, rfl⟩
  rw [hq, Option.map_some, components_parent hq, h, List.dropLast_concat]

/-- A component that is a name is a file name. -/
theorem isFileName_of_mem (h : .name n ∈ p.components) : IsFileName n := by
  have hname : ∀ s, componentOf s = .name n → s = n ∧ s ≠ [dot] ∧ s ≠ [dot, dot] := by
    intro s hs
    unfold componentOf at hs
    split at hs
    · cases hs
    · split at hs
      · cases hs
      · cases hs
        exact ⟨rfl, ‹_›, ‹_›⟩
  have hsegment : ∀ s ∈ p.segments, s ≠ [] → componentOf s = .name n → IsFileName n := by
    intro s hs hne hn
    obtain ⟨rfl, hdot, hup⟩ := hname s hn
    exact ⟨p.cut_segments.slashless _ hs, by simp [isTrivial, hne, hdot], hup⟩
  have hfiltered : ∀ ss : List Octets, ss ⊆ p.segments →
      .name n ∈ (ss.filter fun s => !isTrivial s).map componentOf → IsFileName n := by
    intro ss hsub hmem
    obtain ⟨s, hs, hn⟩ := List.mem_map.1 hmem
    obtain ⟨hs, htrivial⟩ := List.mem_filter.1 hs
    refine hsegment s (hsub hs) ?_ hn
    rintro rfl
    simp [isTrivial] at htrivial
  rw [components_eq] at h
  unfold componentsOf at h
  split at h
  · exact hfiltered _ (List.Subset.refl _) (by simpa using h)
  · next habs =>
    cases hsegments : p.segments with
    | nil => simp [hsegments] at h
    | cons s rest =>
      rw [hsegments] at h
      rcases List.mem_cons.1 h with hs | hrest
      · refine hsegment s (by simp [hsegments]) ?_ hs.symm
        rintro rfl
        exact p.cut_segments.begins (by simpa using habs) (by simp [hsegments])
      · exact hfiltered rest (by simp [hsegments]) hrest

theorem componentOf_of_isFileName (h : IsFileName n) : componentOf n = .name n := by
  have hdot : n ≠ [dot] := by
    rintro rfl
    exact absurd h.nontrivial (by decide)
  rw [componentOf, if_neg hdot, if_neg h.not_up]

/-- A file name is a path of one component. -/
theorem segments_of_isFileName (h : IsFileName n) :
    (Path.mk n).isAbsolute = false ∧ (Path.mk n).segments = [n] := by
  have hne : n ≠ [] := by
    rintro rfl
    exact absurd h.nontrivial (by decide)
  obtain ⟨c, cs, rfl⟩ := List.exists_cons_of_ne_nil hne
  have habs : (Path.mk (c :: cs)).isAbsolute = false := by
    have hc : c ≠ slash := fun hc => h.slashless (by simp [hc])
    simp [isAbsolute, hc]
  refine ⟨habs, ?_⟩
  rw [segments, habs, if_neg Bool.false_ne_true, if_neg (List.cons_ne_nil _ _),
    List.splitOn_eq_singleton h.slashless]

/-- A file name that is put behind a path is one more component. -/
theorem components_join_name (base : Path) (hn : IsFileName n) :
    (base.join ⟨n⟩).components = base.components ++ [.name n] := by
  obtain ⟨habs, hsegments⟩ := segments_of_isFileName hn
  by_cases hbase : base.spelling = []
  · rw [join_of_empty hbase, components_of_empty hbase, components_eq, habs, hsegments,
      List.nil_append]
    simp [componentsOf, componentOf_of_isFileName hn]
  · rw [components_join hbase habs, hsegments]
    simp [hn.nontrivial, componentOf_of_isFileName hn]

/-- A name that is put behind a path is its last segment. -/
theorem segments_join_name (base : Path) (hn : IsFileName n) :
    ∃ front, (base.join ⟨n⟩).segments = front ++ [n] := by
  obtain ⟨habs, hsegments⟩ := segments_of_isFileName hn
  obtain ⟨front, hspelling, hfront⟩ := spelling_join base habs
  have hjoin : base.join ⟨n⟩ = ⟨front ++ n⟩ := congrArg Path.mk hspelling
  rw [hjoin]
  rcases hfront with rfl | ⟨before, rfl⟩
  · exact ⟨[], hsegments⟩
  have hpieces : ∀ cs : Octets, (cs ++ slash :: n).splitOn slash = cs.splitOn slash ++ [n] := by
    intro cs
    rw [List.splitOn_append_cons_self, List.splitOn_eq_singleton hn.slashless]
  rw [List.append_assoc, List.singleton_append]
  cases before with
  | nil => exact ⟨[], by simp [segments, isAbsolute, List.splitOn_eq_singleton hn.slashless]⟩
  | cons b before =>
    by_cases hb : b = slash
    · exact ⟨_, by simpa [segments, isAbsolute, hb] using hpieces before⟩
    · exact ⟨_, by simpa [segments, isAbsolute, hb] using hpieces (b :: before)⟩

/-- A path that ends with a name does not end with a slash. -/
theorem getLast?_join_name (base : Path) (hn : IsFileName n) :
    (base.join ⟨n⟩).spelling.getLast? ≠ some slash := by
  obtain ⟨habs, -⟩ := segments_of_isFileName hn
  obtain ⟨front, hspelling, -⟩ := spelling_join base habs
  have hne : n ≠ [] := by
    rintro rfl
    exact absurd hn.nontrivial (by decide)
  rw [hspelling, List.getLast?_append_of_ne_nil _ hne]
  exact fun hlast => hn.slashless (List.mem_of_getLast? hlast)

theorem getLast?_of_fileName? (h : p.fileName? = some n) :
    p.components.getLast? = some (.name n) := by
  unfold fileName? at h
  split at h
  · next m hm =>
    cases h
    exact hm
  · cases h

/-- Another file name replaces the last component. -/
theorem components_withFileName {old : Octets} (hold : p.fileName? = some old) (hn : IsFileName n) :
    (p.withFileName n).components = p.components.dropLast ++ [.name n] := by
  obtain ⟨q, hq⟩ : ∃ q, p.parent = some q := by
    unfold parent
    rw [getLast?_of_fileName? hold]
    exact ⟨_, rfl⟩
  unfold withFileName
  rw [hold, hq]
  simp only [Option.getD_some]
  rw [components_join_name q hn, components_parent hq]

theorem fileName?_of_concat {front : List Component} (h : p.components = front ++ [.name n]) :
    p.fileName? = some n := by
  unfold fileName?
  rw [h, List.getLast?_concat]

/-- What is put behind a path keeps its file name. -/
theorem fileName?_join (base : Path) (h : p.fileName? = some n) :
    (base.join p).fileName? = some n := by
  by_cases hp : p.isAbsolute = true
  · rwa [join_of_isAbsolute base p hp]
  by_cases hbase : base.spelling = []
  · rwa [join_of_empty hbase]
  · obtain ⟨front, hfront⟩ := List.getLast?_eq_some_iff.1 (getLast?_of_fileName? h)
    have hjoin := components_join_eq hbase (p := p) (by simpa using hp)
    rw [hfront, List.filter_append, ← List.append_assoc] at hjoin
    exact fileName?_of_concat hjoin

/-- A path is absolute exactly if the root is its first component. -/
theorem isAbsolute_iff : p.isAbsolute = true ↔ p.components.head? = some .root := by
  rw [components_eq]
  unfold componentsOf
  cases p.isAbsolute with
  | true => simp
  | false =>
    cases p.segments with
    | nil => simp
    | cons s rest => simpa using componentOf_ne_root s

/-- What is put behind a path begins as the path does. -/
theorem isAbsolute_join_eq {base : Path} (hbase : base.spelling ≠ []) (hp : p.isAbsolute = false) :
    (base.join p).isAbsolute = base.isAbsolute := by
  rw [Bool.eq_iff_iff, isAbsolute_iff, isAbsolute_iff, components_join_eq hbase hp,
    List.head?_append_of_ne_nil _ (components_ne_nil hbase)]

/-- The root is no component of a relative path. -/
theorem root_not_mem (h : p.isAbsolute = false) : .root ∉ p.components := by
  rw [components_eq, h]
  unfold componentsOf
  cases p.segments with
  | nil => simp
  | cons s rest =>
    intro hmem
    rcases List.mem_cons.1 hmem with hs | hrest
    · exact componentOf_ne_root s hs.symm
    · obtain ⟨s', -, hs'⟩ := List.mem_map.1 hrest
      exact componentOf_ne_root s' hs'

end Path
end CjsxConversion
