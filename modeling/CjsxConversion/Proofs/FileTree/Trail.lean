import CjsxConversion.FileTree.Files

/-!
# The trail of a walk

A walk that follows links looks at some locations of a tree and at no others. These are its trail:
where it is before each segment, what it finds below, and where it ends. Trees that agree on the
trail of a walk lead it to the same end.

`onward` is what a walk does at one segment, and `looked` what it looks at there.
Every statement about a walk is one about `onward`, carried along the trail.

Main results:
* `walk_cons`: a walk ends at its first segment or goes on from it.
* `walk_of_agree`, `trail_of_agree`: on trees that agree on its trail, a walk is the same.
* `walk_of_mem_trail`: a file that is put on the trail of a walk is its end or stands in its way.
* `walk_append`: a walk goes on from where its first part ends, with the links that are left.
* `passed_of_walk`: a walk that arrives passes directories and links only.
* `end_of_straight_walk`: without links and two dots, a walk leads along the names of its segments.
-/

namespace CjsxConversion
namespace FileTree

/-- What a walk does at a segment. -/
inductive Onward where
  | ends (outcome : Except OsFault Location)
  | goes (links : Nat) (here : Location) (rest : List Octets)

/-- A segment that may be the name of something in a directory. -/
def IsName (s : Octets) : Prop :=
  Path.isTrivial s = false ∧ s ≠ [Path.dot, Path.dot] ∧ s.length ≤ nameLimit

instance (s : Octets) : Decidable (IsName s) :=
  inferInstanceAs (Decidable (_ ∧ _ ∧ _))

/-- The locations that a walk looks at for one segment. -/
def looked (t : FileTree) (here : Location) (s : Octets) : List Location :=
  if t.get? here = some .directory ∧ IsName s then [here, here ++ [s]] else [here]

/-- What a walk that follows links does at a segment, with others behind it. -/
def onward (t : FileTree) (links : Nat) (here : Location) (s : Octets) (rest : List Octets) :
    Onward :=
  match t.get? here with
  | none => .ends (.error .noEntry)
  | some .directory =>
    if Path.isTrivial s then .goes links here rest
    else if s = [Path.dot, Path.dot] then .goes links here.dropLast rest
    else if nameLimit < s.length then .ends (.error .nameTooLong)
    else
      match t.get? (here ++ [s]) with
      | some (.link target) =>
        match links with
        | 0 => .ends (.error .tooManyLinks)
        | n + 1 => .goes n (startOf here target) (target.segments ++ rest)
      | some _ => .goes links (here ++ [s]) rest
      | none => .ends (if rest = [] then .ok (here ++ [s]) else .error .noEntry)
  | some _ => .ends (.error .notDirectory)

variable {t u : FileTree} {links : Nat} {here l : Location} {s : Octets} {rest : List Octets}

/-- In a directory, what a walk does at a name depends on what has that name there. -/
theorem onward_of_name (links : Nat) (rest : List Octets) (dir : t.get? here = some .directory)
    (hname : IsName s) :
    t.onward links here s rest =
      match t.get? (here ++ [s]) with
      | some (.link target) =>
        match links with
        | 0 => .ends (.error .tooManyLinks)
        | n + 1 => .goes n (startOf here target) (target.segments ++ rest)
      | some _ => .goes links (here ++ [s]) rest
      | none => .ends (if rest = [] then .ok (here ++ [s]) else .error .noEntry) := by
  obtain ⟨htrivial, hup, hlong⟩ := hname
  simp only [onward, dir, htrivial, hup, Nat.not_lt.2 hlong, Bool.false_eq_true, if_false]

/-- The ways on from a segment. -/
inductive Leads (t : FileTree) (links : Nat) (here : Location) (s : Octets) (rest : List Octets) :
    Onward → Prop
  | fails (fault : OsFault) : Leads t links here s rest (.ends (.error fault))
  | stays (dir : t.get? here = some .directory) (htrivial : Path.isTrivial s = true) :
      Leads t links here s rest (.goes links here rest)
  | rises (dir : t.get? here = some .directory) (hup : s = [Path.dot, Path.dot]) :
      Leads t links here s rest (.goes links here.dropLast rest)
  | arrives (dir : t.get? here = some .directory) (hname : IsName s)
      (free : t.get? (here ++ [s]) = none) (last : rest = []) :
      Leads t links here s rest (.ends (.ok (here ++ [s])))
  | descends (dir : t.get? here = some .directory) (hname : IsName s) {node : FileNode}
      (child : t.get? (here ++ [s]) = some node) (hnode : ∀ target, node ≠ .link target) :
      Leads t links here s rest (.goes links (here ++ [s]) rest)
  | follows (dir : t.get? here = some .directory) (hname : IsName s) {target : Path} {n : Nat}
      (child : t.get? (here ++ [s]) = some (.link target)) (hlinks : links = n + 1) :
      Leads t links here s rest
        (.goes n (startOf here target) (target.segments ++ rest))

/-- What a walk does at a segment is one of the ways on from there. -/
theorem leads_of_onward {o : Onward} (h : t.onward links here s rest = o) :
    t.Leads links here s rest o := by
  subst h
  unfold onward
  cases dir : t.get? here with
  | none => exact .fails _
  | some node =>
    cases node with
    | directory =>
      by_cases htrivial : Path.isTrivial s = true
      · simpa only [htrivial, if_true] using .stays dir htrivial
      by_cases hup : s = [Path.dot, Path.dot]
      · subst hup
        exact .rises dir rfl
      by_cases hlong : nameLimit < s.length
      · simpa only [htrivial, hup, hlong, if_true, Bool.false_eq_true, if_false] using .fails _
      have hname : IsName s := ⟨by simpa using htrivial, hup, Nat.le_of_not_lt hlong⟩
      simp only [htrivial, hup, hlong, Bool.false_eq_true, if_false]
      cases child : t.get? (here ++ [s]) with
      | none =>
        by_cases last : rest = []
        · simpa only [last, if_true] using .arrives dir hname child rfl
        · simpa only [last, if_false] using .fails _
      | some node =>
        cases node with
        | link target =>
          cases hlinks : links with
          | zero => exact .fails _
          | succ n => exact .follows dir hname child rfl
        | _ => exact .descends dir hname child (fun _ => by simp)
    | _ => exact .fails _

/-- What is left of a walk is smaller: fewer links may be followed, or fewer segments are left. -/
theorem onward_decreases {n : Nat} {ss : List Octets}
    (h : t.onward links here s rest = .goes n l ss) :
    Prod.Lex (· < ·) (· < ·) (n, ss.length) (links, (s :: rest).length) := by
  cases leads_of_onward h with
  | stays dir htrivial => exact .right _ (by simp)
  | rises dir hup => exact .right _ (by simp)
  | descends dir hname child hnode => exact .right _ (by simp)
  | follows dir hname child hlinks => exact .left _ _ (by omega)

/-- The locations that a walk looks at. -/
def trail (t : FileTree) (links : Nat) (here : Location) : List Octets → List Location
  | [] => [here]
  | s :: rest =>
    t.looked here s ++
      match _h : t.onward links here s rest with
      | .ends _ => []
      | .goes n l ss => t.trail n l ss
termination_by ss => (links, ss.length)
decreasing_by exact onward_decreases _h

/-- A walk arrives where it is, ends at its first segment, or goes on from it. -/
@[elab_as_elim]
theorem walk_induction {t : FileTree} {motive : Nat → Location → List Octets → Prop}
    (arrives : ∀ links here, motive links here [])
    (ends : ∀ links here s rest outcome, t.onward links here s rest = .ends outcome →
      motive links here (s :: rest))
    (goes : ∀ links here s rest n l ss, t.onward links here s rest = .goes n l ss →
      motive n l ss → motive links here (s :: rest))
    (links : Nat) (here : Location) : ∀ ss, motive links here ss
  | [] => arrives links here
  | s :: rest =>
    match h : t.onward links here s rest with
    | .ends outcome => ends links here s rest outcome h
    | .goes n l ss =>
      goes links here s rest n l ss h (walk_induction arrives ends goes n l ss)
termination_by ss => (links, ss.length)
decreasing_by exact onward_decreases h

/-- The locations that a path is looked up at. -/
def trailOf (t : FileTree) (here : Location) (p : Path) : List Location :=
  t.trail linkLimit (startOf here p) p.segments

theorem here_mem_looked : here ∈ t.looked here s := by
  unfold looked
  split <;> simp

/-- A walk ends at its first segment or goes on from it. -/
theorem walk_cons (t : FileTree) (links : Nat) (here : Location) (s : Octets)
    (rest : List Octets) :
    t.walk true links here (s :: rest) =
      match t.onward links here s rest with
      | .ends outcome => outcome
      | .goes n l ss => t.walk true n l ss := by
  rw [walk_segment, onward]
  cases t.get? here with
  | none => rfl
  | some node =>
    cases node with
    | directory =>
      by_cases htrivial : Path.isTrivial s = true
      · simp only [htrivial, if_true]
      by_cases hup : s = [Path.dot, Path.dot]
      · subst hup
        rfl
      by_cases hlong : nameLimit < s.length
      · simp only [htrivial, hup, hlong, if_true, Bool.false_eq_true, if_false]
      simp only [htrivial, hup, hlong, Bool.false_eq_true, if_false]
      cases t.get? (here ++ [s]) with
      | none => rfl
      | some child =>
        cases child with
        | link target =>
          simp only [not_true_eq_false, and_false, if_false]
          cases links <;> rfl
        | _ => rfl
    | _ => rfl

theorem walk_of_ends {outcome : Except OsFault Location}
    (h : t.onward links here s rest = .ends outcome) :
    t.walk true links here (s :: rest) = outcome := by
  rw [walk_cons, h]

theorem walk_of_goes {n : Nat} {ss : List Octets}
    (h : t.onward links here s rest = .goes n l ss) :
    t.walk true links here (s :: rest) = t.walk true n l ss := by
  rw [walk_cons, h]

theorem trail_nil : t.trail links here [] = [here] := by
  unfold trail
  rfl

theorem trail_of_ends {outcome : Except OsFault Location}
    (h : t.onward links here s rest = .ends outcome) :
    t.trail links here (s :: rest) = t.looked here s := by
  unfold trail
  split
  · simp
  · next hgoes =>
    rw [h] at hgoes
    cases hgoes

theorem trail_of_goes {n : Nat} {ss : List Octets}
    (h : t.onward links here s rest = .goes n l ss) :
    t.trail links here (s :: rest) = t.looked here s ++ t.trail n l ss := by
  rw [trail]
  split
  · next hends =>
    rw [h] at hends
    cases hends
  · next hgoes =>
    rw [h] at hgoes
    cases hgoes
    rfl

/-- On trees that agree on what a walk looks at for a segment, it does the same there. -/
theorem onward_of_agree (links : Nat) (rest : List Octets)
    (h : ∀ l ∈ t.looked here s, u.get? l = t.get? l) :
    u.looked here s = t.looked here s ∧
      u.onward links here s rest = t.onward links here s rest := by
  have hhere := h here here_mem_looked
  refine ⟨by unfold looked; rw [hhere], ?_⟩
  by_cases hlook : t.get? here = some .directory ∧ IsName s
  · have hchild := h (here ++ [s]) (by simp [looked, hlook])
    unfold onward
    rw [hhere, hchild]
  · unfold onward
    rw [hhere]
    cases dir : t.get? here with
    | none => rfl
    | some node =>
      cases node with
      | directory =>
        -- The segment is no name, so that nothing below is looked at.
        by_cases htrivial : Path.isTrivial s = true
        · simp only [htrivial, if_true]
        by_cases hup : s = [Path.dot, Path.dot]
        · subst hup
          rfl
        by_cases hlong : nameLimit < s.length
        · simp only [htrivial, hup, hlong, if_true, Bool.false_eq_true, if_false]
        exact absurd ⟨dir, by simpa using htrivial, hup, Nat.le_of_not_lt hlong⟩ hlook
      | _ => rfl

/-- On trees that agree on its trail, a walk has the same end and the same trail. -/
theorem walk_and_trail_of_agree (ss : List Octets)
    (h : ∀ l ∈ t.trail links here ss, u.get? l = t.get? l) :
    u.walk true links here ss = t.walk true links here ss ∧
      u.trail links here ss = t.trail links here ss := by
  induction links, here, ss using walk_induction (t := t) with
  | arrives links here => simp [trail_nil]
  | ends links here s rest outcome hends =>
    rw [trail_of_ends hends] at h
    obtain ⟨hlooked, honward⟩ := onward_of_agree links rest h
    rw [hends] at honward
    refine ⟨?_, ?_⟩
    · rw [walk_of_ends honward, walk_of_ends hends]
    · rw [trail_of_ends honward, trail_of_ends hends, hlooked]
  | goes links here s rest n l ss hgoes ih =>
    rw [trail_of_goes hgoes] at h
    obtain ⟨hlooked, honward⟩ := onward_of_agree links rest
      fun q hq => h q (List.mem_append_left _ hq)
    obtain ⟨hwalk, htrail⟩ := ih fun q hq => h q (List.mem_append_right _ hq)
    rw [hgoes] at honward
    refine ⟨?_, ?_⟩
    · rw [walk_of_goes honward, walk_of_goes hgoes, hwalk]
    · rw [trail_of_goes honward, trail_of_goes hgoes, hlooked, htrail]

/-- On trees that agree on its trail, a walk has the same end. -/
theorem walk_of_agree {ss : List Octets} (h : ∀ l ∈ t.trail links here ss, u.get? l = t.get? l) :
    u.walk true links here ss = t.walk true links here ss :=
  (walk_and_trail_of_agree ss h).1

/-- On trees that agree on the trail of a walk, its trail is the same. -/
theorem trail_of_agree {ss : List Octets} (h : ∀ l ∈ t.trail links here ss, u.get? l = t.get? l) :
    u.trail links here ss = t.trail links here ss :=
  (walk_and_trail_of_agree ss h).2

theorem mem_trail_of_mem_looked {q : Location} (h : q ∈ t.looked here s) :
    q ∈ t.trail links here (s :: rest) := by
  cases honward : t.onward links here s rest with
  | ends outcome => rwa [trail_of_ends honward]
  | goes n l ss =>
    rw [trail_of_goes honward]
    exact List.mem_append_left _ h

/-- Every walk looks at where it begins. -/
theorem here_mem_trail (ss : List Octets) : here ∈ t.trail links here ss := by
  cases ss with
  | nil => rw [trail_nil]; exact List.mem_singleton_self here
  | cons s rest => exact mem_trail_of_mem_looked here_mem_looked

/-- Where a walk ends is on its trail. -/
theorem end_mem_trail {ss : List Octets} (h : t.walk true links here ss = .ok l) :
    l ∈ t.trail links here ss := by
  induction links, here, ss using walk_induction (t := t) with
  | arrives links here =>
    rw [walk_nil] at h
    cases h
    exact here_mem_trail []
  | ends links here s rest outcome hends =>
    rw [walk_of_ends hends] at h
    subst h
    cases leads_of_onward hends with
    | arrives dir hname free last =>
      exact mem_trail_of_mem_looked (by simp [looked, dir, hname])
  | goes links here s rest n l ss hgoes ih =>
    rw [walk_of_goes hgoes] at h
    rw [trail_of_goes hgoes]
    exact List.mem_append_right _ (ih h)

/-- A walk that arrives passes directories and links only. -/
theorem passed_of_walk {ss : List Octets} {q : Location} (h : t.walk true links here ss = .ok l)
    (hq : q ∈ t.trail links here ss) :
    q = l ∨ t.get? q = some .directory ∨ ∃ target, t.get? q = some (.link target) := by
  induction links, here, ss using walk_induction (t := t) with
  | arrives links here =>
    rw [walk_nil] at h
    cases h
    rw [trail_nil] at hq
    exact .inl (List.mem_singleton.1 hq)
  | ends links here s rest outcome hends =>
    rw [walk_of_ends hends] at h
    subst h
    rw [trail_of_ends hends] at hq
    cases leads_of_onward hends with
    | arrives dir hname free last =>
      rcases (by simpa [looked, dir, hname] using hq : q = here ∨ q = here ++ [s]) with rfl | rfl
      · exact .inr (.inl dir)
      · exact .inl rfl
  | goes links here s rest n k ss hgoes ih =>
    rw [walk_of_goes hgoes] at h
    rw [trail_of_goes hgoes] at hq
    rcases List.mem_append.1 hq with hlook | hrest
    · cases leads_of_onward hgoes with
      | stays dir htrivial =>
        have hq : q = here := by simpa [looked, IsName, htrivial] using hlook
        exact .inr (.inl (hq ▸ dir))
      | rises dir hup =>
        have hq : q = here := by simpa [looked, IsName, hup] using hlook
        exact .inr (.inl (hq ▸ dir))
      | descends dir hname child hnode =>
        rcases (by simpa [looked, dir, hname] using hlook : q = here ∨ q = here ++ [s]) with
          rfl | rfl
        · exact .inr (.inl dir)
        · exact ih h (here_mem_trail rest)
      | follows dir hname child hlinks =>
        rcases (by simpa [looked, dir, hname] using hlook : q = here ∨ q = here ++ [s]) with
          rfl | rfl
        · exact .inr (.inl dir)
        · exact .inr (.inr ⟨_, child⟩)
    · exact ih h hrest

/-- Segments at the end do not change where a walk goes on from a segment. -/
theorem onward_append {n : Nat} {ss : List Octets} (h : t.onward links here s rest = .goes n l ss)
    (more : List Octets) :
    t.onward links here s (rest ++ more) = .goes n l (ss ++ more) := by
  cases leads_of_onward h with
  | stays dir htrivial => simp [onward, dir, htrivial]
  | rises dir hup =>
    subst hup
    simp [onward, dir, Path.isTrivial]
  | descends dir hname child hnode =>
    rw [onward_of_name links _ dir hname, child]
    simp
  | follows dir hname child hlinks =>
    rw [onward_of_name links _ dir hname, child, hlinks, List.append_assoc]

/-- Where nothing is, a walk with segments left does not go on. -/
theorem walk_of_free (h : t.get? here = none) {ss : List Octets} (hss : ss ≠ []) :
    t.walk true links here ss = .error .noEntry := by
  cases ss with
  | nil => exact absurd rfl hss
  | cons s rest => exact walk_of_ends (by simp [onward, h])

/-- A walk goes on from where its first part ends, with the links that are left. -/
theorem walk_append {ss : List Octets} (h : t.walk true links here ss = .ok l) :
    ∃ k, ∀ more, more ≠ [] → t.walk true links here (ss ++ more) = t.walk true k l more ∧
      (t.get? l = some .directory → t.trail k l more ⊆ t.trail links here (ss ++ more)) := by
  induction links, here, ss using walk_induction (t := t) with
  | arrives links here =>
    rw [walk_nil] at h
    cases h
    exact ⟨links, fun more _ => ⟨rfl, fun _ => List.Subset.refl _⟩⟩
  | ends links here s rest outcome hends =>
    rw [walk_of_ends hends] at h
    subst h
    cases leads_of_onward hends with
    | arrives dir hname free last =>
      refine ⟨links, fun more hmore => ⟨?_, ?_⟩⟩
      · have hends := onward_of_name links (rest ++ more) dir hname
        rw [free] at hends
        rw [walk_of_free free hmore, List.cons_append, walk_of_ends hends]
        simp [last, hmore]
      · intro hdir
        rw [free] at hdir
        cases hdir
  | goes links here s rest n k ss hgoes ih =>
    rw [walk_of_goes hgoes] at h
    obtain ⟨left, hleft⟩ := ih h
    refine ⟨left, fun more hmore => ⟨?_, ?_⟩⟩
    · rw [List.cons_append, walk_of_goes (onward_append hgoes more), (hleft more hmore).1]
    · intro hdir
      rw [List.cons_append, trail_of_goes (onward_append hgoes more)]
      exact List.subset_append_of_subset_right _ ((hleft more hmore).2 hdir)

/-- A walk that is longer looks at what the shorter one looks at. -/
theorem trail_subset_append (ss more : List Octets) :
    t.trail links here ss ⊆ t.trail links here (ss ++ more) := by
  induction links, here, ss using walk_induction (t := t) with
  | arrives links here =>
    intro q hq
    rw [trail_nil] at hq
    rw [List.mem_singleton.1 hq]
    exact here_mem_trail _
  | ends links here s rest outcome hends =>
    intro q hq
    rw [trail_of_ends hends] at hq
    exact mem_trail_of_mem_looked hq
  | goes links here s rest n l ss hgoes ih =>
    intro q hq
    rw [trail_of_goes hgoes] at hq
    rw [List.cons_append, trail_of_goes (onward_append hgoes more)]
    rcases List.mem_append.1 hq with hlook | hrest
    · exact List.mem_append_left _ hlook
    · exact List.mem_append_right _ (ih hrest)

/-- What stands at a location does not change a walk to a directory if it is neither a directory
nor a link. -/
theorem walk_to_directory_of_agree {ss : List Octets} {above : Location}
    (hagree : ∀ q, q ≠ l → u.get? q = t.get? q) (h : t.walk true links here ss = .ok above)
    (hdir : t.get? above = some .directory) (hl : t.get? l ≠ some .directory)
    (hlink : ∀ target, t.get? l ≠ some (.link target)) :
    u.walk true links here ss = .ok above ∧ u.get? above = some .directory := by
  have hout : l ∉ t.trail links here ss := by
    intro hmem
    rcases passed_of_walk h hmem with rfl | hpassed | ⟨target, hpassed⟩
    · exact hl hdir
    · exact hl hpassed
    · exact hlink target hpassed
  have htrail : ∀ q ∈ t.trail links here ss, u.get? q = t.get? q :=
    fun q hq => hagree q fun e => hout (e ▸ hq)
  exact ⟨by rw [walk_of_agree htrail, h], by rw [htrail above (end_mem_trail h), hdir]⟩

/-! ### A file on the trail -/

/-- A tree that has a file at a location, and is like another tree everywhere else. -/
structure WithFile (t u : FileTree) (l : Location) (data : Octets) (mode : Nat) : Prop where
  at_location : u.get? l = some (.file data mode)
  elsewhere : ∀ q, q ≠ l → u.get? q = t.get? q

section WithFile

variable {data : Octets} {mode : Nat}

/-- A walk with segments left does not get past a file. -/
theorem onward_of_file (links : Nat) (s : Octets) (rest : List Octets)
    (h : t.get? here = some (.file data mode)) :
    t.onward links here s rest = .ends (.error .notDirectory) := by
  simp [onward, h]

/-- A file where a walk looks for a segment stands in its way, or is where it goes. -/
theorem onward_of_mem_looked (links : Nat) (rest : List Octets) (hu : t.WithFile u l data mode)
    (hl : l ∈ t.looked here s) :
    u.onward links here s rest = .ends (.error .notDirectory) ∨
      u.onward links here s rest = .goes links l rest := by
  by_cases hhere : l = here
  · subst hhere
    exact .inl (onward_of_file links s rest hu.at_location)
  · unfold looked at hl
    split at hl
    · next hlook =>
      obtain ⟨dir, hname⟩ := hlook
      have hchild : l = here ++ [s] := by simpa [hhere] using hl
      have hdir : u.get? here = some .directory := by
        rw [hu.elsewhere here fun e => hhere e.symm, dir]
      subst hchild
      exact .inr (by rw [onward_of_name links rest hdir hname, hu.at_location])
    · exact absurd (List.mem_singleton.1 hl) hhere

/-- A tree looks for a segment at no more locations when a file is put into it. -/
theorem looked_subset_of_withFile (here : Location) (s : Octets)
    (hu : t.WithFile u l data mode) : u.looked here s ⊆ t.looked here s := by
  by_cases hhere : here = l
  · subst hhere
    have hfile : u.looked here s = [here] := by simp [looked, hu.at_location]
    rw [hfile]
    exact List.cons_subset.2 ⟨here_mem_looked, List.nil_subset _⟩
  · unfold looked
    rw [hu.elsewhere here hhere]
    exact List.Subset.refl _

/-- From where a walk looks at a file, it does not get past it, and looks at nothing else. -/
theorem walk_of_mem_looked (links : Nat) (rest : List Octets) (hu : t.WithFile u l data mode)
    (hl : l ∈ t.looked here s) :
    (u.walk true links here (s :: rest) = .ok l ∨
        u.walk true links here (s :: rest) = .error .notDirectory) ∧
      u.trail links here (s :: rest) ⊆ t.looked here s := by
  have hlooked := looked_subset_of_withFile here s hu
  rcases onward_of_mem_looked links rest hu hl with hends | hgoes
  · rw [walk_of_ends hends, trail_of_ends hends]
    exact ⟨.inr rfl, hlooked⟩
  · rw [walk_of_goes hgoes, trail_of_goes hgoes]
    cases rest with
    | nil =>
      rw [walk_nil, trail_nil]
      exact ⟨.inl rfl, List.append_subset.2 ⟨hlooked, by simpa using hl⟩⟩
    | cons s' rest =>
      have hstop := onward_of_file links s' rest hu.at_location
      have hfile : u.looked l s' = [l] := by simp [looked, hu.at_location]
      rw [walk_of_ends hstop, trail_of_ends hstop, hfile]
      exact ⟨.inr rfl, List.append_subset.2 ⟨hlooked, by simpa using hl⟩⟩

/-- A file that is put on the trail of a walk is its end, or stands in its way. The walk then
looks at nothing that it did not look at before. -/
theorem walk_of_mem_trail {ss : List Octets} (hu : t.WithFile u l data mode)
    (hl : l ∈ t.trail links here ss) :
    (u.walk true links here ss = .ok l ∨ u.walk true links here ss = .error .notDirectory) ∧
      u.trail links here ss ⊆ t.trail links here ss := by
  induction links, here, ss using walk_induction (t := t) with
  | arrives links here =>
    rw [trail_nil] at hl
    rw [List.mem_singleton.1 hl, walk_nil, trail_nil, trail_nil]
    exact ⟨.inl rfl, List.Subset.refl _⟩
  | ends links here s rest outcome hends =>
    rw [trail_of_ends hends] at hl ⊢
    exact walk_of_mem_looked links rest hu hl
  | goes links here s rest n k ss hgoes ih =>
    rw [trail_of_goes hgoes] at hl ⊢
    by_cases hlook : l ∈ t.looked here s
    · obtain ⟨hend, htrail⟩ := walk_of_mem_looked links rest hu hlook
      exact ⟨hend, List.subset_append_of_subset_left _ htrail⟩
    · obtain ⟨hlooked, honward⟩ := onward_of_agree (u := u) links rest
        fun q hq => hu.elsewhere q fun e => hlook (e ▸ hq)
      obtain ⟨hend, htrail⟩ := ih ((List.mem_append.1 hl).resolve_left hlook)
      rw [walk_of_goes (honward.trans hgoes), trail_of_goes (honward.trans hgoes), hlooked]
      exact ⟨hend, List.append_subset.2 ⟨List.subset_append_left _ _,
        List.subset_append_of_subset_right _ htrail⟩⟩

end WithFile

/-! ### Paths -/

variable {p : Path}

/-- A path is its segments up to the last name, and empty segments behind it. -/
theorem segments_eq (p : Path) : ∃ slashes, p.segments = namedSegments p ++ slashes := by
  refine ⟨(p.segments.reverse.takeWhile (· = [])).reverse, ?_⟩
  rw [namedSegments, ← List.reverse_append, List.takeWhile_append_dropWhile, List.reverse_reverse]

/-- Looking a path up is checking it, walking along it, and looking at the end. -/
theorem node_eq (t : FileTree) (here : Location) (p : Path) :
    t.node here p =
      match checkSpelling p, t.walk true linkLimit (startOf here p) p.segments with
      | .error fault, _ => .error fault
      | .ok _, .error fault => .error fault.toIoFault
      | .ok _, .ok l =>
        match t.get? l with
        | some n => .ok n
        | none => .error OsFault.noEntry.toIoFault := by
  unfold node find locate checkSpelling
  split
  · rfl
  · split
    · rfl
    · split
      · rfl
      · cases t.walk true linkLimit (startOf here p) p.segments with
        | error fault => rfl
        | ok l => rfl

/-- What a path leads to stands at the end of its walk. -/
theorem node_eq_ok_iff {n : FileNode} :
    t.node here p = .ok n ↔ checkSpelling p = .ok () ∧
      ∃ l, t.walk true linkLimit (startOf here p) p.segments = .ok l ∧ t.get? l = some n := by
  rw [node_eq]
  cases checkSpelling p with
  | error fault => simp
  | ok _ =>
    cases t.walk true linkLimit (startOf here p) p.segments with
    | error fault => simp
    | ok l => cases hl : t.get? l <;> simp [hl]

/-- On trees that agree on its trail, a path leads to the same thing. -/
theorem node_of_agree (h : ∀ l ∈ t.trailOf here p, u.get? l = t.get? l) :
    u.node here p = t.node here p := by
  rw [node_eq, node_eq, walk_of_agree h]
  cases checkSpelling p with
  | error fault => rfl
  | ok _ =>
    cases hwalk : t.walk true linkLimit (startOf here p) p.segments with
    | error fault => rfl
    | ok l =>
      have hend := h l (end_mem_trail hwalk)
      simp only [hend]

theorem exists_node_of_read {data : Octets} (h : t.read here p = .ok data) :
    ∃ n, t.node here p = .ok n := by
  unfold read at h
  cases hnode : t.node here p with
  | error fault =>
    rw [hnode] at h
    cases h
  | ok n => exact ⟨n, rfl⟩

/-- On trees that agree on the trail of a path, a file is read alike. -/
theorem read_of_agree (h : ∀ l ∈ t.trailOf here p, u.get? l = t.get? l) :
    u.read here p = t.read here p := by
  unfold read
  rw [node_of_agree h]

/-- On trees that agree on the trail of a path, what it leads to has the same permission bits. -/
theorem mode?_of_agree (h : ∀ l ∈ t.trailOf here p, u.get? l = t.get? l) :
    u.mode? here p = t.mode? here p := by
  unfold mode?
  rw [node_of_agree h]

/-- Naming a place is checking the path, walking to the directory above, and looking at it. -/
theorem place_eq (t : FileTree) (here : Location) (p : Path) :
    t.place here p =
      match checkSpelling p,
        t.walk true linkLimit (startOf here p) (namedSegments p).dropLast with
      | .error fault, _ => .error fault
      | .ok _, .error fault => .error fault.toIoFault
      | .ok _, .ok l =>
        if t.isDirectory l then .ok (l, (namedSegments p).getLast?.getD [])
        else
          .error (if (t.get? l).isSome then OsFault.notDirectory else OsFault.noEntry).toIoFault := by
  unfold place
  cases checkSpelling p with
  | error fault => rfl
  | ok _ =>
    cases t.walk true linkLimit (startOf here p) (namedSegments p).dropLast with
    | error fault => rfl
    | ok l => rfl

/-- On trees that agree on the trail of a path, it names the same place. -/
theorem place_of_agree (h : ∀ l ∈ t.trailOf here p, u.get? l = t.get? l) :
    u.place here p = t.place here p := by
  have habove : ∀ l ∈ t.trail linkLimit (startOf here p) (namedSegments p).dropLast,
      u.get? l = t.get? l := by
    obtain ⟨slashes, hslashes⟩ := segments_eq p
    obtain ⟨last, hlast⟩ : ∃ last, namedSegments p = (namedSegments p).dropLast ++ last := by
      cases hnamed : (namedSegments p).getLast? with
      | none => exact ⟨[], by simp [List.getLast?_eq_none_iff.1 hnamed]⟩
      | some name =>
        obtain ⟨front, hfront⟩ := List.getLast?_eq_some_iff.1 hnamed
        exact ⟨[name], by simp [hfront]⟩
    intro l hl
    refine h l ?_
    rw [trailOf, hslashes, hlast, List.append_assoc]
    exact trail_subset_append _ _ hl
  rw [place_eq, place_eq, walk_of_agree habove]
  cases checkSpelling p with
  | error fault => rfl
  | ok _ =>
    cases hwalk : t.walk true linkLimit (startOf here p) (namedSegments p).dropLast with
    | error fault => rfl
    | ok l =>
      have hl := habove l (end_mem_trail hwalk)
      have hdir : u.isDirectory l = t.isDirectory l := by simp [isDirectory, hl]
      simp only [hdir, hl]

/-- A path looks at no more locations when a file is put on its trail. -/
theorem WithFile.trailOf_subset {data : Octets} {mode : Nat} (hu : t.WithFile u l data mode)
    (hl : l ∈ t.trailOf here p) : u.trailOf here p ⊆ t.trailOf here p :=
  (walk_of_mem_trail hu hl).2

/-- A file that is put on the trail of a path is what is read there, unless the path goes on. -/
theorem WithFile.read_of_mem_trail {data : Octets} {mode : Nat} (hu : t.WithFile u l data mode)
    (hl : l ∈ t.trailOf here p) (hcheck : checkSpelling p = .ok ()) :
    u.read here p = .ok data ∨ u.read here p = .error OsFault.notDirectory.toIoFault := by
  unfold read
  rw [node_eq, hcheck]
  rcases (walk_of_mem_trail hu hl).1 with hend | hstop
  · left
    simp only [hend, hu.at_location]
    rfl
  · right
    simp only [hstop]
    rfl

/-- A path that neither goes up nor passes a link leads along its names. -/
theorem end_of_straight_walk {ss : List Octets} (hup : [Path.dot, Path.dot] ∉ ss)
    (hlink : ∀ q ∈ t.trail links here ss, ∀ target, t.get? q ≠ some (.link target))
    (h : t.walk true links here ss = .ok l) :
    l = here ++ ss.filter fun s => !Path.isTrivial s := by
  induction links, here, ss using walk_induction (t := t) with
  | arrives links here =>
    rw [walk_nil] at h
    cases h
    simp
  | ends links here s rest outcome hends =>
    rw [walk_of_ends hends] at h
    subst h
    cases leads_of_onward hends with
    | arrives dir hname free last => simp [last, hname.1]
  | goes links here s rest n k ss hgoes ih =>
    rw [walk_of_goes hgoes] at h
    rw [trail_of_goes hgoes] at hlink
    have hrest := fun hss => ih hss (fun q hq => hlink q (List.mem_append_right _ hq)) h
    cases leads_of_onward hgoes with
    | stays dir htrivial =>
      rw [hrest fun hmem => hup (List.mem_cons_of_mem _ hmem)]
      simp [htrivial]
    | rises dir hdots => exact absurd (hdots ▸ List.mem_cons_self) hup
    | descends dir hname child hnode =>
      rw [hrest fun hmem => hup (List.mem_cons_of_mem _ hmem)]
      simp [hname.1]
    | follows dir hname child hlinks =>
      exact absurd child (hlink _ (List.mem_append_left _ (by simp [looked, dir, hname])) _)

end FileTree
end CjsxConversion
