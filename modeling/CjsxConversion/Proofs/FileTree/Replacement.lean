import CjsxConversion.Proofs.FileTree.Trail

/-!
# What replacing a file does

A file is replaced by writing another one beside it and moving that one to the destination. When
this succeeds, one location holds the new file and no other location has changed; the file that was
written beside the destination is not left behind.

The destination is the place that the path names: a link there is replaced, not
followed. Its permission bits are those of what the path led to before, which `BitsFor` says of the
tree and of single bits.

Main results:
* `bitsFor_iff`: the bits that a new file has are the ones it is to have.
* `moveFile_eq_ok`: what a move needs, and what it does.
* `replaceFile_of_ok`: replacing a file changes one location.
* `Replaced.node_eq`: the path then leads to the new file, unless it was a link.
-/

namespace CjsxConversion
namespace FileTree

variable {t u v : FileTree} {here l : Location} {p : Path}

/-- The permission bits that a file is to have that replaces what a path leads to: the bits of that,
or, where the path leads to nothing, those of `0o666` that the mask does not take away. A way that
ends at a link leads to nothing. -/
inductive BitsFor (t : FileTree) (here : Location) (mask : Nat) (p : Path) (bits : Nat) : Prop
  | ofFile {l : Location} {data : Octets} (leads : t.find true here p = .ok l)
      (there : t.get? l = some (.file data bits)) : BitsFor t here mask p bits
  | ofDirectory {l : Location} (leads : t.find true here p = .ok l)
      (there : t.get? l = some .directory) (usual : bits = 0o755) : BitsFor t here mask p bits
  | ofDevice {l : Location} (leads : t.find true here p = .ok l)
      (there : t.get? l = some .sink ∨ t.get? l = some .full) (usual : bits = 0o666) :
      BitsFor t here mask p bits
  | unmasked
      (nowhere : ∀ l, t.find true here p = .ok l →
        t.get? l = none ∨ ∃ target, t.get? l = some (.link target))
      (each : ∀ i, bits.testBit i = (Nat.testBit 0o666 i && !mask.testBit i)) :
      BitsFor t here mask p bits

/-- What replacing a file comes to: the place that the path names, which is no directory, holds the
new file, and nothing else has changed. -/
structure Replaced (t u : FileTree) (here : Location) (mask : Nat) (p : Path) (octets : Octets)
    (above : Location) (name : Octets) : Prop where
  place_eq : t.place here p = .ok (above, name)
  isName : IsName name
  slashless : p.spelling.getLast? ≠ some Path.slash
  not_directory : t.get? (above ++ [name]) ≠ some .directory
  withBits : ∃ bits, t.BitsFor here mask p bits ∧ t.WithFile u (above ++ [name]) octets bits

section Bits

variable {mask bits : Nat}

theorem testBit_newMode (mask i : Nat) :
    (newMode mask).testBit i = (Nat.testBit 0o666 i && !mask.testBit i) := by
  simp only [newMode, masked, Nat.testBit_xor, Nat.testBit_and]
  cases Nat.testBit 0o666 i <;> simp

theorem eq_newMode_iff :
    bits = newMode mask ↔ ∀ i, bits.testBit i = (Nat.testBit 0o666 i && !mask.testBit i) := by
  constructor
  · rintro rfl
    exact testBit_newMode mask
  · exact fun each => Nat.eq_of_testBit_eq fun i => (each i).trans (testBit_newMode mask i).symm

/-- The bits that a new file has are the ones it is to have. -/
theorem bitsFor_iff :
    t.BitsFor here mask p bits ↔ bits = (t.mode? here p).getD (newMode mask) := by
  unfold mode? node
  constructor
  · rintro (⟨leads, there⟩ | ⟨leads, there, usual⟩ | ⟨leads, there | there, usual⟩ |
      ⟨nowhere, each⟩)
    · simp [leads, there, bind, Except.bind, pure, Except.pure]
    · simp [leads, there, usual, bind, Except.bind, pure, Except.pure, directoryMode]
    · simp [leads, there, usual, bind, Except.bind, pure, Except.pure]
    · simp [leads, there, usual, bind, Except.bind, pure, Except.pure]
    · rw [eq_newMode_iff.2 each]
      cases leads : t.find true here p with
      | error fault => rfl
      | ok l =>
        obtain there | ⟨target, there⟩ := nowhere l leads
        · simp [there, bind, Except.bind]
        · simp [there, bind, Except.bind, pure, Except.pure]
  · rintro rfl
    cases leads : t.find true here p with
    | error fault => exact .unmasked (by simp [leads]) (testBit_newMode mask)
    | ok l =>
      cases there : t.get? l with
      | none =>
        simp only [bind, Except.bind, there]
        exact .unmasked (by simp [leads, there]) (testBit_newMode mask)
      | some node =>
        simp only [bind, Except.bind, there]
        cases node with
        | directory => exact .ofDirectory leads there rfl
        | file data mode => exact .ofFile leads there
        | link target => exact .unmasked (by simp [leads, there]) (testBit_newMode mask)
        | sink => exact .ofDevice leads (.inl there) rfl
        | full => exact .ofDevice leads (.inr there) rfl

theorem Replaced.withFile {octets : Octets} {above : Location} {name : Octets}
    (h : t.Replaced u here mask p octets above name) :
    t.WithFile u (above ++ [name]) octets ((t.mode? here p).getD (newMode mask)) := by
  obtain ⟨bits, hbits, hfile⟩ := h.withBits
  exact bitsFor_iff.1 hbits ▸ hfile

end Bits

section Steps

variable {data octets : Octets} {mode mode' : Nat}

theorem WithFile.ne_nil (h : t.WithFile u l data mode) : l ≠ [] := by
  rintro rfl
  have hroot := h.at_location
  simp [get?] at hroot

theorem WithFile.put (h : t.WithFile u l data mode) :
    t.WithFile (u.put l (.file octets mode')) l octets mode' where
  at_location := by simp [get?_put u h.ne_nil]
  elsewhere q hq := by simp [get?_put u h.ne_nil, hq, h.elsewhere q hq]

theorem WithFile.fill (h : t.WithFile u l data mode) :
    t.WithFile (u.fill l octets) l octets mode := by
  unfold FileTree.fill
  rw [h.at_location]
  exact h.put

theorem WithFile.setMode (h : t.WithFile u l data mode) :
    t.WithFile (u.setMode l mode') l data mode' := by
  unfold FileTree.setMode
  rw [h.at_location]
  exact h.put

/-- A new file stands where nothing was. -/
theorem createNew_withFile (h : t.createNew here p mode = .ok (l, u)) :
    t.get? l = none ∧ t.WithFile u l [] mode := by
  obtain ⟨hfree, rfl⟩ := createNew_eq_ok h
  have hl : l ≠ [] := by
    rintro rfl
    simp [get?] at hfree
  exact ⟨hfree, by simp [get?_put t hl], fun q hq => by simp [get?_put t hl, hq]⟩

/-- A place is a name in a directory, at the end of a walk to it. -/
theorem place_eq_ok {above : Location} {name : Octets} (h : t.place here p = .ok (above, name)) :
    checkSpelling p = .ok () ∧
      t.walk true linkLimit (startOf here p) (namedSegments p).dropLast = .ok above ∧
      t.get? above = some .directory ∧ name = (namedSegments p).getLast?.getD [] := by
  rw [place_eq] at h
  cases hcheck : checkSpelling p with
  | error fault =>
    rw [hcheck] at h
    cases h
  | ok _ =>
    cases hwalk : t.walk true linkLimit (startOf here p) (namedSegments p).dropLast with
    | error fault =>
      rw [hcheck, hwalk] at h
      cases h
    | ok k =>
      rw [hcheck, hwalk] at h
      simp only at h
      split at h
      · next hdir =>
        cases h
        exact ⟨rfl, rfl, by simpa [isDirectory] using hdir, rfl⟩
      · cases h

/-- A walk to a directory names a place, whatever stands there. -/
theorem place_of_walk {above : Location} (hcheck : checkSpelling p = .ok ())
    (hwalk : t.walk true linkLimit (startOf here p) (namedSegments p).dropLast = .ok above)
    (hdir : t.get? above = some .directory) :
    t.place here p = .ok (above, (namedSegments p).getLast?.getD []) := by
  rw [place_eq, hcheck, hwalk]
  simp [isDirectory, hdir]

/-- What a move needs, and what it does. -/
theorem moveFile_eq_ok {source : Location} (h : t.moveFile here source p = .ok u) :
    ∃ above name n, t.place here p = .ok (above, name) ∧ IsName name ∧
      p.spelling.getLast? ≠ some Path.slash ∧ t.get? source = some n ∧
      t.get? (above ++ [name]) ≠ some .directory ∧
      u = (t.remove source).put (above ++ [name]) n := by
  unfold moveFile at h
  cases hplace : t.place here p with
  | error fault =>
    rw [hplace] at h
    cases h
  | ok place =>
    obtain ⟨above, name⟩ := place
    rw [hplace] at h
    simp only [bind, Except.bind] at h
    split at h
    · cases h
    · next hname =>
      split at h
      · cases h
      · next hshort =>
        split at h
        · cases h
        · next hslash =>
          cases hn : t.get? source with
          | none =>
            rw [hn] at h
            cases h
          | some n =>
            rw [hn] at h
            simp only at h
            split at h
            · cases h
            · next hdir =>
              cases h
              rw [not_or] at hname
              exact ⟨above, name, n, rfl, ⟨by simpa using hname.1, hname.2, by omega⟩, hslash,
                rfl, by simpa [isDirectory] using hdir, rfl⟩

/-- A file that was just made is filled and moved with the permission bits that it is given. -/
theorem complete_eq_ok {refusals : Refusals} {made : Location} {existing : Option Nat}
    (hu : t.WithFile u made data mode)
    (h : u.complete refusals here made existing p octets = .ok v) :
    ∃ w, t.WithFile w made octets (existing.getD mode) ∧ w.moveFile here made p = .ok v := by
  unfold complete at h
  cases hwrite : allow refusals .write with
  | error fault =>
    rw [hwrite] at h
    cases h
  | ok _ =>
    rw [hwrite] at h
    cases existing with
    | none =>
      cases hmove : allow refusals .move with
      | error fault =>
        rw [hmove] at h
        cases h
      | ok _ =>
        rw [hmove] at h
        exact ⟨_, hu.fill, h⟩
    | some bits =>
      cases hpermit : allow refusals .permit with
      | error fault =>
        rw [hpermit] at h
        cases h
      | ok _ =>
        cases hmove : allow refusals .move with
        | error fault =>
          rw [hpermit, hmove] at h
          cases h
        | ok _ =>
          rw [hpermit, hmove] at h
          exact ⟨_, hu.fill.setMode, h⟩

/-- Moving a file that was made where nothing was replaces the destination alone. -/
theorem replaced_of_moveFile {mask : Nat} {made : Location} (hfree : t.get? made = none)
    (hu : t.WithFile u made octets ((t.mode? here p).getD (newMode mask)))
    (h : u.moveFile here made p = .ok v) :
    ∃ above name, t.Replaced v here mask p octets above name := by
  obtain ⟨above, name, n, hplace, hname, hslash, hn, hdest, rfl⟩ := moveFile_eq_ok h
  obtain ⟨hcheck, hwalk, hdir, hlast⟩ := place_eq_ok hplace
  have hn' : n = .file octets ((t.mode? here p).getD (newMode mask)) := by
    rw [hu.at_location] at hn
    exact (Option.some.inj hn).symm
  -- The file that was made stood in the way of no walk to a directory.
  obtain ⟨hwalk', hdir'⟩ := walk_to_directory_of_agree
    (fun q hq => (hu.elsewhere q hq).symm) hwalk hdir (by simp [hu.at_location])
    (by simp [hu.at_location])
  have hne : above ++ [name] ≠ [] := by simp
  refine ⟨above, name, ?_, hname, hslash, ?_, _, bitsFor_iff.2 rfl, ?_, ?_⟩
  · rw [hlast]
    exact place_of_walk hcheck hwalk' hdir'
  · by_cases hmade : above ++ [name] = made
    · simp [hmade, hfree]
    · rw [← hu.elsewhere _ hmade]
      exact hdest
  · simp [get?_put _ hne, hn']
  · intro q hq
    rw [get?_put _ hne, if_neg hq, get?_remove u hu.ne_nil]
    by_cases hmade : q = made
    · simp [hmade, hfree]
    · rw [if_neg hmade, hu.elsewhere q hmade]

end Steps

/-- Replacing a file changes one location, the place that the path names. -/
theorem replaceFile_of_ok {refusals : Refusals} {mask : Nat} {octets : Octets}
    (h : t.replaceFile refusals here mask p octets = (.ok (), u)) :
    ∃ above name, t.Replaced u here mask p octets above name := by
  unfold replaceFile at h
  simp only at h
  split at h
  · cases h
  · next made w hcreated =>
    split at h
    · next v hcomplete =>
      cases h
      cases hallow : allow refusals .create with
      | error fault =>
        rw [hallow] at hcreated
        cases hcreated
      | ok _ =>
        rw [hallow] at hcreated
        obtain ⟨hfree, hw⟩ := createNew_withFile hcreated
        obtain ⟨x, hx, hmove⟩ := complete_eq_ok hw hcomplete
        exact replaced_of_moveFile hfree hx hmove
    · cases h

/-- What does not end with a separator is not cut into pieces the last of which is empty. -/
theorem getLast?_splitOn_ne {sep c : UInt8} {cs : Octets} (h : (c :: cs).getLast? ≠ some sep) :
    ((c :: cs).splitOn sep).getLast? ≠ some [] := by
  induction cs generalizing c with
  | nil =>
    have hc : ¬ c = sep := by simpa using h
    simp [List.splitOn_cons_eq_if_modifyHead, List.splitOn_nil, hc]
  | cons d ds ih =>
    have hrest := ih (c := d) (by simpa [List.getLast?_cons_cons] using h)
    rw [List.splitOn_cons_eq_if_modifyHead]
    cases hpieces : (d :: ds).splitOn sep with
    | nil => exact absurd hpieces (List.splitOn_ne_nil _ _)
    | cons piece pieces =>
      rw [hpieces] at hrest
      split
      · simpa [List.getLast?_cons_cons] using hrest
      · cases pieces with
        | nil => simp
        | cons piece' pieces => simpa [List.getLast?_cons_cons] using hrest

/-- A path without a slash at its end is cut into its named segments. -/
theorem segments_of_slashless (hslash : p.spelling.getLast? ≠ some Path.slash) :
    p.segments = namedSegments p := by
  have hlast : p.segments.getLast? ≠ some [] := by
    unfold Path.segments Path.isAbsolute
    cases hspelling : p.spelling with
    | nil => simp
    | cons c cs =>
      rw [hspelling] at hslash
      by_cases hc : c = Path.slash
      · cases cs with
        | nil => simp [hc] at hslash
        | cons d ds =>
          simpa [hc] using getLast?_splitOn_ne (by simpa [List.getLast?_cons_cons] using hslash)
      · simpa [hc] using getLast?_splitOn_ne hslash
  unfold namedSegments
  cases hsegments : p.segments.reverse with
  | nil => simpa using hsegments
  | cons s ss =>
    have hs : ¬ s = [] := by
      rintro rfl
      exact hlast (by rw [← List.head?_reverse, hsegments]; rfl)
    rw [List.dropWhile_cons_of_neg (by simpa using hs), ← hsegments, List.reverse_reverse]

/-- A place with a name has the last of the named segments for its name. -/
theorem namedSegments_of_place {above : Location} {name : Octets}
    (h : t.place here p = .ok (above, name)) (hname : IsName name) :
    namedSegments p = (namedSegments p).dropLast ++ [name] := by
  obtain ⟨-, -, -, hlast⟩ := place_eq_ok h
  cases hn : (namedSegments p).getLast? with
  | none =>
    rw [hn] at hlast
    rw [hlast] at hname
    exact absurd hname.1 (by simp [Path.isTrivial])
  | some last =>
    obtain ⟨front, hfront⟩ := List.getLast?_eq_some_iff.1 hn
    rw [hn] at hlast
    simp [hfront, hlast]

/-- A place that a path names is on the trail of the path. -/
theorem place_mem_trailOf {above : Location} {name : Octets}
    (h : t.place here p = .ok (above, name)) (hname : IsName name) :
    above ++ [name] ∈ t.trailOf here p := by
  obtain ⟨-, hwalk, hdir, -⟩ := place_eq_ok h
  obtain ⟨slashes, hslashes⟩ := segments_eq p
  obtain ⟨k, hk⟩ := walk_append hwalk
  have hlook : above ++ [name] ∈ t.looked above name := by simp [looked, hdir, hname]
  rw [trailOf, hslashes, namedSegments_of_place h hname, List.append_assoc]
  exact (hk ([name] ++ slashes) (by simp)).2 hdir (mem_trail_of_mem_looked hlook)

/-- The path then leads to the new file, unless a link was replaced. -/
theorem Replaced.node_eq {mask : Nat} {octets : Octets} {above : Location} {name : Octets}
    (h : t.Replaced u here mask p octets above name)
    (hlink : ∀ target, t.get? (above ++ [name]) ≠ some (.link target)) :
    u.node here p = .ok (.file octets ((t.mode? here p).getD (newMode mask))) := by
  obtain ⟨hcheck, hwalk, hdir, -⟩ := place_eq_ok h.place_eq
  obtain ⟨hwalk', hdir'⟩ := walk_to_directory_of_agree h.withFile.elsewhere hwalk hdir
    h.not_directory hlink
  obtain ⟨k, hk⟩ := walk_append hwalk'
  have hname : u.walk true k above [name] = .ok (above ++ [name]) := by
    have hgoes : u.onward k above name [] = .goes k (above ++ [name]) [] := by
      rw [onward_of_name k [] hdir' h.isName, h.withFile.at_location]
    rw [walk_of_goes hgoes, walk_nil]
  refine node_eq_ok_iff.2 ⟨hcheck, above ++ [name], ?_, h.withFile.at_location⟩
  rw [segments_of_slashless h.slashless, namedSegments_of_place h.place_eq h.isName,
    (hk [name] (by simp)).1, hname]

/-- The new file is what is then read at the path. -/
theorem Replaced.read_eq {mask : Nat} {octets : Octets} {above : Location} {name : Octets}
    (h : t.Replaced u here mask p octets above name)
    (hlink : ∀ target, t.get? (above ++ [name]) ≠ some (.link target)) :
    u.read here p = .ok octets ∧ u.mode? here p = some ((t.mode? here p).getD (newMode mask)) := by
  have hnode := h.node_eq hlink
  refine ⟨?_, ?_⟩
  · unfold read
    rw [hnode]
    rfl
  · simp only [mode?, hnode]

end FileTree
end CjsxConversion
