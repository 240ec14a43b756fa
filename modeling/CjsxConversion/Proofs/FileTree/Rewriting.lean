import CjsxConversion.Proofs.FileTree.FreeNames

/-!
# Replacing a file once more

A file that was replaced can be replaced again with the same content. The first time, the file may
have been new; now it is there, and what replaces it is given its permission bits. Beside it, the
same name is free as before, since nothing else has changed.

`scratchName` and `scratchPath` are the names and paths that are tried for the file that
is made beside the destination, and `scratchOf` is the one that is taken.

Main results:
* `WithFile.find_eq`, `WithFile.place_eq`: a file that is put elsewhere is in nobody's way.
* `WithFile.createNew_again`: the same name beside the destination is free once more.
* `replaceFile_eq_ok_iff`: replacing a file is making one beside it and completing that one.
* `replaceFile_again`: replacing a file once more leaves everything as it is.
-/

namespace CjsxConversion
namespace FileTree

variable {t u v : FileTree} {links : Nat} {here l dest : Location} {ss : List Octets} {p q : Path}
  {data octets : Octets} {mode mode' : Nat} {refusals : Refusals} {mask : Nat}

/-! ### A file that is put into a tree without links -/

/-- Without links, nothing but its end is on the trail of a walk that is not a directory. -/
theorem Linkless.not_mem_trail (hlinks : t.Linkless) (hdest : t.get? dest ≠ some .directory)
    (h : t.walk true links here ss = .ok l) (hl : l ≠ dest) : dest ∉ t.trail links here ss := by
  intro hmem
  rcases passed_of_walk h hmem with rfl | hpassed | ⟨target, hpassed⟩
  · exact hl rfl
  · exact hdest hpassed
  · exact hlinks dest target hpassed

theorem WithFile.linkless (hu : t.WithFile u dest data mode) (hlinks : t.Linkless) :
    u.Linkless := by
  intro q target hq
  by_cases hdest : q = dest
  · rw [hdest, hu.at_location] at hq
    cases hq
  · rw [hu.elsewhere q hdest] at hq
    exact hlinks q target hq

/-- A file that is put elsewhere does not change where a path leads. -/
theorem WithFile.agree_on_trail (hu : t.WithFile u dest data mode) (hlinks : t.Linkless)
    (hdest : t.get? dest ≠ some .directory) (h : t.find true here p = .ok l) (hl : l ≠ dest) :
    ∀ q ∈ t.trailOf here p, u.get? q = t.get? q := by
  obtain ⟨-, hwalk⟩ := find_eq_ok_iff.1 h
  have hout := hlinks.not_mem_trail hdest hwalk hl
  exact fun q hq => hu.elsewhere q fun e => hout (e ▸ hq)

theorem WithFile.find_eq (hu : t.WithFile u dest data mode) (hlinks : t.Linkless)
    (hdest : t.get? dest ≠ some .directory) (h : t.find true here p = .ok l) (hl : l ≠ dest) :
    u.find true here p = .ok l ∧ u.get? l = t.get? l := by
  obtain ⟨hcheck, hwalk⟩ := find_eq_ok_iff.1 h
  have hsame := walk_of_agree (hu.agree_on_trail hlinks hdest h hl)
  exact ⟨find_eq_ok_iff.2 ⟨hcheck, hsame.trans hwalk⟩, hu.elsewhere l hl⟩

/-- Without links, a path that ends with a name leads to that name. -/
theorem Linkless.exists_end (hlinks : t.Linkless) {front : List Component} {n : Octets}
    (hp : p.components = front ++ [.name n]) (h : t.find true here p = .ok l) :
    ∃ above, l = above ++ [n] := by
  obtain ⟨-, hwalk⟩ := find_eq_ok_iff.1 h
  have hn : Path.IsFileName n := Path.isFileName_of_mem (p := p) (by rw [hp]; simp)
  exact exists_end_of_walk hlinks hwalk (Path.getLast?_filter_segments hp) hn.nontrivial hn.not_up

/-- The place of a path that ends with a name has that name. -/
theorem name_of_place {front : List Component} {above : Location} {n name : Octets}
    (hp : p.components = front ++ [.name n])
    (hslash : p.spelling.getLast? ≠ some Path.slash) (hname : IsName name)
    (h : t.place here p = .ok (above, name)) : name = n := by
  have hlast := Path.getLast?_filter_segments hp
  rw [segments_of_slashless hslash, namedSegments_of_place h hname, List.filter_append] at hlast
  simpa [hname.1] using hlast

/-! ### The file beside the destination -/

/-- The names that a file beside a destination is given. -/
def scratchName (n : Nat) : Octets := Utf8.encode ".cjsx-to-jsx-" ++ sixDigits n ++ []

/-- Where a file is made beside a destination. -/
def scratchPath (p : Path) (n : Nat) : Path := (besideOf p).join ⟨scratchName n⟩

/-- The first path beside a destination at which nothing is. -/
def scratchOf (t : FileTree) (here : Location) (p : Path) : Path :=
  t.freePath here (besideOf p) (Utf8.encode ".cjsx-to-jsx-") []

theorem scratchOf_eq (t : FileTree) (here : Location) (p : Path) :
    t.scratchOf here p = t.freePathFrom here (scratchPath p) t.entries.length 0 := rfl

theorem encode_scratch : Utf8.encode ".cjsx-to-jsx-" =
    [46, 99, 106, 115, 120, 45, 116, 111, 45, 106, 115, 120, 45] := by
  decide

theorem scratchName_injective : Function.Injective scratchName := by
  intro m n h
  unfold scratchName at h
  rw [List.append_nil, List.append_nil] at h
  exact sixDigits_injective (List.append_cancel_left h)

theorem isFileName_scratchName (n : Nat) : Path.IsFileName (scratchName n) := by
  have hlong : 13 ≤ (scratchName n).length := by simp [scratchName, encode_scratch]
  refine ⟨?_, ?_, ?_⟩
  · intro hslash
    rw [scratchName, List.append_nil, encode_scratch, List.mem_append] at hslash
    rcases hslash with hfront | hdigits
    · exact absurd hfront (by decide)
    · have hrange := mem_sixDigits hdigits
      have hvalue : Path.slash.toNat = 47 := rfl
      omega
  · simp only [Path.isTrivial, Bool.or_eq_false_iff, decide_eq_false_iff_not]
    exact ⟨fun h => by simp [h] at hlong, fun h => by simp [h] at hlong⟩
  · intro h
    simp [h] at hlong

/-- The path of a file beside a destination leads to its name. -/
theorem exists_end_of_scratchPath (hlinks : t.Linkless) {n : Nat}
    (h : t.find true here (scratchPath p n) = .ok l) : ∃ above, l = above ++ [scratchName n] := by
  obtain ⟨-, hwalk⟩ := find_eq_ok_iff.1 h
  obtain ⟨front, hsegments⟩ := Path.segments_join_name (besideOf p) (isFileName_scratchName n)
  have hname := isFileName_scratchName n
  refine exists_end_of_walk hlinks hwalk ?_ hname.nontrivial hname.not_up
  rw [scratchPath, hsegments, List.filter_append]
  simp [hname.nontrivial]

/-- What making a file comes to. -/
theorem createNew_eq_ok_iff (hslash : p.spelling.getLast? ≠ some Path.slash) :
    t.createNew here p mode = .ok (l, u) ↔
      t.find false here p = .ok l ∧ t.get? l = none ∧ u = t.put l (.file [] mode) := by
  have hfind : t.findFree here p = t.find false here p := by
    simp only [findFree, find, locateMade, hslash, if_false]
  unfold createNew
  rw [hfind]
  cases t.find false here p with
  | error fault => simp [bind, Except.bind]
  | ok k =>
    cases hk : t.get? k with
    | none =>
      simp only [bind, Except.bind, hk, pure, Except.pure, Except.ok.injEq, Prod.mk.injEq]
      constructor
      · rintro ⟨rfl, rfl⟩
        exact ⟨rfl, hk, rfl⟩
      · rintro ⟨rfl, -, rfl⟩
        exact ⟨rfl, rfl⟩
    | some node =>
      simp only [bind, Except.bind, hk, reduceCtorEq, Except.ok.injEq, false_iff, not_and]
      rintro rfl hfree
      rw [hk] at hfree
      cases hfree

/-- The same name beside the destination is free once more. -/
theorem WithFile.createNew_again (hu : t.WithFile u dest data mode) (hlinks : t.Linkless)
    (hdest : t.get? dest ≠ some .directory)
    (hother : ∀ above n, dest ≠ above ++ [scratchName n])
    (h : t.createNew here (t.scratchOf here p) mode' = .ok (l, v)) :
    u.get? l = none ∧ u.createNew here (u.scratchOf here p) mode' =
      .ok (l, u.put l (.file [] mode')) := by
  have hslash : ∀ n, (scratchPath p n).spelling.getLast? ≠ some Path.slash :=
    fun n => Path.getLast?_join_name _ (isFileName_scratchName n)
  -- a path beside the destination leads to where it led before
  have hkept : ∀ n k, t.find false here (scratchPath p n) = .ok k →
      u.find false here (scratchPath p n) = .ok k ∧ u.get? k = t.get? k ∧
        ∃ above, k = above ++ [scratchName n] := by
    intro n k hk
    rw [hlinks.find_eq] at hk
    obtain ⟨above, rfl⟩ := exists_end_of_scratchPath hlinks hk
    obtain ⟨hfind, hget⟩ := hu.find_eq hlinks hdest hk fun e => hother above n e.symm
    rw [(hu.linkless hlinks).find_eq]
    exact ⟨hfind, hget, above, rfl⟩
  obtain ⟨m, -, hfound, htaken⟩ :=
    t.exists_freePathFrom here (scratchPath p) t.entries.length 0
  rw [scratchOf_eq, hfound] at h
  obtain ⟨hfind, hfree, -⟩ := (createNew_eq_ok_iff (hslash m)).1 h
  obtain ⟨hfind', hget, -⟩ := hkept m l hfind
  rw [hfree] at hget
  have hnotTaken : ¬ u.IsTaken here (scratchPath p m) := by
    rintro ⟨k, hk, hsome⟩
    rw [hfind'] at hk
    cases hk
    simp [hget] at hsome
  have htaken' : ∀ i, 0 ≤ i → i < m → u.IsTaken here (scratchPath p i) := by
    intro i hi him
    obtain ⟨k, hk, hsome⟩ := htaken i hi him
    obtain ⟨hk', hgetk, -⟩ := hkept i k hk
    exact ⟨k, hk', by rwa [hgetk]⟩
  have hbound : m ≤ u.entries.length := by
    refine le_length_of_taken scratchName_injective fun i hi => ?_
    obtain ⟨k, hk, hsome⟩ := htaken i (Nat.zero_le i) hi
    obtain ⟨-, hgetk, above, rfl⟩ := hkept i k hk
    exact ⟨above, by rwa [hgetk]⟩
  have hagain : u.scratchOf here p = scratchPath p m :=
    freePathFrom_eq htaken' hnotTaken (Nat.zero_le m) (by omega)
  rw [hagain]
  exact ⟨hget, (createNew_eq_ok_iff (hslash m)).2 ⟨hfind', hget, rfl⟩⟩

/-! ### The same result once more -/

theorem allow_eq_ok_iff {s : ReplaceStep} : allow refusals s = .ok () ↔ refusals s = .none := by
  unfold allow
  cases refusals s <;> simp

/-- A file that was completed has been written and moved. -/
theorem allowed_of_complete {made : Location} {existing : Option Nat}
    (h : t.complete refusals here made existing p octets = .ok u) :
    allow refusals .write = .ok () ∧ allow refusals .move = .ok () := by
  unfold complete at h
  cases hwrite : allow refusals .write with
  | error fault =>
    rw [hwrite] at h
    cases h
  | ok _ =>
    cases hmove : allow refusals .move with
    | error fault =>
      rw [hwrite, hmove] at h
      cases existing with
      | none => cases h
      | some bits => cases hpermit : allow refusals .permit <;> (rw [hpermit] at h; cases h)
    | ok _ => exact ⟨rfl, rfl⟩

/-- What is made in place of a file is given its permission bits. -/
theorem complete_of_allowed (t : FileTree) (made : Location) (bits : Nat)
    (hwrite : allow refusals .write = .ok ()) (hpermit : allow refusals .permit = .ok ())
    (hmove : allow refusals .move = .ok ()) :
    t.complete refusals here made (some bits) p octets =
      ((t.fill made octets).setMode made bits).moveFile here made p := by
  unfold complete
  rw [hwrite, hpermit, hmove]
  rfl

/-- A file is moved to any place that has a name and is not a directory. -/
theorem moveFile_of_place {source above : Location} {name : Octets} {n : FileNode}
    (hplace : t.place here p = .ok (above, name)) (hname : IsName name)
    (hslash : p.spelling.getLast? ≠ some Path.slash) (hn : t.get? source = some n)
    (hdest : t.get? (above ++ [name]) ≠ some .directory) :
    t.moveFile here source p = .ok ((t.remove source).put (above ++ [name]) n) := by
  obtain ⟨htrivial, hup, hlong⟩ := hname
  have hbusy : ¬ (Path.isTrivial name = true ∨ name = [Path.dot, Path.dot]) := by
    simp [htrivial, hup]
  unfold moveFile
  rw [hplace]
  simp only [bind, Except.bind, if_neg hbusy, if_neg (Nat.not_lt.2 hlong), if_neg hslash, hn,
    isDirectory, hdest, decide_false, Bool.false_eq_true, if_false]
  rfl

/-- Replacing a file is making one beside it and completing that one. -/
theorem replaceFile_eq_ok_iff :
    t.replaceFile refusals here mask p octets = (.ok (), u) ↔
      allow refusals .create = .ok () ∧ ∃ l v,
        t.createNew here (t.scratchOf here p) (newMode mask) = .ok (l, v) ∧
          v.complete refusals here l (t.mode? here p) p octets = .ok u := by
  unfold replaceFile scratchOf
  cases allow refusals .create with
  | error fault => simp [bind, Except.bind]
  | ok _ =>
    simp only [bind, Except.bind, true_and]
    cases t.createNew here (t.freePath here (besideOf p) (Utf8.encode ".cjsx-to-jsx-") [])
        (newMode mask) with
    | error fault => simp
    | ok made =>
      obtain ⟨l, v⟩ := made
      have hmade : (∃ k x, (Except.ok (l, v) : Except IoFault (Location × FileTree)) = .ok (k, x) ∧
          x.complete refusals here k (t.mode? here p) p octets = .ok u) ↔
          v.complete refusals here l (t.mode? here p) p octets = .ok u := by
        constructor
        · rintro ⟨k, x, ⟨⟩, hcomplete⟩
          exact hcomplete
        · exact fun hcomplete => ⟨l, v, rfl, hcomplete⟩
      rw [hmade]
      dsimp only
      cases v.complete refusals here l (t.mode? here p) p octets <;> simp

/-- A place that a path names is still named when a file is put where neither a directory nor a link
is. -/
theorem WithFile.place_eq (hu : t.WithFile u dest data mode) (hdest : t.get? dest ≠ some .directory)
    (hlink : ∀ target, t.get? dest ≠ some (.link target)) {above : Location} {name : Octets}
    (h : t.place here p = .ok (above, name)) : u.place here p = .ok (above, name) := by
  obtain ⟨hcheck, hwalk, hdir, hlast⟩ := place_eq_ok h
  obtain ⟨hwalk', hdir'⟩ := walk_to_directory_of_agree hu.elsewhere hwalk hdir hdest hlink
  rw [hlast]
  exact place_of_walk hcheck hwalk' hdir'

/-- Replacing a file once more, if it succeeds, puts there what is there. -/
theorem Replaced.get?_of_again {above : Location} {name : Octets}
    (h : t.Replaced u here mask p octets above name) (hlinks : t.Linkless)
    (hagain : u.replaceFile refusals here mask p octets = (.ok (), v)) (q : Location) :
    v.get? q = u.get? q := by
  obtain ⟨above', name', h'⟩ := replaceFile_of_ok hagain
  obtain ⟨-, hmode⟩ := h.read_eq (hlinks _)
  have hplace := h.withFile.place_eq h.not_directory (hlinks _) h.place_eq
  obtain ⟨rfl, rfl⟩ := Prod.mk.inj (Except.ok.inj (hplace.symm.trans h'.place_eq))
  by_cases hq : q = above ++ [name]
  · rw [hq, h'.withFile.at_location, h.withFile.at_location, hmode]
    rfl
  · exact h'.withFile.elsewhere q hq

/-- A file that was replaced can be replaced once more, and the same is there. -/
theorem replaceFile_again (hlinks : t.Linkless) (hpermit : refusals .permit = .none)
    (hother : ∀ above n, t.place here p ≠ .ok (above, scratchName n))
    (h : t.replaceFile refusals here mask p octets = (.ok (), u)) :
    ∃ v, u.replaceFile refusals here mask p octets = (.ok (), v) ∧ ∀ l, v.get? l = u.get? l := by
  obtain ⟨above, name, hreplaced⟩ := replaceFile_of_ok h
  obtain ⟨-, hmode⟩ := hreplaced.read_eq (hlinks _)
  have hu := hreplaced.withFile
  have hplace := hu.place_eq hreplaced.not_directory (hlinks _) hreplaced.place_eq
  obtain ⟨hcreate, l, w, hmade, hcomplete⟩ := replaceFile_eq_ok_iff.1 h
  obtain ⟨hwrite, hmove⟩ := allowed_of_complete hcomplete
  have hname : ∀ k n, above ++ [name] ≠ k ++ [scratchName n] := by
    intro k n heq
    obtain ⟨rfl, hlast⟩ := List.append_inj' heq rfl
    have hscratch : name = scratchName n := by simpa using hlast
    exact hother above n (hscratch ▸ hreplaced.place_eq)
  obtain ⟨hfree, hagain⟩ := hu.createNew_again (p := p) hlinks hreplaced.not_directory hname hmade
  -- what is made beside the destination stands in the way of nothing
  obtain ⟨-, hx⟩ := createNew_withFile hagain
  have hfilled : u.WithFile (((u.put l (.file [] (newMode mask))).fill l octets).setMode l
      ((t.mode? here p).getD (newMode mask))) l octets ((t.mode? here p).getD (newMode mask)) :=
    hx.fill.setMode
  have hplace' := hfilled.place_eq (by simp [hfree]) (by simp [hfree]) hplace
  have hdest : above ++ [name] ≠ l := by
    rintro rfl
    rw [hu.at_location] at hfree
    cases hfree
  have hfile := (hfilled.elsewhere _ hdest).trans hu.at_location
  have hdone := (complete_of_allowed _ l _ hwrite (allow_eq_ok_iff.2 hpermit) hmove).trans
    (moveFile_of_place hplace' hreplaced.isName hreplaced.slashless hfilled.at_location
      (by simp [hfile]))
  rw [← hmode] at hdone
  have hdone' := replaceFile_eq_ok_iff.2 ⟨hcreate, l, _, hagain, hdone⟩
  exact ⟨_, hdone', hreplaced.get?_of_again hlinks hdone'⟩

end FileTree
end CjsxConversion
