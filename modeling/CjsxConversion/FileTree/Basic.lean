import CjsxConversion.IoFault
import CjsxConversion.Path

/-!
# File trees

A file tree says what stands at each location. A location is the list of names on the way down
from the root, where there always is a directory.

`get?` is what stands at a location; each operation is known by what it does to it.

Main results:
* `get?_put`, `get?_remove`: one location is changed, all others are as they were.
* `remove_put`: what was put at a free location is gone without a trace when it is removed.
-/

namespace CjsxConversion

/-- The names on the way down from the root. -/
abbrev Location := List Octets

/-- What can stand at a location: a directory, a file with its permission bits, a link, a file that
is always empty whatever is written to it, or one that has no room for anything. -/
inductive FileNode where
  | directory
  | file (data : Octets) (mode : Nat)
  | link (target : Path)
  | sink
  | full
  deriving DecidableEq, Repr

structure FileTree where
  entries : List (Location × FileNode)
  deriving DecidableEq, Repr

namespace FileTree

/-- Nothing but the root. -/
def empty : FileTree := ⟨[]⟩

instance : Inhabited FileTree := ⟨empty⟩

def get? (t : FileTree) (l : Location) : Option FileNode :=
  if l = [] then some .directory else (t.entries.find? fun e => e.1 = l).map (·.2)

/-- Takes away what stands at a location. -/
def remove (t : FileTree) (l : Location) : FileTree :=
  ⟨t.entries.filter fun e => ¬ e.1 = l⟩

def put (t : FileTree) (l : Location) (n : FileNode) : FileTree :=
  ⟨(t.remove l).entries ++ [(l, n)]⟩

def isDirectory (t : FileTree) (l : Location) : Bool :=
  t.get? l = some .directory

/-- The locations directly below a location. -/
def children (t : FileTree) (l : Location) : List Location :=
  (t.entries.map (·.1)).filter fun k => k ≠ [] ∧ k.dropLast = l

theorem find?_filter_ne {es : List (Location × FileNode)} {l q : Location} :
    (es.filter fun e => ¬ e.1 = l).find? (fun e => e.1 = q)
      = if q = l then none else es.find? (fun e => e.1 = q) := by
  induction es with
  | nil => simp
  | cons e es ih =>
    by_cases hl : e.1 = l
    · by_cases hq : q = l
      · simp [hq] at ih ⊢
      · have hlq : ¬ l = q := fun h => hq h.symm
        simpa [hl, hq, hlq, List.find?_cons] using ih
    · by_cases hq : e.1 = q
      · simp [hq, show ¬ q = l from fun h => hl (hq.trans h)]
      · simpa [hl, hq] using ih

/-- One location is emptied, all others are as they were. -/
theorem get?_remove (t : FileTree) {l : Location} (h : l ≠ []) (q : Location) :
    (t.remove l).get? q = if q = l then none else t.get? q := by
  unfold get? remove
  by_cases hq : q = []
  · simp [hq, h.symm]
  · simp only [hq, if_false, find?_filter_ne]
    split <;> rfl

/-- One location is filled, all others are as they were. -/
theorem get?_put (t : FileTree) {l : Location} (h : l ≠ []) (n : FileNode) (q : Location) :
    (t.put l n).get? q = if q = l then some n else t.get? q := by
  unfold put get? remove
  by_cases hq : q = []
  · simp [hq, h.symm]
  · simp only [hq, if_false, List.find?_append, find?_filter_ne]
    by_cases hl : q = l
    · simp [hl]
    · have hlq : ¬ l = q := fun h => hl h.symm
      simp [hl, hlq]

/-- What was put at a free location is gone without a trace when it is removed. -/
theorem remove_put {t : FileTree} {l : Location} (h : t.get? l = none) (n : FileNode) :
    (t.put l n).remove l = t := by
  have hl : l ≠ [] := fun e => by simp [get?, e] at h
  have hfree : ∀ e ∈ t.entries, ¬ e.1 = l := by
    simpa [get?, hl] using h
  have hkeep : t.entries.filter (fun e => ¬ e.1 = l) = t.entries :=
    List.filter_eq_self.2 fun e he => by simpa using hfree e he
  cases t
  simp only [put, remove] at hkeep ⊢
  simp only [List.filter_append, hkeep]
  simp

end FileTree
end CjsxConversion
