import CjsxConversion.Text.Utf8

/-!
# Paths

A path is spelled by octets. Slashes cut it into segments; a segment that is empty or a single dot
is trivial, except for a dot at the very front. The other segments are its components, and paths
with the same components are the same path, however they are spelled.

`join` puts a path behind another one, `parent` cuts the last component off,
`fileName?` is the last component if it is a name, and `withFileName` replaces it. None of them
looks at the file system, and the part of the spelling that is kept is kept as it is.

Main results:
* `join_of_isAbsolute`: an absolute path does not care what it is put behind.
-/

namespace CjsxConversion

/-- A path as it is spelled. -/
structure Path where
  spelling : Octets
  deriving DecidableEq, Repr, Inhabited

/-- A part of a path. -/
inductive Component where
  | root
  | here
  | up
  | name (n : Octets)
  deriving DecidableEq, Repr

namespace Path

def slash : UInt8 := 47

def dot : UInt8 := 46

/-- The path that a text spells. -/
def ofString (s : String) : Path := ⟨Utf8.encode s⟩

def text (p : Path) : String := Utf8.decodeLossy p.spelling

/-- Whether the path begins at the root. -/
def isAbsolute (p : Path) : Bool :=
  p.spelling.head? = some slash

/-- The segments after the root, or all of them if the path is relative. -/
def segments (p : Path) : List Octets :=
  if p.isAbsolute then (p.spelling.drop 1).splitOn slash
  else if p.spelling = [] then [] else p.spelling.splitOn slash

/-- Whether a segment that is not the first of a relative path says nothing. -/
def isTrivial (s : Octets) : Bool :=
  s = [] || s = [dot]

/-- The component that a segment stands for. -/
def componentOf (s : Octets) : Component :=
  if s = [dot] then .here else if s = [dot, dot] then .up else .name s

/-- The segments without the trivial ones at the end. -/
def trimSegments (p : Path) (ss : List Octets) : List Octets :=
  if p.isAbsolute then (ss.reverse.dropWhile isTrivial).reverse
  else
    match ss with
    | [] => []
    | s :: rest => s :: (rest.reverse.dropWhile isTrivial).reverse

def components (p : Path) : List Component :=
  if p.isAbsolute then
    .root :: (p.segments.filter fun s => !isTrivial s).map componentOf
  else
    match p.segments with
    | [] => []
    | s :: rest => componentOf s :: (rest.filter fun s => !isTrivial s).map componentOf

/-- Whether two paths have the same components. -/
def same (p q : Path) : Bool :=
  p.components = q.components

/-- Segments put together again, behind the root if there is one. -/
def ofSegments (absolute : Bool) (ss : List Octets) : Path :=
  let body := List.intercalate [slash] ss
  ⟨if absolute then slash :: body else body⟩

/-- The path without its last component, unless it has none or is the root. -/
def parent (p : Path) : Option Path :=
  match p.components.getLast? with
  | none | some .root => none
  | some _ =>
    some (ofSegments p.isAbsolute (p.trimSegments (p.trimSegments p.segments).dropLast))

/-- The last component, if it is a name. -/
def fileName? (p : Path) : Option Octets :=
  match p.components.getLast? with
  | some (.name n) => some n
  | _ => none

/-- A path put behind another one. -/
def join (base p : Path) : Path :=
  if p.isAbsolute then p
  else
    match base.spelling.getLast? with
    | none => p
    | some c => if c = slash then ⟨base.spelling ++ p.spelling⟩
      else ⟨base.spelling ++ slash :: p.spelling⟩

/-- The path with another file name; a path without one is extended. -/
def withFileName (p : Path) (n : Octets) : Path :=
  match p.fileName? with
  | none => p.join ⟨n⟩
  | some _ => (p.parent.getD p).join ⟨n⟩

/-- What follows the last dot of the file name, if something stands before that dot. -/
def extension? (p : Path) : Option Octets :=
  p.fileName?.bind fun n =>
    let after := (n.reverse.takeWhile (· ≠ dot)).reverse
    let before := n.take (n.length - after.length - 1)
    if dot ∈ n ∧ before ≠ [] then some after else none

/-- The path itself and the paths above it, nearest first. The bound is the number of components. -/
def ancestorsWithin : Nat → Path → List Path
  | 0, p => [p]
  | n + 1, p =>
    match p.parent with
    | none => [p]
    | some q => p :: ancestorsWithin n q

/-- The path itself and the paths above it, nearest first. -/
def ancestors (p : Path) : List Path :=
  ancestorsWithin p.components.length p

/-- An absolute path does not care what it is put behind. -/
theorem join_of_isAbsolute (base p : Path) (h : p.isAbsolute = true) : base.join p = p := by
  simp [join, h]

end Path
end CjsxConversion
