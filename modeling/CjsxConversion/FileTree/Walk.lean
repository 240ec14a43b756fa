import CjsxConversion.FileTree.Basic

/-!
# Walking a path

The way from a location along a path. Two dots lead up from where the walk really is, which is not
always where the path seems to be, since links are followed. No walk follows more than forty links.

The segments of the path are taken one by one; the segments of a link are put in
front of those that are left. Either a segment less is left, or a link less may be followed.

Main results:
* `walk_nil`, `walk_segment`: where a walk ends without a segment, and how it goes on with one.
-/

namespace CjsxConversion
namespace FileTree

/-- How many links a walk may follow. -/
def linkLimit : Nat := 40

/-- How many octets a name may have. -/
def nameLimit : Nat := 255

/-- Where a path starts: at the root if it is absolute, and at a given location otherwise. -/
def startOf (here : Location) (p : Path) : Location :=
  if p.isAbsolute then [] else here

/-- Where a walk ends, given how it goes on when it has followed a link. The last name need not
exist, all others must be directories. A link that is the last name is followed only if asked for.
-/
def walkBy (t : FileTree) (follow : Bool)
    (onLink : Location → List Octets → Except OsFault Location) (here : Location) :
    List Octets → Except OsFault Location
  | [] => .ok here
  | s :: rest =>
    match t.get? here with
    | none => .error .noEntry
    | some .directory =>
      if Path.isTrivial s then t.walkBy follow onLink here rest
      else if s = [Path.dot, Path.dot] then t.walkBy follow onLink here.dropLast rest
      else if nameLimit < s.length then .error .nameTooLong
      else
        match t.get? (here ++ [s]) with
        | some (.link target) =>
          if rest = [] ∧ ¬ follow then .ok (here ++ [s])
          else onLink (startOf here target) (target.segments ++ rest)
        | some _ => t.walkBy follow onLink (here ++ [s]) rest
        | none => if rest = [] then .ok (here ++ [s]) else .error .noEntry
    | some _ => .error .notDirectory

/-- Where a walk ends that may follow a number of links. -/
def walk (t : FileTree) (follow : Bool) : Nat → Location → List Octets → Except OsFault Location
  | 0 => t.walkBy follow fun _ _ => .error .tooManyLinks
  | n + 1 => t.walkBy follow (t.walk follow n)

@[simp] theorem walk_nil (t : FileTree) (follow : Bool) (links : Nat) (here : Location) :
    t.walk follow links here [] = .ok here := by
  cases links <;> rfl

/-- A walk goes on segment by segment, and with a link less where it follows one. -/
theorem walk_segment (t : FileTree) (follow : Bool) (links : Nat) (here : Location) (s : Octets)
    (rest : List Octets) :
    t.walk follow links here (s :: rest) =
      match t.get? here with
      | none => .error .noEntry
      | some .directory =>
        if Path.isTrivial s then t.walk follow links here rest
        else if s = [Path.dot, Path.dot] then t.walk follow links here.dropLast rest
        else if nameLimit < s.length then .error .nameTooLong
        else
          match t.get? (here ++ [s]) with
          | some (.link target) =>
            if rest = [] ∧ ¬ follow then .ok (here ++ [s])
            else
              match links with
              | 0 => .error .tooManyLinks
              | n + 1 => t.walk follow n (startOf here target) (target.segments ++ rest)
          | some _ => t.walk follow links (here ++ [s]) rest
          | none => if rest = [] then .ok (here ++ [s]) else .error .noEntry
      | some _ => .error .notDirectory := by
  cases links <;> rfl

/-- How many octets a path may have, with the one that ends it. -/
def pathLimit : Nat := 4096

/-- Where a path leads, starting at a location if it is relative. -/
def locate (t : FileTree) (follow : Bool) (here : Location) (p : Path) : Except OsFault Location :=
  if p.spelling = [] then .error .noEntry
  else if pathLimit ≤ p.spelling.length then .error .nameTooLong
  else t.walk follow linkLimit (startOf here p) p.segments

def withoutSlashes (p : Path) : Path :=
  ⟨(p.spelling.reverse.dropWhile (· = Path.slash)).reverse⟩

/-- Where a path leads at which a file may be made. Nothing but a directory has a slash behind its
name, and none is made. -/
def locateMade (t : FileTree) (follow : Bool) (here : Location) (p : Path) :
    Except OsFault Location :=
  if p.spelling.getLast? = some Path.slash then do
    let _ ← t.locate false here (withoutSlashes p)
    .error .isDirectory
  else t.locate follow here p

/-- Where a path leads, with the fault of a path that has a NUL octet. -/
def find (t : FileTree) (follow : Bool) (here : Location) (p : Path) : Except IoFault Location :=
  if p.spelling.contains 0 then .error .nulInPath
  else (t.locate follow here p).mapError OsFault.toIoFault

/-- Where a path leads at which a file may be made. A link there is not followed. -/
def findFree (t : FileTree) (here : Location) (p : Path) : Except IoFault Location :=
  if p.spelling.contains 0 then .error .nulInPath
  else (t.locateMade false here p).mapError OsFault.toIoFault

/-- What a path leads to, following links. -/
def node (t : FileTree) (here : Location) (p : Path) : Except IoFault FileNode := do
  let l ← t.find true here p
  match t.get? l with
  | some n => return n
  | none => .error OsFault.noEntry.toIoFault

end FileTree
end CjsxConversion
