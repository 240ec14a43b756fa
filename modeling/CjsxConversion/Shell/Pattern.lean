import CjsxConversion.FileTree.Files
import CjsxConversion.Text.Narrow

/-!
# Patterns of the shell

A pattern matches a whole text. A star matches any stretch, a question mark any character, and a set
between brackets one of its characters. What is quoted stands for itself.

A pattern may also stand for the names of files. A name that begins with a dot is matched only by a
pattern that begins with one.
-/

namespace CjsxConversion
namespace Shell

/-- A character with the mark whether it is quoted. -/
abbrev Letter := Char × Bool

inductive SetMember where
  | range (low high : Char)
  | ofClass (name : Narrow)
  deriving DecidableEq, Repr

inductive PatternPart where
  | char (c : Char)
  | one
  | many
  | set (negated : Bool) (members : List SetMember)
  deriving DecidableEq, Repr

/-- The letters of a set behind its first bracket, up to the last one: the members and what
follows. The bound is the number of letters. -/
def readMembers : Nat → Bool → List Letter → Option (List SetMember × List Letter)
  | 0, _, _ => none
  | _ + 1, _, [] => none
  | n + 1, isFirst, (c, q) :: rest =>
    if c = ']' ∧ ¬ q ∧ ¬ isFirst then some ([], rest)
    else
      let name := (rest.drop 1).takeWhile fun l => Narrow.isLetter l.1
      if c = '[' ∧ ¬ q ∧ rest.head? = some (':', false)
          ∧ (rest.drop (name.length + 1)).take 2 = [(':', false), (']', false)] then
        (readMembers n false (rest.drop (name.length + 3))).map fun r =>
          (.ofClass (name.map (·.1)) :: r.1, r.2)
      else
        let (low, rest) := match c, q, rest with
          | '\\', false, (d, _) :: rest => (d, rest)
          | c, _, rest => (c, rest)
        match rest with
        | ('-', false) :: (d, r) :: behind =>
          if d = ']' ∧ ¬ r then
            (readMembers n false rest).map fun r => (.range low low :: r.1, r.2)
          else
            let (high, behind) := match d, r, behind with
              | '\\', false, (e, _) :: behind => (e, behind)
              | d, _, behind => (d, behind)
            (readMembers n false behind).map fun r => (.range low high :: r.1, r.2)
        | rest => (readMembers n false rest).map fun r => (.range low low :: r.1, r.2)

/-- The pattern that letters spell. The bound is their number. -/
def readPattern : Nat → List Letter → List PatternPart
  | 0, _ => []
  | _ + 1, [] => []
  | n + 1, (c, true) :: rest => .char c :: readPattern n rest
  | n + 1, (c, false) :: rest =>
    match c, rest with
    | '*', rest => .many :: readPattern n rest
    | '?', rest => .one :: readPattern n rest
    | '\\', (d, _) :: rest => .char d :: readPattern n rest
    | '[', rest =>
      let (negated, inner) := match rest with
        | ('!', false) :: inner => (true, inner)
        | inner => (false, inner)
      match readMembers (inner.length + 1) true inner with
      | some (members, behind) => .set negated members :: readPattern n behind
      | none => .char '[' :: readPattern n rest
    | c, rest => .char c :: readPattern n rest

def patternOf (ls : List Letter) : List PatternPart := readPattern (ls.length + 1) ls

def SetMember.mem (c : Char) : SetMember → Bool
  | .range low high => low ≤ c && c ≤ high
  | .ofClass name => (Narrow.class? name).any fun f => f c

def matchesText : List PatternPart → Narrow → Bool
  | [], cs => cs.isEmpty
  | .char c :: ps, cs =>
    match cs with
    | d :: rest => c = d && matchesText ps rest
    | [] => false
  | .one :: ps, cs =>
    match cs with
    | _ :: rest => matchesText ps rest
    | [] => false
  | .set negated members :: ps, cs =>
    match cs with
    | d :: rest => ((members.any (SetMember.mem d)) != negated) && matchesText ps rest
    | [] => false
  | .many :: ps, cs => ps.isEmpty || somewhere (matchesText ps) cs
where
  /-- Whether an end of a text passes a test. -/
  somewhere (test : Narrow → Bool) : Narrow → Bool
    | [] => test []
    | c :: rest => test (c :: rest) || somewhere test rest

/-- Whether letters hold something that is no plain character of a pattern. -/
def isPattern (ls : List Letter) : Bool :=
  ls.any fun l => !l.2 && (l.1 = '*' || l.1 = '?' || l.1 = '[')

/-! ### Files -/

/-- The letters between slashes. -/
def splitLetters : List Letter → List (List Letter)
  | [] => [[]]
  | l :: ls =>
    if l.1 = '/' then [] :: splitLetters ls
    else
      match splitLetters ls with
      | [] => [[l]]
      | p :: ps => (l :: p) :: ps

/-- The names of a directory, with those that lead to itself and to the one above it. -/
def namesIn (t : FileTree) (here : Location) (dir : Narrow) : List Narrow :=
  let path : Path := ⟨Narrow.toOctets (if dir = [] then ['.'] else dir)⟩
  match t.locate true here path with
  | .error _ => []
  | .ok l =>
    if t.get? l = some .directory then
      ['.'] :: ['.', '.'] :: (t.children l).map fun k => Narrow.ofOctets (k.getLast?.getD [])
    else []

/-- What letters stand for without being a pattern. -/
def plainLetters : List Letter → Narrow
  | [] => []
  | (c, q) :: rest =>
    if c = '\\' ∧ ¬ q then
      match rest with
      | (d, _) :: rest => d :: plainLetters rest
      | [] => ['\\']
    else c :: plainLetters rest

/-- The paths that begin with a given one and go on by patterns. -/
def pathsFrom (t : FileTree) (here : Location) (start : Narrow) :
    List (List Letter) → List Narrow
  | [] => []
  | [p] =>
    if isPattern p then (namesOf p).map (start ++ ·)
    else
      let path := start ++ plainLetters p
      if (t.locate false here ⟨Narrow.toOctets path⟩).toOption.any fun l => (t.get? l).isSome then
        [path]
      else []
  | p :: q :: ps =>
    if isPattern p then
      (namesOf p).flatMap fun name => pathsFrom t here (start ++ name ++ ['/']) (q :: ps)
    else pathsFrom t here (start ++ plainLetters p ++ ['/']) (q :: ps)
where
  /-- The names that a pattern matches. -/
  namesOf (p : List Letter) : List Narrow :=
    let pattern := patternOf p
    let dotted : Bool := pattern.head? = some (.char '.')
    (namesIn t here start).filter fun name =>
      (dotted || name.head? ≠ some '.') && matchesText pattern name

/-- The paths that a pattern stands for, in the order of their octets. -/
def pathsOf (t : FileTree) (here : Location) (ls : List Letter) : List Narrow :=
  (pathsFrom t here [] (splitLetters ls)).mergeSort Narrow.le

end Shell
end CjsxConversion
