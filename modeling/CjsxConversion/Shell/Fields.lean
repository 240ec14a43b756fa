import CjsxConversion.Shell.Pattern

/-!
# Fields

What a word has become is a sequence of stretches. Some of them may be split into fields: where a
separator stands, or only between parameters. White space among the separators stands for one
separator, however much there is of it; any other separator stands for itself.

`Splitting` goes through the cells of the stretches and keeps the field that has begun. If only so
many fields are wanted, the last one takes all that is left, without the separators at its end.
-/

namespace CjsxConversion
namespace Shell

/-- What stands at a place of a word: a character, a quotation mark, or the end of a parameter
behind which another one follows. -/
inductive Cell where
  | letter (c : Char) (quoted : Bool)
  | mark
  | gap
  deriving DecidableEq, Repr

/-- Where a stretch may be split. -/
inductive Zone where
  | whole
  | fields
  | params
  deriving DecidableEq, Repr

/-- A stretch of a word. -/
structure Stretch where
  zone : Zone
  cells : List Cell
  deriving Repr

def lettersOf (cells : List Cell) : List Letter :=
  cells.filterMap fun cell =>
    match cell with
    | .letter c q => some (c, q)
    | _ => none

def textOf (cells : List Cell) : Narrow := (lettersOf cells).map (·.1)

def textOfAll (stretches : List Stretch) : Narrow := textOf (stretches.flatMap (·.cells))

/-- A splitting that has begun. Fields and cells stand with the latest first. Without a number
wanted there are as many fields as come, and without a length kept the field that has begun is kept
whole. -/
structure Splitting where
  complete : List (List Cell) := []
  field : List Cell := []
  space : Bool := false
  wanted : Option Nat := none
  kept : Option Nat := none
  ofParams : Bool := false

namespace Splitting

/-- Whether a cell separates fields, and whether it counts as white space. -/
def separates (separators : Narrow) (cell : Cell) : Bool × Bool :=
  match cell with
  | .gap => (true, true)
  | .mark => (false, false)
  | .letter c _ =>
    let found := separators.contains c
    (found, found && (c = ' ' || c = '\t' || c = '\n'))

/-- Takes a cell into the last field. -/
def takeLast (found isSpace : Bool) (cell : Cell) (s : Splitting) : Splitting :=
  let t := { s with field := cell :: s.field }
  if isSpace then { t with kept := some (s.kept.getD s.field.length) }
  else { t with kept := if found && s.space then s.kept else none, space := false }

/-- Takes a cell at which no field has been ended by white space just now. -/
def takeCell (fixed found isSpace : Bool) (cell : Cell) (s : Splitting) : Splitting :=
  if !found then { s with field := cell :: s.field, space := false }
  else
    let s := if fixed then s else { s with space := isSpace }
    if s.field = [] ∧ s.space then { s with space := false }
    else
      match s.wanted with
      | some (n + 1) =>
        if n = 0 then
          { s with wanted := some 0, kept := some s.field.length, field := cell :: s.field }
        else { s with wanted := some n, complete := s.field.reverse :: s.complete, field := [] }
      | _ => { s with complete := s.field.reverse :: s.complete, field := [] }

/-- Takes a cell of a stretch that may be split. -/
def take (fixed : Bool) (separators : Narrow) (s : Splitting) (cell : Cell) : Splitting :=
  let (found, isSpace) := separates separators cell
  if s.wanted = some 0 then takeLast found isSpace cell s
  else if s.space then
    if isSpace then { s with field := [] }
    else if found then { s with field := [], space := false }
    else takeCell fixed false false cell { s with field := [] }
  else takeCell fixed found isSpace cell s

def takeStretch (separators : Narrow) (s : Splitting) (t : Stretch) : Splitting :=
  match t.zone with
  | .whole => { s with field := t.cells.reverse ++ s.field }
  | .fields =>
    t.cells.foldl (take s.ofParams separators) { s with ofParams := false, space := false }
  | .params => t.cells.foldl (take true []) { s with ofParams := true, space := false }

/-- The fields of a splitting that is complete. -/
def finish (s : Splitting) : List (List Cell) :=
  let field := match s.kept with
    | some n => s.field.reverse.take n
    | none => s.field.reverse
  (if field = [] ∧ ¬ s.ofParams then s.complete else field :: s.complete).reverse

end Splitting

/-- The fields of stretches, or so many of them at most. -/
def splitFields (separators : Narrow) (wanted : Option Nat) (stretches : List Stretch) :
    List (List Cell) :=
  (stretches.foldl (Splitting.takeStretch separators) { wanted }).finish

end Shell
end CjsxConversion
