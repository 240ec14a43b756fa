import CjsxConversion.Utility.Sed.Script

/-!
# Replacing what matches

A substitution goes through the matches of a text from the left. What is put in is made of
characters and of what groups have matched, with changes of case on the way.

A change for the next character waits for it. It is given up when the change for all
characters is set, and it waits behind an empty group only once.
-/

namespace CjsxConversion
namespace Sed

/-- How the case of the next characters is changed. -/
structure CaseState where
  all : CaseChange := .off
  next : Option CaseChange := none
  waited : Bool := false
  deriving DecidableEq, Repr

namespace CaseChange

/-- A character after a change. -/
def apply : CaseChange → Char → Char
  | .upper, c | .upperOne, c => Narrow.toUpper c
  | .lower, c | .lowerOne, c => Narrow.toLower c
  | .off, c => c

end CaseChange

namespace CaseState

/-- The state after one more change. -/
def add (s : CaseState) : CaseChange → CaseState
  | .upperOne => { s with next := some .upperOne, waited := false }
  | .lowerOne => { s with next := some .lowerOne, waited := false }
  | c => { all := c }

/-- A text after the changes, and the state behind it. -/
def apply (s : CaseState) : Narrow → Narrow × CaseState
  | [] => ([], s)
  | c :: cs =>
    ((match s.next with
      | some change => change.apply c
      | none => s.all.apply c) :: cs.map s.all.apply, { all := s.all })

def behindEmpty (s : CaseState) : CaseState :=
  if s.waited then { all := s.all } else { s with waited := s.next.isSome }

/-- What is left of the state for the next match. -/
def forNext (s : CaseState) : CaseState :=
  if s.waited then { next := s.next, waited := true } else {}

end CaseState

def part (text : Narrow) (s : Stretch) : Narrow := (text.drop s.1).take (s.2 - s.1)

/-- What is put in for a match, and the state of the case behind it. -/
def insertAll (text : Narrow) (m : RegexMatch) : CaseState → List Insert → Narrow × CaseState
  | s, [] => ([], s)
  | s, .change c :: rest => insertAll text m (s.add c) rest
  | s, .char c :: rest =>
    let (front, s) := s.apply [c]
    let (behind, s) := insertAll text m s rest
    (front ++ behind, s)
  | s, .group n :: rest =>
    let (front, s) :=
      match (m.group? n).map (part text) with
      | none | some [] => ([], s.behindEmpty)
      | some cs => s.apply cs
    let (behind, s) := insertAll text m s rest
    (front ++ behind, s)

/-- Goes through the matches of a text from a place on. The result has what is behind the place
with the replacements, if there are any. The number counts the matches so far; the other place is
the end of the last match that was not empty. The bound is the number of places. -/
def replaceFrom (s : Substitution) (search : Regex.Search) (text : Narrow) :
    Nat → Nat → Option Nat → Nat → CaseState → Option Narrow
  | 0, _, _, _, _ => none
  | bound + 1, start, lastEnd, count, case =>
    match search.find? start with
    | none => none
    | some m =>
      let (a, b) := m.whole
      let before := part text (start, a)
      -- An empty match behind another one is passed over.
      if a = b ∧ lastEnd = some a then
        if a < text.length then
          (replaceFrom s search text bound (a + 1) none count case).map fun rest =>
            before ++ part text (a, a + 1) ++ rest
        else none
      else
        let replaces := s.number ≤ count + 1
        let (middle, case) :=
          if replaces then
            let (cs, case) := insertAll text m case s.inserts
            (cs, case.forNext)
          else (part text (a, b), case)
        let next := if a = b then b + 1 else b
        let skipped := if a = b then part text (b, b + 1) else []
        let front := before ++ middle ++ skipped
        if replaces ∧ ¬ s.all then some (front ++ text.drop next)
        else if text.length < next then if replaces then some front else none
        else
          match replaceFrom s search text bound next (if a = b then none else some b)
              (count + 1) case with
          | some rest => some (front ++ rest)
          | none => if replaces then some (front ++ text.drop next) else none

/-- A text with its replacements, if there are any. -/
def replace? (s : Substitution) (regex : Regex) (mode : MatchMode) (text : Narrow) :
    Option Narrow :=
  replaceFrom s (regex.searchIn mode text) text (text.length + 2) 0 none 0 {}

end Sed
end CjsxConversion
