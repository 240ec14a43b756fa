import CjsxConversion.Text.Blank
import CjsxConversion.Text.Search

/-!
# Lines and words

A line ends with a line feed, before which one carriage return belongs to the end. The last line
needs no end.
-/

namespace CjsxConversion
namespace Lines

/-- A line without a carriage return at its end. -/
def dropReturn (cs : List Char) : List Char :=
  if cs.getLast? = some '\r' then cs.dropLast else cs

/-- The lines of a text, given the beginning of the first one. -/
def linesFrom (present : List Char) : List Char → List (List Char)
  | [] => if present = [] then [] else [present]
  | c :: cs =>
    if c = '\n' then dropReturn present :: linesFrom [] cs else linesFrom (present ++ [c]) cs

/-- The lines of a text, without their ends. -/
def lines (cs : List Char) : List (List Char) :=
  linesFrom [] cs

/-- The words of a text, which blanks separate. -/
def words (cs : List Char) : List (List Char) :=
  (cs.splitOnP Blank.isBlank).filter (· ≠ [])

/-- The part before the first blank and the part after it. -/
def cutAtBlank (cs : List Char) : List Char × List Char :=
  match cs.dropWhile fun c => !Blank.isBlank c with
  | [] => (cs, [])
  | _ :: after => (cs.takeWhile fun c => !Blank.isBlank c, after)

end Lines
end CjsxConversion
