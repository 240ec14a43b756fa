import CjsxConversion.Failure
import CjsxConversion.Text.Search

/-!
# Reports

One line tells how a conversion ended. On a terminal its label is bold, green for a success and
red for a failure.
-/

namespace CjsxConversion
namespace Report

/-- Ends every style. -/
def plainStyle : String := "\x1b[0m"

/-- Bold green. -/
def successStyle : String := "\x1b[1;32m"

/-- Bold red. -/
def failureStyle : String := "\x1b[1;31m"

/-- A label in a style. Where the label itself ends every style, its own begins again. -/
def paint (style label : String) : String :=
  style ++ Search.replaceAll plainStyle (plainStyle ++ style) label ++ plainStyle

def labelled (color : Bool) (style label : String) : String :=
  if color then paint style label else label

def success (color : Bool) (input output : Path) : String :=
  labelled color successStyle "DONE:" ++ " Converted " ++ input.text ++ " → " ++ output.text

def line (color : Bool) (label message : String) : String :=
  labelled color failureStyle (label ++ ":") ++ " " ++ message

def failure (color : Bool) (f : Failure) : String :=
  line color f.label f.message

/-- Writes to a buffer with room for some octets: what was written, and why not all of it. -/
def writeWithin (room : Nat) (octets : Octets) : Octets × Option IoKind :=
  (octets.take room, if octets.length ≤ room then none else some .writeZero)

/-- What is logged, by the number of times that more was asked for. -/
def logLevel : Nat → String
  | 0 => "warn"
  | 1 => "info"
  | 2 => "debug"
  | _ => "trace"

end Report
end CjsxConversion
