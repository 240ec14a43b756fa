import CjsxConversion.Text.Integer

/-!
# Values that flags carry

A value is a truth value, a 64-bit integer or a text. A value that comes from a command line is
always a text, even where the flag is declared with another kind.
-/

namespace CjsxConversion

/-- A single configured value. -/
inductive FlagValue where
  | bool (b : Bool)
  | int (n : Int64)
  | text (s : String)
  deriving DecidableEq, Repr

namespace FlagValue

/-- A value as it is written on a command line or in a message. -/
def render : FlagValue → String
  | .bool true => "true"
  | .bool false => "false"
  | .int n => Integer.render n
  | .text s => s

end FlagValue

/-- The kind of value that a flag takes. -/
inductive FlagKind where
  | toggle
  | integer
  | choice (words : List String)
  | text
  deriving DecidableEq, Repr

namespace FlagKind

/-- The phrase for a kind in a message about a value that does not fit it. -/
def describe : FlagKind → String
  | .toggle => "a boolean"
  | .integer => "an integer"
  | .choice _ => "one of the listed choices"
  | .text => "text"

end FlagKind
end CjsxConversion
