import CjsxConversion.Path

/-!
# Configuration faults

What can be wrong with a configuration before any stage runs, and the sentence shown for it.
-/

namespace CjsxConversion

/-- A value, a set of flags, a configuration file or a destination that cannot be used. -/
inductive ConfigFault where
  | notInteger (flag value : String)
  | notListed (flag value : String) (words : List String)
  | wrongKind (flag expected value : String)
  | noNegation (flag : String)
  | repeatedFlag (set flag : String)
  | badFile (path : Path) (reason : String)
  | outputIsInput (path : Path)
  deriving DecidableEq, Repr

namespace ConfigFault

/-- The sentence shown for a fault. -/
def message : ConfigFault → String
  | .notInteger flag value => "Invalid value '" ++ value ++ "' for " ++ flag ++ ": expected an integer"
  | .notListed flag value words =>
    "Invalid value '" ++ value ++ "' for " ++ flag ++ ": expected one of "
      ++ String.intercalate ", " words
  | .wrongKind flag expected value =>
    "Invalid value '" ++ value ++ "' for " ++ flag ++ ": expected " ++ expected
  | .noNegation flag =>
    flag ++ " cannot be set to false: it has no negated form; "
      ++ "remove it to keep the tool's default"
  | .repeatedFlag set flag => "Option set '" ++ set ++ "' declares " ++ flag ++ " more than once"
  | .badFile path reason =>
    "Invalid configuration file " ++ path.text ++ ": " ++ reason
  | .outputIsInput path =>
    "Refusing to overwrite the input file " ++ path.text
      ++ "; pass --output to choose a destination"

end ConfigFault
end CjsxConversion
