/-!
# Misuse of the program

What can be wrong with the arguments of the program, and the sentence shown for it.
-/

namespace CjsxConversion

/-- What is wrong with the arguments. Parameters are named as in the help text. -/
inductive UsageFault where
  | unexpected (word : String)
  | missingValue (parameter : String)
  | needlessValue (parameter value : String)
  | repeated (parameter : String)
  | notText
  | missing (parameters : List String)
  deriving DecidableEq, Repr

namespace UsageFault

/-- A text in the colour of warnings. -/
def marked (s : String) : String := "\x1b[33m" ++ s ++ "\x1b[0m"

/-- The first line shown for a fault. What is at fault is marked in it. -/
def message : UsageFault → String
  | .unexpected word => "unexpected argument '" ++ marked word ++ "' found"
  | .missingValue parameter =>
    "a value is required for '" ++ marked parameter ++ "' but none was supplied"
  | .needlessValue parameter value =>
    "unexpected value '" ++ marked value ++ "' for '" ++ marked parameter
      ++ "' found; no more were expected"
  | .repeated parameter => "the argument '" ++ marked parameter ++ "' cannot be used multiple times"
  | .notText => "invalid UTF-8 was detected in one or more arguments"
  | .missing _ => "the following required arguments were not provided:"

/-- What is listed below the first line. -/
def details : UsageFault → List String
  | .missing parameters => parameters
  | _ => []

def exitStatus : Nat := 2

end UsageFault

/-- Why reading the arguments stops before their end is reached. -/
inductive Stop where
  | help
  | version
  | misuse (fault : UsageFault)
  deriving DecidableEq, Repr

end CjsxConversion
