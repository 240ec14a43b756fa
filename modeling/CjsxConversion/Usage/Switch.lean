import CjsxConversion.Flag.Catalog

/-!
# The parameters of the program

The program takes one input and any number of switches. Some switches are its own, the others are
the flags of a catalog, which are handed on to the tools.
-/

namespace CjsxConversion

/-- What a switch is there for. -/
inductive Purpose where
  | output
  | skipFormat
  | eslintFix
  | config
  | verbose
  | logJson
  | forward (f : Flag)
  | help
  | version
  deriving DecidableEq, Repr

/-- How often a switch may be given, and what follows it. -/
inductive Arity where
  | alone
  | counted
  | valued (hint : String)
  deriving DecidableEq, Repr

/-- A switch of the program. -/
structure Switch where
  purpose : Purpose
  long : String
  short : Option Char := none
  alternative : Option String := none
  arity : Arity := .alone
  help : String
  deriving DecidableEq, Repr

namespace Switch

def takesValue (s : Switch) : Bool :=
  match s.arity with
  | .valued _ => true
  | _ => false

/-- The switch in messages and help texts. -/
def text (s : Switch) : String :=
  "--" ++ s.long ++
    match s.arity with
    | .alone => ""
    | .counted => "..."
    | .valued hint => " <" ++ hint ++ ">"

/-- The switches of the program itself. -/
def own : List Switch := [
  { purpose := .output, long := "output", short := some 'o', arity := .valued "PATH",
    help := "Write the result here instead of next to the input" },
  { purpose := .skipFormat, long := "skip-prettier", alternative := some "skip-format",
    help := "Do not run the formatter" },
  { purpose := .eslintFix, long := "eslint-fix", short := some 'e',
    help := "Run eslint --fix on the converted file" },
  { purpose := .config, long := "config", short := some 'c', arity := .valued "JSON",
    help := "Read options and the toolchain from a JSON file" },
  { purpose := .verbose, long := "verbose", short := some 'v', arity := .counted,
    help := "Increase log verbosity (-v info, -vv debug, -vvv trace)" },
  { purpose := .logJson, long := "log-json", help := "Emit logs as JSON lines" }]

/-- The switches after which nothing else matters. -/
def informing : List Switch := [
  { purpose := .help, long := "help", short := some 'h', help := "Print help" },
  { purpose := .version, long := "version", short := some 'V', help := "Print version" }]

/-- The help text of a flag: its description and what is assumed without it. -/
def helpOf (f : Flag) : String :=
  match f.assumed with
  | some v => f.description ++ " [default: " ++ v.render ++ "]"
  | none => f.description

def ofFlag (f : Flag) : Switch where
  purpose := .forward f
  long := f.name
  arity := match f.hint with
    | some hint => .valued hint
    | none => .alone
  help := helpOf f

/-- All switches of the program, given the flags of the tools. -/
def all (c : Catalog) : List Switch :=
  own ++ c.flags.map ofFlag ++ informing

def hasName (name : String) (s : Switch) : Bool :=
  s.long == name || s.alternative == some name

def named? (switches : List Switch) (name : String) : Option Switch :=
  switches.find? (hasName name)

def lettered? (switches : List Switch) (letter : Char) : Option Switch :=
  switches.find? fun s => s.short == some letter

theorem hint_isSome (f : Flag) : f.hint.isSome = f.takesValue := by
  unfold Flag.hint Flag.takesValue
  cases f.kind <;> simp

/-- A flag takes a value here exactly when the tool takes one. -/
theorem takesValue_ofFlag (f : Flag) : (ofFlag f).takesValue = f.takesValue := by
  rw [← hint_isSome]
  unfold takesValue ofFlag
  cases f.hint <;> rfl

end Switch

/-- What an argument can be given for. -/
inductive Parameter where
  | input
  | switch (s : Switch)
  deriving DecidableEq, Repr

namespace Parameter

/-- The input in messages and help texts. -/
def inputText : String := "<FILE>"

def text : Parameter → String
  | .input => inputText
  | .switch s => s.text

def takesValue : Parameter → Bool
  | .input => true
  | .switch s => s.takesValue

/-- Whether the parameter may be given more than once. -/
def isRepeatable : Parameter → Bool
  | .input => false
  | .switch s => s.arity = .counted

end Parameter
end CjsxConversion
