import CjsxConversion.Flag.Settings

/-!
# Resolved flags

The flags of one tool after the settings have been read against them: each declared flag in
order, with its value where it has one.

`get?` looks a value up by its key, `record` is the whole as settings, and `words` is
the list of arguments that hands it to a program.
-/

namespace CjsxConversion

/-- A declared flag with the value it resolved to. -/
structure ResolvedFlag where
  spelling : String
  key : String
  value : Option FlagValue
  deriving DecidableEq, Repr

/-- The flags of one tool with their values, in the order of declaration. -/
structure ResolvedFlags where
  setName : String
  entries : List ResolvedFlag
  deriving DecidableEq, Repr

namespace ResolvedFlags

/-- No flags at all, for a tool that takes none. -/
def empty : ResolvedFlags := ⟨"", []⟩

/-- The value of the first entry under a key. -/
def get? (r : ResolvedFlags) (key : String) : Option FlagValue :=
  (r.entries.find? fun e => e.key == key).bind (·.value)

def isSet (r : ResolvedFlags) (key : String) : Bool :=
  (r.get? key).isSome

def given (r : ResolvedFlags) : List (ResolvedFlag × FlagValue) :=
  r.entries.filterMap fun e => e.value.map fun v => (e, v)

/-- The number of entries that have a value. -/
def count (r : ResolvedFlags) : Nat :=
  r.given.length

/-- The values by key. -/
def record (r : ResolvedFlags) : Settings :=
  Settings.ofList (r.given.map fun p => (p.1.key, p.2))

/-- The arguments that hand one value on: a true toggle is its flag alone, a false one nothing. -/
def wordsOf (spelling : String) : FlagValue → List String
  | .bool true => [spelling]
  | .bool false => []
  | v => [spelling, v.render]

/-- The arguments that hand the values to a program. -/
def words (r : ResolvedFlags) : List String :=
  r.given.flatMap fun p => wordsOf p.1.spelling p.2

end ResolvedFlags
end CjsxConversion
