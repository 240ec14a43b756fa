import CjsxConversion.Path

/-!
# Sources and destinations

A source is a text with the place that it comes from. Its kind is seen from the end of its file
name, and the same end is renamed to find the destination: `.cjsx` becomes `.jsx`, `.coffee`
becomes `.js`. Names that are not well-formed UTF-8 have no kind and keep their end.
-/

namespace CjsxConversion

/-- The kind of a source, seen from the end of its file name. -/
inductive SourceKind where
  | cjsx
  | coffee
  | other (extension : String)
  deriving DecidableEq, Repr

namespace Path

/-- The ends of file names that are renamed, with what they become. -/
def renamings : List (Octets × Octets) :=
  [(Utf8.encode ".cjsx", Utf8.encode ".jsx"), (Utf8.encode ".coffee", Utf8.encode ".js")]

/-- A name without an end that it may have. -/
def stem? (ending name : Octets) : Option Octets :=
  if ending.isSuffixOf name then some (name.take (name.length - ending.length)) else none

/-- The file name, if it is well-formed UTF-8. -/
def readableName? (p : Path) : Option Octets :=
  p.fileName?.filter fun n => (Utf8.decode? n).isSome

def renamed? (name : Octets) : Option Octets :=
  renamings.findSome? fun r => (stem? r.1 name).map fun stem => stem ++ r.2

/-- Where the result of a source goes by itself. -/
def derived (p : Path) : Path :=
  match p.readableName?.bind renamed? with
  | some n => p.withFileName n
  | none => p

end Path

namespace SourceKind

def ofPath (p : Path) : SourceKind :=
  let name := p.readableName?.getD []
  if (Path.stem? (Utf8.encode ".cjsx") name).isSome then .cjsx
  else if (Path.stem? (Utf8.encode ".coffee") name).isSome then .coffee
  else .other ((p.extension?.bind Utf8.decode?).getD "")

/-- Whether the converter knows how to rename files of the kind. -/
def isRenamed : SourceKind → Bool
  | .other _ => false
  | _ => true

def describe : SourceKind → String
  | .cjsx => ".cjsx"
  | .coffee => ".coffee"
  | .other "" => "(none)"
  | .other e => "." ++ e

end SourceKind

/-- A text that is to be converted. -/
structure Source where
  path : Path
  text : String
  deriving DecidableEq, Repr

namespace Source

def place (base path : Path) (text : String) : Source :=
  ⟨base.join path, text⟩

def kind (s : Source) : SourceKind :=
  .ofPath s.path

end Source

/-- Where a result goes. The path is derived if it was found by renaming the source. -/
structure Destination where
  path : Path
  isDerived : Bool
  deriving DecidableEq, Repr

namespace Destination

/-- Where the result of a source goes: where it was asked to go, or beside the source. -/
def choose (source : Path) (asked : Option Path) : Destination :=
  match asked with
  | some p => ⟨p, false⟩
  | none => ⟨source.derived, true⟩

end Destination
end CjsxConversion
