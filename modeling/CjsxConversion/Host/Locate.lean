import CjsxConversion.Host.Basic

/-!
# Locating programs

A program that a project brings along comes before one of the machine: it is searched in
`node_modules/.bin` of the start directory and of every directory above it, and only then on the
search path. A name of more than one component is a path and is not searched.

Main results:
* `programFrom_of_nearest`: what the project brings along hides the search path.
-/

namespace CjsxConversion
namespace Host

/-- Where a directory keeps a program. -/
def candidate (name : Path) (dir : Path) : Path :=
  ((dir.join (.ofString "node_modules")).join (.ofString ".bin")).join name

/-- The program of the nearest directory that keeps it, from a start directory upwards. -/
def nearest? (h : Host) (name start : Path) : Option Path :=
  (start.ancestors.map (candidate name)).find? fun p => h.files.isFile h.here p

/-- The first program of a name on the search path. -/
def onSearchPath? (h : Host) (name : Path) : Option Path :=
  (h.searchPath.map fun dir => dir.join name).find? fun p => h.files.isProgram h.here p

/-- The path of a program, if there is one, given what is found on the search path. -/
def programFrom (h : Host) (search : Path → Option Path) (name : String) (start : Path) :
    Option Path :=
  let p := Path.ofString name
  if 1 < p.components.length then
    if h.files.leadsSomewhere h.here p then some p else none
  else (h.nearest? p start).or (search p)

def program? (h : Host) (name : String) (start : Path) : Option Path :=
  h.programFrom h.onSearchPath? name start

/-- The path of a program as text, or its bare name where there is none, given what is found on the
search path. -/
def programWordFrom (h : Host) (search : Path → Option Path) (name : String) (start : Path) :
    String :=
  match h.programFrom search name start with
  | some p => p.text
  | none => name

/-- The path of a program as text, or its bare name where there is none. -/
def programWord (h : Host) (name : String) (start : Path) : String :=
  h.programWordFrom h.onSearchPath? name start

theorem programFrom_onSearchPath? (h : Host) (name : String) (start : Path) :
    h.programFrom h.onSearchPath? name start = h.program? name start := rfl

theorem programFrom_of_nearest {h : Host} {search : Path → Option Path} {name : String}
    {start p : Path} (hn : (Path.ofString name).components.length ≤ 1)
    (hp : h.nearest? (.ofString name) start = some p) :
    h.programFrom search name start = some p := by
  simp [programFrom, Nat.not_lt.2 hn, hp]

end Host
end CjsxConversion
