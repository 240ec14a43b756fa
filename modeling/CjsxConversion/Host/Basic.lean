import CjsxConversion.FileTree.Files

/-!
# The machine that a conversion runs on

A machine has a file tree, a current directory and a path on which programs are searched. A few
programs are built in: the image of each is a file whose content names it.
-/

namespace CjsxConversion

/-- A program that is built in. -/
inductive Utility where
  | sh | cat | tr | sed | sort | printf | basename | mv | rm | echo | test | bracket | true
  | false | env
  deriving DecidableEq, Repr

namespace Utility

/-- The programs with their names. -/
def named : List (String × Utility) :=
  [("sh", .sh), ("cat", .cat), ("tr", .tr), ("sed", .sed), ("sort", .sort), ("printf", .printf),
   ("basename", .basename), ("mv", .mv), ("rm", .rm), ("echo", .echo), ("test", .test),
   ("[", .bracket),    ("true", .true), ("false", .false), ("env", .env)]

/-- What the image of every program begins with. -/
def imageStart : Octets := 0x7F :: Utf8.encode "PROGRAM "

/-- The image of a program, given its name. -/
def image (name : String) : Octets := imageStart ++ Utf8.encode name

def ofImage? (data : Octets) : Option Utility :=
  (named.find? fun e => image e.1 = data).map (·.2)

end Utility

/-- How a program ended. One that was killed has no status. -/
structure Exit where
  status : Option Nat
  output : Octets
  errors : Octets
  deriving DecidableEq, Repr

namespace Exit

/-- Whether the program says that it succeeded. -/
def isSuccess (e : Exit) : Bool := e.status = some 0

end Exit

/-- A machine: its files, the current directory, where programs are searched, the permission bits
that new files lack, and the directory for scratch files. -/
structure Host where
  files : FileTree
  here : Location := []
  searchPath : List Path := []
  mask : Nat := FileTree.usualMask
  scratch : Path := .ofString "/tmp"
  deriving Inhabited

namespace Host

/-- The names of the segments of a text. -/
def locationOf (s : String) : Location :=
  (Path.ofString s).segments.filter fun n => n ≠ []

/-- A tree with a directory at each location on the way down. -/
def makeDirectories (t : FileTree) (l : Location) : FileTree :=
  (List.range (l.length + 1)).foldl (fun t n =>
    if (t.get? (l.take n)).isSome then t else t.put (l.take n) .directory) t

/-- A tree with nothing but the built-in programs, two devices and a directory for scratch files. -/
def bareTree : FileTree :=
  let t := makeDirectories .empty (locationOf "usr/bin")
  let t := makeDirectories t (locationOf "tmp")
  let t := makeDirectories t (locationOf "dev")
  let t := t.put (locationOf "dev/null") .sink
  let t := t.put (locationOf "dev/full") .full
  let t := t.put (locationOf "bin") (.link (.ofString "usr/bin"))
  Utility.named.foldl (fun t e =>
    t.put (locationOf "usr/bin" ++ [Utf8.encode e.1]) (.file (Utility.image e.1) 0o755)) t

/-- A machine with nothing but the built-in programs. -/
def bare : Host where
  files := bareTree
  searchPath := ["/usr/local/sbin", "/usr/local/bin", "/usr/sbin", "/usr/bin", "/sbin", "/bin"].map
    Path.ofString

end Host
end CjsxConversion
