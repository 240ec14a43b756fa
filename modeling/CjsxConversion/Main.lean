import CjsxConversion.Host.Launch
import CjsxConversion.Session

/-!
# The program

The program gathers the files that a session may look at, runs the session on a machine that
holds them, and writes back the files that the session changed or removed.

The machine has the built-in programs, and those that the project keeps in `node_modules/.bin`.

They cannot be looked up here, so every file that is found may be run. They are
not written back either: a file that is written over keeps its own, and a new one gets those that
the mask leaves, which is what a session gives them.
-/

namespace CjsxConversion
namespace Program

/-- What really stands at a path. -/
def look (p : Path) : IO (Option FileNode) := do
  try
    let data ← IO.FS.readBinFile p.text
    return some (.file data.toList 0o755)
  catch
    | .inappropriateType _ 21 _ => return some .directory
    | _ => return none

/-- The machine with what really stands at a path and at the directories above it. -/
def gather (h : Host) (p : Path) : IO Host := do
  let mut files := h.files
  for q in p.ancestors.reverse do
    if let some node ← look q then
      if let .ok l := files.find true [] q then
        if (files.get? l).isNone then
          files := files.put l node
  return { h with files }

/-- The paths that an argument may spell, by itself or behind an equals sign. -/
def spelled (dir : Path) (argument : String) : List Path :=
  let whole := Utf8.encode argument
  let spellings := whole :: (Word.cutAtEquals whole).2.toList
  let paths := spellings.map fun b => dir.join ⟨b⟩
  paths ++ paths.map Path.derived

def toolPaths (dir : Path) (i : Invocation) (h : Host) : List Path :=
  match i.request h with
  | .error _ => []
  | .ok r =>
    let tools := r.config.toolchain
    let names := tools.eslint :: Stage.all.map fun s => (tools.tools.get s).program
    names.flatMap fun name =>
      dir.join (.ofString name) :: dir.ancestors.map (Host.candidate (.ofString name))

/-- The machine that a session runs on. -/
def prepare (dir : Path) (arguments : List String) : IO Host := do
  let mut host ← gather { Host.bare with here := Host.locationOf dir.text } dir
  for argument in arguments do
    for p in spelled dir argument do
      host ← gather host p
  if let .ok i := Invocation.read .builtIn (arguments.map Utf8.encode) then
    for p in toolPaths dir i host do
      host ← gather host p
  return host

/-- Writes back what has changed, and removes what is gone. The built-in programs have no files. -/
def commit (before after : FileTree) : IO Unit := do
  for (l, node) in after.entries do
    if (Host.bare.files.get? l).isNone ∧ before.get? l ≠ some node then
      if let .file data _ := node then
        IO.FS.writeBinFile (Path.ofSegments true l).text ⟨data.toArray⟩
  for (l, node) in before.entries do
    if (Host.bare.files.get? l).isNone ∧ (after.get? l).isNone then
      if let .file _ _ := node then
        IO.FS.removeFile (Path.ofSegments true l).text

end Program
end CjsxConversion

open CjsxConversion in
/-- Converts the file that the arguments name. -/
def main (arguments : List String) : IO UInt32 := do
  let dir := Path.ofString (← IO.currentDir).toString
  let host ← Program.prepare dir arguments
  let (ending, after) := Session.run (.ofLauncher Host.launch) .builtIn .zero
    (arguments.map Utf8.encode) ⟨host, ()⟩
  Program.commit host.files after.host.files
  IO.print ending.output
  IO.eprint ending.errors
  return ending.status.toUInt32
