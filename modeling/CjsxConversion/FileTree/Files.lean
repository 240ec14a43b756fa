import CjsxConversion.FileTree.Walk

/-!
# Reading, writing and replacing files

The operations that programs use. Each one is given the location that relative paths start from.

`replaceFile` writes a file beside its destination and moves it there when it is
complete. Where a step fails, what was written is removed again. Which steps fail beyond what the
tree itself refuses is a parameter.

Main results:
* `replaceFile_of_error`: where replacing fails, the tree is exactly as it was.
-/

namespace CjsxConversion
namespace FileTree

/-- Permission bits without those of a mask. -/
def masked (mask bits : Nat) : Nat := bits ^^^ (bits &&& mask)

/-- The permission bits that new files usually lack. -/
def usualMask : Nat := 0o022

/-- The permission bits of a new file: everyone reads and writes, as far as the mask lets them. -/
def newMode (mask : Nat) : Nat := masked mask 0o666

/-- The permission bits of a new file under the usual mask. -/
def newFileMode : Nat := newMode usualMask

/-- The permission bits of a directory. -/
def directoryMode : Nat := 0o755

def read (t : FileTree) (here : Location) (p : Path) : Except IoFault Octets := do
  match ← t.node here p with
  | .file data _ => return data
  | .sink | .full => return []
  | .directory => .error OsFault.isDirectory.toIoFault
  | .link _ => .error OsFault.tooManyLinks.toIoFault

/-- The content of a file that holds text. -/
def readText (t : FileTree) (here : Location) (p : Path) : Except IoFault String := do
  let data ← t.read here p
  match Utf8.decode? data with
  | some s => return s
  | none => .error .notText

/-- The permission bits of what a path leads to, if it leads to anything. -/
def mode? (t : FileTree) (here : Location) (p : Path) : Option Nat :=
  match t.node here p with
  | .ok (.file _ mode) => some mode
  | .ok .directory => some directoryMode
  | .ok .sink | .ok .full => some 0o666
  | _ => none

def leadsSomewhere (t : FileTree) (here : Location) (p : Path) : Bool :=
  match t.node here p with
  | .ok _ => true
  | .error _ => false

def isFile (t : FileTree) (here : Location) (p : Path) : Bool :=
  match t.node here p with
  | .ok (.file _ _) => true
  | _ => false

/-- Whether a path leads to a file that may be run. -/
def isProgram (t : FileTree) (here : Location) (p : Path) : Bool :=
  match t.node here p with
  | .ok (.file _ mode) => mode &&& 0o111 ≠ 0
  | _ => false

/-- Makes a file that must not exist yet. -/
def createNew (t : FileTree) (here : Location) (p : Path) (mode : Nat) :
    Except IoFault (Location × FileTree) := do
  let l ← t.findFree here p
  match t.get? l with
  | none => return (l, t.put l (.file [] mode))
  | some _ => .error OsFault.exists.toIoFault

/-- Replaces the content of a file. -/
def fill (t : FileTree) (l : Location) (octets : Octets) : FileTree :=
  match t.get? l with
  | some (.file _ mode) => t.put l (.file octets mode)
  | _ => t

/-- Replaces the permission bits of a file. -/
def setMode (t : FileTree) (l : Location) (mode : Nat) : FileTree :=
  match t.get? l with
  | some (.file data _) => t.put l (.file data mode)
  | _ => t

/-- The segments of a path without the empty ones at its end. -/
def namedSegments (p : Path) : List Octets :=
  (p.segments.reverse.dropWhile (· = [])).reverse

/-- Fails on a path that cannot be looked up at all. -/
def checkSpelling (p : Path) : Except IoFault Unit :=
  if p.spelling.contains 0 then .error .nulInPath
  else if p.spelling = [] then .error OsFault.noEntry.toIoFault
  else if pathLimit ≤ p.spelling.length then .error OsFault.nameTooLong.toIoFault
  else .ok ()

/-- The place that a path names, which need not exist: the directory above it and its last name. A
link in this place is not followed. -/
def place (t : FileTree) (here : Location) (p : Path) : Except IoFault (Location × Octets) := do
  checkSpelling p
  let l ← (t.walk true linkLimit (startOf here p) (namedSegments p).dropLast).mapError
    OsFault.toIoFault
  if t.isDirectory l then return (l, (namedSegments p).getLast?.getD [])
  else
    .error (if (t.get? l).isSome then OsFault.notDirectory else OsFault.noEntry).toIoFault

/-- Moves a file to the place that a path names, over what may stand there. -/
def moveFile (t : FileTree) (here : Location) (source : Location) (p : Path) :
    Except IoFault FileTree := do
  let (above, name) ← t.place here p
  if Path.isTrivial name ∨ name = [Path.dot, Path.dot] then .error OsFault.busy.toIoFault
  if nameLimit < name.length then .error OsFault.nameTooLong.toIoFault
  if p.spelling.getLast? = some Path.slash then .error OsFault.notDirectory.toIoFault
  let l := above ++ [name]
  match t.get? source with
  | none => .error OsFault.noEntry.toIoFault
  | some n =>
    if t.isDirectory l then .error OsFault.isDirectory.toIoFault
    else return (t.remove source).put l n

/-- Removes a file or a link. -/
def unlink (t : FileTree) (here : Location) (p : Path) : Except IoFault FileTree := do
  let l ← t.find false here p
  match t.get? l with
  | none => .error OsFault.noEntry.toIoFault
  | some .directory => .error OsFault.isDirectory.toIoFault
  | some _ => return t.remove l

/-! ### Names that are free -/

/-- Decimal digits of a number, at least six. -/
def sixDigits (n : Nat) : Octets :=
  let ds := Nat.toDigits 10 n
  (List.replicate (6 - ds.length) '0' ++ ds).map fun c => UInt8.ofNat c.toNat

/-- The first free path of a row with numbered names. -/
def freePathFrom (t : FileTree) (here : Location) (path : Nat → Path) : Nat → Nat → Path
  | 0, n => path n
  | k + 1, n =>
    match t.find false here (path n) with
    | .ok l => if (t.get? l).isSome then t.freePathFrom here path k (n + 1) else path n
    | .error _ => path n

/-- A free path in a directory. Its name has a given beginning and a given end. -/
def freePath (t : FileTree) (here : Location) (dir : Path) (beginning ending : Octets) : Path :=
  t.freePathFrom here (fun n => dir.join ⟨beginning ++ sixDigits n ++ ending⟩)
    t.entries.length 0

/-! ### Replacing -/

/-- The steps of replacing a file: a new one is made beside it, written, given the permission bits
of the old one, and moved into its place. -/
inductive ReplaceStep where
  | create
  | write
  | permit
  | move
  deriving DecidableEq, Repr

/-- Which steps fail although the tree would allow them. -/
abbrev Refusals := ReplaceStep → Option IoFault

/-- No step fails by itself. -/
def Refusals.none : Refusals := fun _ => .none

/-- The directory in which a file is written before it is moved to its destination. -/
def besideOf (p : Path) : Path :=
  match p.parent with
  | some q => if q.spelling = [] then ⟨[Path.dot]⟩ else q
  | none => ⟨[Path.dot]⟩

/-- Fails if a step is refused. -/
def allow (refusals : Refusals) (s : ReplaceStep) : Except IoFault Unit :=
  match refusals s with
  | .none => .ok ()
  | some fault => .error fault

/-- Fills a file that was just made, and moves it to its destination. -/
def complete (t : FileTree) (refusals : Refusals) (here : Location) (made : Location)
    (existing : Option Nat) (p : Path) (octets : Octets) : Except IoFault FileTree := do
  allow refusals .write
  let t := t.fill made octets
  let t ← match existing with
    | .none => pure t
    | some mode => do
      allow refusals .permit
      pure (t.setMode made mode)
  allow refusals .move
  t.moveFile here made p

/-- Replaces a file, or makes it. An existing file keeps its permission bits, a new one has all
that the mask leaves. -/
def replaceFile (t : FileTree) (refusals : Refusals) (here : Location) (mask : Nat) (p : Path)
    (octets : Octets) : Except IoFault Unit × FileTree :=
  let existing := t.mode? here p
  let made := t.freePath here (besideOf p) (Utf8.encode ".cjsx-to-jsx-") []
  match allow refusals .create >>= fun _ => t.createNew here made (newMode mask) with
  | .error fault => (.error fault, t)
  | .ok (l, u) =>
    match u.complete refusals here l existing p octets with
    | .ok v => (.ok (), v)
    | .error fault => (.error fault, u.remove l)

theorem createNew_eq_ok {t u : FileTree} {here l : Location} {p : Path} {mode : Nat}
    (h : t.createNew here p mode = .ok (l, u)) :
    t.get? l = none ∧ u = t.put l (.file [] mode) := by
  unfold createNew at h
  simp only [bind, Except.bind] at h
  split at h
  · cases h
  · split at h
    · next hn =>
      cases h
      exact ⟨hn, rfl⟩
    · cases h

/-- Where replacing fails, the tree is exactly as it was. -/
theorem replaceFile_of_error {t u : FileTree} {refusals : Refusals} {here : Location} {mask : Nat}
    {p : Path} {octets : Octets} {fault : IoFault}
    (h : t.replaceFile refusals here mask p octets = (.error fault, u)) : u = t := by
  unfold replaceFile at h
  simp only at h
  split at h
  · cases h
    rfl
  · next l v hc =>
    split at h
    · cases h
    · cases h
      cases ha : allow refusals .create with
      | error e => rw [ha] at hc; cases hc
      | ok a =>
        rw [ha] at hc
        obtain ⟨hn, rfl⟩ :=
          createNew_eq_ok (show t.createNew here _ (newMode mask) = .ok (l, v) from hc)
        exact remove_put hn _

end FileTree
end CjsxConversion
