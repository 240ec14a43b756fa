import CjsxConversion.FileTree.Files
import CjsxConversion.Text.Narrow

/-!
# What the programs of a machine share

While programs run, they share the file tree, the files that they have open, the streams between
them, and the signals that they send to each other. A program refers to an open file by the number
of its opening; an opening remembers how far it has come.

Programs run one after the other: a stream is filled by one program before the next one reads it.
-/

namespace CjsxConversion

/-- Where an open file leads. Files that were removed and streams go by number; a sink is always
empty, and a full file has no room for anything. -/
inductive Channel where
  | file (l : Location)
  | lost (number : Nat)
  | stream (number : Nat)
  | sink
  | full
  | directory
  deriving DecidableEq, Repr, Inhabited

/-- An open file, and how far it has been read or written. One that appends is written at its end.
-/
structure Opening where
  channel : Channel
  offset : Nat := 0
  appends : Bool := false
  reads : Bool := false
  writes : Bool := false
  deriving Repr, Inhabited

/-- An open file that leads elsewhere, if it led to a given place. -/
def Opening.lead (source target : Channel) (o : Opening) : Opening :=
  if o.channel = source then { o with channel := target } else o

/-- The location to which something below one location goes when that location is renamed. -/
def Location.renamed (source target l : Location) : Location :=
  if source.isPrefixOf l then target ++ l.drop source.length else l

/-- An open file after one location was renamed to another. -/
def Opening.follow (source target : Location) (o : Opening) : Opening :=
  match o.channel with
  | .file l => { o with channel := .file (Location.renamed source target l) }
  | _ => o

/-- A stream: what is read next, and what was written since, the latest first. -/
structure Stream where
  waiting : Narrow := []
  arrived : List Narrow := []
  deriving Repr, Inhabited

namespace Stream

/-- Everything that is not yet read. -/
def content (s : Stream) : Narrow :=
  match s.arrived with
  | [] => s.waiting
  | arrived => s.waiting ++ arrived.reverse.flatten

/-- Takes characters off a stream. -/
def takeWaiting (n : Nat) (s : Stream) : Narrow × Stream :=
  let all := s.content
  (all.take n, ⟨all.drop n, []⟩)

end Stream

/-- What the programs of a machine share. A file that was removed while it was open is kept among
the lost ones, a signal on its way is paired with the process it goes to, and the budget is the
number of steps that may still be taken. -/
structure System where
  files : FileTree
  openings : Array Opening := #[]
  streams : Array Stream := #[]
  lost : Array Octets := #[]
  processes : Nat := 4096
  signals : List (Nat × Nat) := []
  budget : Nat := 0

abbrev Act := StateM System

/-- How a file is opened. -/
inductive OpenMode where
  | read
  | readWrite
  | overwrite
  | append
  | create
  deriving DecidableEq, Repr

namespace OpenMode

/-- Whether a file that does not exist is made. -/
def makes (m : OpenMode) : Bool := m ≠ .read

/-- An open file of this mode. -/
def opening (m : OpenMode) (channel : Channel) : Opening where
  channel
  appends := m = .append
  reads := m = .read ∨ m = .readWrite
  writes := m ≠ .read

end OpenMode

namespace System

/-- A path as it is spelled in narrow text. -/
def pathOf (cs : Narrow) : Path := ⟨Narrow.toOctets cs⟩

/-- Numbers an open file. -/
def addOpening (o : Opening) : Act Nat := do
  let s ← get
  set { s with openings := s.openings.push o }
  return s.openings.size

def newStream (content : Narrow) : Act Nat := do
  let s ← get
  set { s with streams := s.streams.push ⟨content, []⟩ }
  return s.streams.size

/-- An open file that reads a text. -/
def openText (content : Narrow) : Act Nat := do
  let n ← newStream content
  addOpening { channel := .stream n, reads := true }

def openNode (t : FileTree) (l : Location) (mode : OpenMode) (bits : Nat) :
    Except OsFault (Channel × FileTree) :=
  match t.get? l with
  | none => if mode.makes then .ok (.file l, t.put l (.file [] bits)) else .error .noEntry
  | some (.file _ old) =>
    match mode with
    | .create => .error .exists
    | .overwrite => .ok (.file l, t.put l (.file [] old))
    | _ => .ok (.file l, t)
  | some .sink => if mode = .create then .error .exists else .ok (.sink, t)
  | some .full => if mode = .create then .error .exists else .ok (.full, t)
  | some .directory =>
    match mode with
    | .read => .ok (.directory, t)
    | .create => .error .exists
    | _ => .error .isDirectory
  | some (.link _) => .error (if mode = .create then .exists else .tooManyLinks)

/-- Opens a file. The bits are those of a file that is made. -/
def openPath (here : Location) (p : Path) (mode : OpenMode) (bits : Nat) :
    Act (Except OsFault Nat) := do
  let s ← get
  let follow : Bool := mode ≠ .create
  match if mode.makes then s.files.locateMade follow here p else s.files.locate true here p with
  | .error fault => return .error fault
  | .ok l =>
    match openNode s.files l mode bits with
    | .error fault => return .error fault
    | .ok (channel, files) =>
      set { s with files }
      return .ok (← addOpening (mode.opening channel))

/-- Moves an open file on. -/
def advance (number : Nat) (n : Nat) : Act Unit :=
  modify fun s => { s with openings := s.openings.modify number fun o =>
    { o with offset := o.offset + n } }

/-- Reads at most so many characters of an open file. None are left where nothing is read. -/
def read (number : Nat) (n : Nat) : Act (Except OsFault Narrow) := do
  let s ← get
  let o := s.openings[number]?.getD default
  if !o.reads then return .error .badDescriptor
  match o.channel with
  | .directory => return .error .isDirectory
  | .sink | .full => return .ok []
  | .stream k =>
    let (text, rest) := (s.streams[k]?.getD default).takeWaiting n
    set { s with streams := s.streams.setIfInBounds k rest }
    return .ok text
  | .file l =>
    let data := match s.files.get? l with
      | some (.file data _) => data
      | _ => []
    let text := (data.drop o.offset).take n
    advance number text.length
    return .ok (Narrow.ofOctets text)
  | .lost k =>
    let text := ((s.lost[k]?.getD []).drop o.offset).take n
    advance number text.length
    return .ok (Narrow.ofOctets text)

/-- How much of a text belongs to its first line. -/
def lineLength {α : Type} [BEq α] (lineEnd : α) (text : List α) : Nat :=
  (text.takeWhile (· != lineEnd)).length + 1

/-- Reads the next line of an open file, with its end. -/
def readLine (number : Nat) : Act (Except OsFault Narrow) := do
  let s ← get
  let o := s.openings[number]?.getD default
  let length := match o.channel with
    | .stream k => lineLength '\n' (s.streams[k]?.getD default).content
    | .file l =>
      match s.files.get? l with
      | some (.file data _) => lineLength 10 (data.drop o.offset)
      | _ => 1
    | .lost k => lineLength 10 ((s.lost[k]?.getD []).drop o.offset)
    | _ => 1
  read number length

/-- Reads all that is left of an open file. -/
def readAll (number : Nat) : Act (Except OsFault Narrow) :=
  read number (Nat.pow 2 62)

/-- How much of a stream is read at once. -/
def block : Nat := 4096

/-- Gives back what was read of an open file and not used, behind so many characters that were. Of
a stream, the block in which reading has stopped is kept. -/
def giveBack (number used : Nat) (unused : Narrow) : Act Unit :=
  modify fun s =>
    match s.openings[number]? with
    | none => s
    | some o =>
      match o.channel with
      | .stream k =>
        let rest := unused.drop ((block - used % block) % block)
        { s with streams := s.streams.modify k fun t => ⟨rest ++ t.content, []⟩ }
      | _ =>
        let back := { o with offset := o.offset - unused.length }
        { s with openings := s.openings.setIfInBounds number back }

/-- Octets with others written over them from an offset on. -/
def overlay (data : Octets) (offset : Nat) (octets : Octets) : Octets :=
  data.take offset ++ List.replicate (offset - data.length) 0 ++ octets
    ++ data.drop (offset + octets.length)

/-- Replaces an open file. -/
def setOpening (number : Nat) (o : Opening) : Act Unit :=
  modify fun s => { s with openings := s.openings.setIfInBounds number o }

/-- Writes to an open file. -/
def write (number : Nat) (text : Narrow) : Act (Except OsFault Unit) := do
  let s ← get
  let o := s.openings[number]?.getD default
  if !o.writes then return .error .badDescriptor
  match o.channel with
  | .directory => return .error .badDescriptor
  | .sink => return .ok ()
  | .full => return if text = [] then .ok () else .error .noRoom
  | .stream k =>
    set { s with streams := s.streams.modify k fun t => { t with arrived := text :: t.arrived } }
    return .ok ()
  | .file l =>
    match s.files.get? l with
    | some (.file data mode) =>
      let offset := if o.appends then data.length else o.offset
      let files := s.files.put l (.file (overlay data offset (Narrow.toOctets text)) mode)
      set { s with files := files }
      setOpening number { o with offset := offset + text.length }
      return .ok ()
    | _ => return .ok ()
  | .lost k =>
    let data := s.lost[k]?.getD []
    let offset := if o.appends then data.length else o.offset
    set { s with lost := s.lost.setIfInBounds k (overlay data offset (Narrow.toOctets text)) }
    setOpening number { o with offset := offset + text.length }
    return .ok ()

/-- Sets a file that is open at a location apart from its location. -/
def detach (l : Location) : Act Unit := do
  let s ← get
  match s.files.get? l with
  | some (.file data _) =>
    if s.openings.any fun o => o.channel == .file l then
      let openings := s.openings.map (Opening.lead (.file l) (.lost s.lost.size))
      set { s with lost := s.lost.push data, openings }
  | _ => return ()

/-- Removes what stands at a location. Who has it open keeps its content. -/
def unlink (l : Location) : Act Unit := do
  detach l
  modify fun s => { s with files := s.files.remove l }

/-- Moves what stands at a location, and all that is below it, to another one. -/
def rename (source target : Location) : Act Unit := do
  if source ≠ target then
    unlink target
    modify fun s =>
      let (moved, kept) := s.files.entries.partition fun e => source.isPrefixOf e.1
      { s with
        files := ⟨kept ++ moved.map fun e => (Location.renamed source target e.1, e.2)⟩
        openings := s.openings.map (Opening.follow source target) }

def newProcess : Act Nat := do
  let s ← get
  set { s with processes := s.processes + 1 }
  return s.processes + 1

def signal (process number : Nat) : Act Unit :=
  modify fun s => { s with signals := s.signals ++ [(process, number)] }

/-- Takes a step, unless none may be taken any more. -/
def step : Act Bool := do
  let s ← get
  if s.budget = 0 then return false
  else
    set { s with budget := s.budget - 1 }
    return true

/-- What has been written to a stream and not read. -/
def contentOf (s : System) (stream : Nat) : Narrow := (s.streams[stream]?.getD default).content

end System
end CjsxConversion
