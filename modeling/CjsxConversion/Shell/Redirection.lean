import CjsxConversion.Shell.Expansion

/-!
# Redirections

A redirection gives an open file to the commands that follow, under a number: a file of a path, a
file that is open already, or a document. It may hold for one command only; then what the number
stood for before is brought back.

A file that cannot be opened is an error, which the caller may catch.
-/

namespace CjsxConversion
namespace Shell

/-- A redirection whose words have been replaced. -/
inductive Target where
  | file (fd : Nat) (kind : RedirKind) (path : Narrow)
  | dup (fd : Nat) (source : Option Nat)
  | document (fd : Nat) (word : Word) (literal : Bool)
  deriving Inhabited

/-- The number that a redirection is about. -/
def Target.fd : Target → Nat
  | .file fd _ _ => fd
  | .dup fd _ => fd
  | .document fd _ _ => fd

/-- A state in which a number stands for an open file, or for none. -/
def State.setDescriptor (s : State) (fd : Nat) (opening? : Option Nat) : State :=
  let others := s.proc.descriptors.filter fun e => e.1 ≠ fd
  let descriptors := match opening? with
    | some n => (fd, n) :: others
    | none => others
  { s with proc := { s.proc with descriptors } }

/-- Replaces the words of redirections. -/
def expandRedirs (back : Option Command → Sh Narrow) : List Redir → Sh (List Target)
  | [] => return []
  | r :: rs => do
    let target : Target ← match r with
      | .file fd kind word => do pure (.file fd kind (← expandText back { home := true } word))
      | .dup fd source => pure (.dup fd source)
      | .dupWord fd word =>
        match ← expandText back { home := true } word with
        | ['-'] => pure (.dup fd none)
        | [d] =>
          if Narrow.isDigit d then pure (.dup fd (some (d.toNat - 48)))
          else failScript ⟨(← get).reader.line, "Bad fd number".toList⟩
        | _ => failScript ⟨(← get).reader.line, "Bad fd number".toList⟩
      | .document fd number literal =>
        pure (.document fd ((← get).reader.documents[number]?.getD []) literal)
    return target :: (← expandRedirs back rs)

/-- Fails for a file that cannot be opened. -/
def failOpen {α : Type} (makes : Bool) (path : Narrow) (fault : OsFault) : Sh α :=
  let reason := if fault = .noEntry ∨ fault = .notDirectory then
      if makes then "Directory nonexistent" else "No such file"
    else fault.sentence
  failWith ((if makes then "cannot create " else "cannot open ").toList ++ path ++ ": ".toList
    ++ reason.toList)

/-- Whether there is a file that must not be written over. -/
def isProtected (path : Narrow) : Sh Bool := do
  let s ← get
  let t := (← act get).files
  return match t.locate true s.proc.here (System.pathOf path) with
    | .ok l => match t.get? l with
      | some (.file _ _) => s.has 'C'
      | _ => false
    | .error _ => false

/-- How a redirection opens its file. -/
def RedirKind.mode : RedirKind → OpenMode
  | .input => .read
  | .output | .clobber => .overwrite
  | .append => .append
  | .both => .readWrite

/-- Makes a redirection. -/
def redirect (back : Option Command → Sh Narrow) (target : Target) : Sh Unit := do
  match target with
  | .file fd kind path =>
    if kind = .output then
      if ← isProtected path then failOpen true path .exists
    match ← act ((← get).proc.openFile path kind.mode) with
    | .ok n => modify fun s => s.setDescriptor fd (some n)
    | .error fault => failOpen (kind ≠ .input) path fault
  | .dup fd none => modify fun s => s.setDescriptor fd none
  | .dup fd (some source) =>
    if source ≠ fd then
      match (← get).proc.opening? source with
      | some n => modify fun s => s.setDescriptor fd (some n)
      | none => failAbout (Narrow.ofNat source) OsFault.badDescriptor.sentence
  | .document fd word literal =>
    let text ← if literal then pure (Word.letters word)
      else expandText back { quoted := true } word
    let n ← act (System.openText text)
    modify fun s => s.setDescriptor fd (some n)

/-- Makes redirections. -/
def redirectAll (back : Option Command → Sh Narrow) : List Target → Sh Unit
  | [] => return ()
  | t :: ts => do
    redirect back t
    redirectAll back ts

/-- Makes redirections, and tells whether that was possible. -/
def tryRedirect (back : Option Command → Sh Narrow) (targets : List Target) : Sh Bool := do
  match ← attempt (redirectAll back targets) with
  | .ok () => return true
  | .error .error => return false
  | .error leave => throw leave

/-- Keeps in mind what the numbers of redirections stand for. -/
def keepDescriptors (targets : List Target) : Sh Unit :=
  modify fun s =>
    let old := targets.map fun t => (t.fd, s.proc.opening? t.fd)
    { s with redirected := old :: s.redirected }

/-- Brings back what numbers stood for. -/
def bringBackDescriptors : List (Nat × Option Nat) → State → State
  | [], s => s
  | (fd, old) :: rest, s => bringBackDescriptors rest (s.setDescriptor fd old)

/-- Ends the latest redirections, down to so many of them. -/
def dropRedirections (count : Nat) : Sh Unit :=
  modify fun s =>
    let extra := s.redirected.take (s.redirected.length - count)
    bringBackDescriptors extra.flatten { s with redirected := s.redirected.drop extra.length }

/-- Lets the latest redirections hold for ever. -/
def settleRedirections : Sh Unit := modify fun s => { s with redirected := s.redirected.drop 1 }

end Shell
end CjsxConversion
