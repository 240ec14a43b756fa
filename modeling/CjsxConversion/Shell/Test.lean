import CjsxConversion.Shell.State

/-!
# Testing

`test` says whether a condition holds: about a text, about two texts or numbers, or about a file.
Conditions are joined by operators.

The words are read from left to right. Each reader is given the kind of the word
where it stands, and answers with the words from the last one on that it has used. What a word
means may depend on the words behind it.
-/

namespace CjsxConversion
namespace Shell
namespace Test

/-- Conditions on one word. -/
inductive Unary where
  | readable
  | writable
  | runnable
  | present
  | file
  | directory
  | device
  | never
  | bit (mask : Nat)
  | filled
  | terminal
  | empty
  | nonempty
  | link
  deriving DecidableEq, Repr

/-- Conditions on two words. -/
inductive Binary where
  | same | different | before | behind | eq | ne | ge | gt | le | lt | newer | older | sameFile
  deriving DecidableEq, Repr

/-- What a word means. -/
inductive Kind where
  | none
  | operand
  | unary (u : Unary)
  | binary (b : Binary)
  | not
  | both
  | either
  | opening
  | closing
  deriving DecidableEq, Repr

def operators : List (String × Kind) :=
  [("-r", .unary .readable), ("-w", .unary .writable), ("-x", .unary .runnable),
   ("-e", .unary .present), ("-f", .unary .file), ("-d", .unary .directory),
   ("-c", .unary .device), ("-b", .unary .never), ("-p", .unary .never),
   ("-u", .unary (.bit 0o4000)), ("-g", .unary (.bit 0o2000)), ("-k", .unary (.bit 0o1000)),
   ("-s", .unary .filled), ("-t", .unary .terminal), ("-z", .unary .empty),
   ("-n", .unary .nonempty), ("-h", .unary .link), ("-O", .unary .present),
   ("-G", .unary .present), ("-L", .unary .link), ("-S", .unary .never),
   ("=", .binary .same), ("!=", .binary .different), ("<", .binary .before),
   (">", .binary .behind), ("-eq", .binary .eq), ("-ne", .binary .ne), ("-ge", .binary .ge),
   ("-gt", .binary .gt), ("-le", .binary .le), ("-lt", .binary .lt), ("-nt", .binary .newer),
   ("-ot", .binary .older), ("-ef", .binary .sameFile), ("!", .not), ("-a", .both),
   ("-o", .either), ("(", .opening), (")", .closing)]

def operator? (w : Narrow) : Option Kind := (operators.find? fun e => e.1.toList = w).map (·.2)

/-- Whether a word is a condition on the words around it. -/
def isBinary (w : Narrow) : Bool :=
  match operator? w with
  | some (.binary _) => true
  | _ => false

/-- What the first of some words means. -/
def kindOf (ws : List Narrow) : Kind :=
  match ws with
  | [] => .none
  | w :: rest =>
    match operator? w, rest with
    | some (.unary _), [] => .operand
    | some (.unary u), [_] => .unary u
    | some (.unary u), x :: _ => if isBinary x then .operand else .unary u
    | some .opening, [] => .operand
    | some k, _ => k
    | none, _ => .operand

def refuse {α : Type} (word : Narrow) (text : String) : Sh α :=
  if word = [] then failWith text.toList else failAbout word text

/-- What stands where a path leads. -/
def nodeAt (follow : Bool) (path : Narrow) : Sh (Option (Location × FileNode)) := do
  let s ← get
  let t := (← act get).files
  match t.locate follow s.proc.here (System.pathOf path) with
  | .error _ => return none
  | .ok l => return (t.get? l).map fun n => (l, n)

/-- The permission bits of what stands at a place. -/
def modeOf : FileNode → Nat
  | .directory => 0o755
  | .file _ mode => mode
  | .link _ => 0o777
  | .sink | .full => 0o666

/-- Whether a condition on a word holds. -/
def holds (u : Unary) (w : Narrow) : Sh Bool := do
  match u with
  | .empty => return w.isEmpty
  | .nonempty => return !w.isEmpty
  | .terminal =>
    let _ ← intOf w
    return false
  | .never => return false
  | .link => return (← nodeAt false w).any fun e => match e.2 with
    | .link _ => true
    | _ => false
  | u =>
    return (← nodeAt true w).any fun e =>
      match u with
      | .runnable => e.2 = .directory || modeOf e.2 &&& 0o111 != 0
      | .file => match e.2 with
        | .file _ _ => true
        | _ => false
      | .directory => e.2 = .directory
      | .device => e.2 = .sink || e.2 = .full
      | .bit mask => modeOf e.2 &&& mask != 0
      | .filled => match e.2 with
        | .file data _ => !data.isEmpty
        | .directory => true
        | _ => false
      | _ => true

/-- Whether a condition on two words holds. -/
def compare (b : Binary) (x y : Narrow) : Sh Bool := do
  match b with
  | .same => return x = y
  | .different => return x ≠ y
  | .before => return Narrow.compare x y = .lt
  | .behind => return Narrow.compare x y = .gt
  | .newer | .older => return false
  | .sameFile =>
    match ← nodeAt true x, ← nodeAt true y with
    | some (k, _), some (l, _) => return k = l
    | _, _ => return false
  | b =>
    let i ← intOf x
    let j ← intOf y
    return match b with
      | .eq => i = j
      | .ne => i ≠ j
      | .ge => j ≤ i
      | .gt => j < i
      | .le => i ≤ j
      | _ => i < j

mutual

/-- Conditions of which one must hold. -/
def either : Nat → Kind → List Narrow → Sh (Bool × List Narrow)
  | 0, _, ws => return (false, ws)
  | n + 1, k, ws => do
    let (p, ws) ← both n k ws
    if kindOf (ws.drop 1) = .either then
      let ws := ws.drop 2
      let (q, ws) ← either n (kindOf ws) ws
      return (p || q, ws)
    else return (p, ws)

/-- Conditions that must all hold. -/
def both : Nat → Kind → List Narrow → Sh (Bool × List Narrow)
  | 0, _, ws => return (false, ws)
  | n + 1, k, ws => do
    let (p, ws) ← negated n k ws
    if kindOf (ws.drop 1) = .both then
      let ws := ws.drop 2
      let (q, ws) ← both n (kindOf ws) ws
      return (p && q, ws)
    else return (p, ws)

/-- A condition that may be negated. -/
def negated : Nat → Kind → List Narrow → Sh (Bool × List Narrow)
  | 0, _, ws => return (false, ws)
  | n + 1, k, ws => do
    if k = .not then
      let k := kindOf (ws.drop 1)
      let (p, ws) ← negated n k (if k = .none then ws else ws.drop 1)
      return (!p, ws)
    else primary n k ws

/-- A single condition. -/
def primary : Nat → Kind → List Narrow → Sh (Bool × List Narrow)
  | 0, _, ws => return (false, ws)
  | n + 1, k, ws => do
    match k with
    | .none => return (false, ws)
    | .opening =>
      let ws := ws.drop 1
      if kindOf ws = .closing then return (false, ws)
      let (p, ws) ← either n (kindOf ws) ws
      if kindOf (ws.drop 1) = .closing then return (p, ws.drop 1)
      refuse [] "closing paren expected"
    | .unary u =>
      match ws with
      | _ :: w :: rest => return (← holds u w, w :: rest)
      | w :: _ => refuse w "argument expected"
      | [] => return (false, [])
    | _ =>
      match ws, kindOf (ws.drop 1) with
      | x :: _ :: y :: rest, .binary b => return (← compare b x y, y :: rest)
      | _ :: o :: _, .binary _ => refuse o "argument expected"
      | x :: _, _ => return (!x.isEmpty, ws)
      | [], _ => return (false, [])

end

/-- Whether the condition of some words holds. The bound is their number. -/
def evaluate : Nat → Bool → List Narrow → Sh Bool
  | 0, isNot, _ => return isNot
  | n + 1, isNot, ws => do
    let finish (k : Kind) (ws : List Narrow) : Sh Bool := do
      let (p, ws) ← either (8 * ws.length + 16) k ws
      match ws with
      | w :: _ :: _ => refuse w "unexpected operator"
      | _ => return p != isNot
    let usual (ws : List Narrow) : Sh Bool := do
      if ws.length = 3 ∨ ws.length = 4 then
        if ws.head? = some ['('] ∧ ws.getLast? = some [')'] then
          let ws := (ws.drop 1).dropLast
          finish (kindOf ws) ws
        else if ws.head? = some ['!'] then evaluate n (!isNot) (ws.drop 1)
        else finish (kindOf ws) ws
      else finish (kindOf ws) ws
    match ws with
    | [] => return isNot
    | [_, o, _] => if isBinary o then finish .operand ws else usual ws
    | ws => usual ws

/-- Tests the condition of some words. In brackets, the last word closes them. -/
def run (inBrackets : Bool) (args : List Narrow) : Sh Nat := do
  if inBrackets ∧ args.getLast? ≠ some [']'] then failWith "missing ]".toList
  let ws := if inBrackets then args.dropLast else args
  return if ← evaluate (ws.length + 1) false ws then 0 else 1

end Test
end Shell
end CjsxConversion
