import CjsxConversion.Host.Proc
import CjsxConversion.Text.Numerals

/-!
# Testing a condition

`test` says by its status whether a condition holds. What few words mean depends on their number;
more words are read as conditions that are joined by operators.
-/

namespace CjsxConversion
namespace Condition

/-- What reads a condition. A fault is what is said about it. -/
abbrev Testing := ExceptT Narrow Job

def refuse {α : Type} (text : Narrow) : Testing α := throw text

/-- Whether a word is a condition on two words. -/
def isBinary (w : Narrow) : Bool :=
  ["=", "==", "!=", "-eq", "-ne", "-lt", "-le", "-gt", "-ge", "-nt", "-ot",
   "-ef"].contains (String.ofList w)

/-- What stands where a path leads. -/
def nodeAt (follow : Bool) (path : Narrow) : Testing (Option (Location × FileNode)) := do
  let p ← read
  let t := (← get).files
  match t.locate follow p.here (System.pathOf path) with
  | .error _ => return none
  | .ok l => return (t.get? l).map fun n => (l, n)

/-- The number that a word spells. -/
def intOf (w : Narrow) : Testing Int := do
  let n := Numerals.readWhole (some 10) w
  if n.found ∧ n.rest.all Narrow.isBlank then return n.value
  else refuse ("invalid integer ".toList ++ Quoting.phrase w)

/-- Whether a condition on one word holds. -/
def unary (letter : Char) (w : Narrow) : Testing Bool := do
  match letter with
  | 'n' => return !w.isEmpty
  | 'z' => return w.isEmpty
  | 't' =>
    let _ ← intOf w
    return false
  | 'h' | 'L' => return (← nodeAt false w).any fun e => match e.2 with
    | .link _ => true
    | _ => false
  | 'b' | 'p' | 'S' | 'N' => return false
  | letter =>
    if !"cdefgGkOrsuwx".toList.contains letter then
      refuse (Quoting.phrase ['-', letter] ++ ": unary operator expected".toList)
    return (← nodeAt true w).any fun e =>
      match letter, e.2 with
      | 'c', n => n = .sink || n = .full
      | 'd', n => n = .directory
      | 'f', .file _ _ => true
      | 'f', _ => false
      | 's', .file data _ => !data.isEmpty
      | 's', n => n = .directory
      | 'x', .file _ mode => mode &&& 0o111 != 0
      | 'x', n => n = .directory
      | 'u', .file _ mode => mode &&& 0o4000 != 0
      | 'g', .file _ mode => mode &&& 0o2000 != 0
      | 'k', .file _ mode => mode &&& 0o1000 != 0
      | 'u', _ | 'g', _ | 'k', _ => false
      | _, _ => true

/-- Whether a condition on two words holds. -/
def binary (operator x y : Narrow) : Testing Bool := do
  match String.ofList operator with
  | "=" | "==" => return x = y
  | "!=" => return x ≠ y
  | "-nt" => return (← nodeAt true x).isSome && (← nodeAt true y).isNone
  | "-ot" => return (← nodeAt true x).isNone && (← nodeAt true y).isSome
  | "-ef" =>
    match ← nodeAt true x, ← nodeAt true y with
    | some (k, _), some (l, _) => return k = l
    | _, _ => return false
  | operator =>
    let i ← intOf x
    let j ← intOf y
    return match operator with
      | "-eq" => i = j
      | "-ne" => i ≠ j
      | "-lt" => i < j
      | "-le" => i ≤ j
      | "-gt" => j < i
      | _ => j ≤ i

/-- A word as a condition. -/
def ofOne (ws : List Narrow) : Bool × List Narrow := (ws.head? ≠ some [], ws.drop 1)

/-- A condition on the word behind its letter, and what follows it. The last of all words is named
where there is none. -/
def ofLetter (last : Narrow) (letter : Char) (ws : List Narrow) : Testing (Bool × List Narrow) := do
  match ws with
  | [] => refuse ("missing argument after ".toList ++ Quoting.phrase last)
  | w :: rest => return (← unary letter w, rest)

/-- Two words as a condition, and what follows them. -/
def ofTwo (last : Narrow) (ws : List Narrow) : Testing (Bool × List Narrow) := do
  match ws with
  | ['!'] :: ws =>
    let (p, rest) := ofOne ws
    return (!p, rest)
  | ['-', letter] :: ws => ofLetter last letter ws
  | _ => refuse ("missing argument after ".toList ++ Quoting.phrase last)

mutual

/-- Conditions of which one must hold, and what follows them. -/
def either (last : Narrow) : Nat → List Narrow → Testing (Bool × List Narrow)
  | 0, ws => return (false, ws)
  | n + 1, ws => do
    let (p, rest) ← both last n ws
    match rest with
    | ['-', 'o'] :: ws =>
      let (q, rest) ← either last n ws
      return (p || q, rest)
    | rest => return (p, rest)

/-- Conditions that must all hold, and what follows them. -/
def both (last : Narrow) : Nat → List Narrow → Testing (Bool × List Narrow)
  | 0, ws => return (false, ws)
  | n + 1, ws => do
    let (p, rest) ← single last n ws
    match rest with
    | ['-', 'a'] :: ws =>
      let (q, rest) ← both last n ws
      return (p && q, rest)
    | rest => return (p, rest)

/-- A single condition, and what follows it. -/
def single (last : Narrow) : Nat → List Narrow → Testing (Bool × List Narrow)
  | 0, ws => return (false, ws)
  | n + 1, ws => do
    match ws with
    | [] => refuse ("missing argument after ".toList ++ Quoting.phrase last)
    | ['!'] :: ws =>
      let (p, rest) ← single last n ws
      return (!p, rest)
    | ['('] :: ws =>
      if ws = [] then refuse ("missing argument after ".toList ++ Quoting.phrase last)
      let inner := 1 + ((ws.drop 1).takeWhile (· ≠ [')'])).length
      let (p, rest) ← ofCount last n (if inner ≤ 4 then inner else ws.length) ws
      match rest with
      | [')'] :: rest => return (p, rest)
      | [] => refuse (Quoting.phrase [')'] ++ " expected".toList)
      | w :: _ =>
        refuse (Quoting.phrase [')'] ++ " expected, found ".toList ++ Quoting.phrase w)
    | ws =>
      match ws with
      | x :: o :: y :: rest =>
        if isBinary o then return (← binary o x y, rest)
      | _ => pure ()
      match ws with
      | ['-', letter] :: rest => ofLetter last letter rest
      | ws => return ofOne ws

/-- Three words as a condition, and what follows them. -/
def ofThree (last : Narrow) : Nat → List Narrow → Testing (Bool × List Narrow)
  | 0, ws => return (false, ws)
  | n + 1, ws => do
    match ws with
    | x :: o :: z :: rest =>
      if isBinary o then return (← binary o x z, rest)
      else if x = ['!'] then
        let (p, rest) ← ofTwo last (o :: z :: rest)
        return (!p, rest)
      else if x = ['('] ∧ z = [')'] then return (!o.isEmpty, rest)
      else if ["-a", "-o"].contains (String.ofList o) then either last n ws
      else refuse (Quoting.phrase o ++ ": binary operator expected".toList)
    | ws => return (false, ws)

/-- So many words as a condition, and what follows them. -/
def ofCount (last : Narrow) : Nat → Nat → List Narrow → Testing (Bool × List Narrow)
  | 0, _, ws => return (false, ws)
  | n + 1, count, ws => do
    match count with
    | 1 => return ofOne ws
    | 2 => ofTwo last ws
    | 3 => ofThree last n ws
    | 4 =>
      match ws with
      | ['!'] :: ws =>
        let (p, rest) ← ofThree last n ws
        return (!p, rest)
      | ['('] :: x :: y :: [')'] :: rest =>
        let (p, _) ← ofTwo last (x :: y :: [')'] :: rest)
        return (p, rest)
      | ws => either last n ws
    | _ => either last n ws

end

/-- Whether the condition of some words holds. -/
def evaluate (ws : List Narrow) : Testing Bool := do
  if ws = [] then return false
  let (p, rest) ← ofCount (ws.getLast?.getD []) (16 * ws.length + 16) ws.length ws
  match rest with
  | [] => return p
  | w :: _ => refuse ("extra argument ".toList ++ Quoting.phrase w)

def run (name : Narrow) (args : List Narrow) : Job Nat := do
  match ← (evaluate args).run with
  | .ok p => return if p then 0 else 1
  | .error text =>
    Job.complain name text
    return 2

/-- Runs the program under the name that is a bracket. -/
def runBracketed (name : Narrow) (args : List Narrow) : Job Nat := do
  match args.reverse with
  | [']'] :: words => run name words.reverse
  | _ =>
    Job.complain name ("missing ".toList ++ Quoting.phrase [']'])
    return 2

end Condition
end CjsxConversion
