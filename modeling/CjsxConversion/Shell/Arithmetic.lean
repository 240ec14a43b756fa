import CjsxConversion.Text.Numerals

/-!
# Arithmetic of the shell

An expression is read from left to right and computed on the way, with numbers of 64 bits. A
variable stands for the number that its value spells; an assignment is kept for the caller.

Operators that bind more tightly are computed first: behind an operand, `chain` looks
whether the next operator binds more tightly than the one before it. What is not wanted is read
without being computed.
-/

namespace CjsxConversion
namespace Arithmetic

/-- Operators with two operands. -/
inductive Operator where
  | mul | div | rem | add | sub | shiftLeft | shiftRight
  | less | lessEq | greater | greaterEq | eq | ne | band | bxor | bor
  deriving DecidableEq, Repr

/-- How loosely an operator binds. -/
def Operator.looseness : Operator → Nat
  | .mul | .div | .rem => 0
  | .add | .sub => 1
  | .shiftLeft | .shiftRight => 2
  | .less | .lessEq | .greater | .greaterEq => 3
  | .eq | .ne => 4
  | .band => 5
  | .bxor => 6
  | .bor => 7

/-- Looser than every operator. -/
def loosest : Nat := 8

/-- The tokens of an expression. -/
inductive Token where
  | number (n : Int)
  | name (cs : Narrow)
  | operator (o : Operator)
  | assign (o : Option Operator)
  | andAlso
  | orElse
  | not
  | complement
  | question
  | colon
  | opening
  | closing
  | bad
  deriving DecidableEq, Repr

/-- What is wrong with an expression. -/
inductive Fault where
  | expression (text : String)
  | number (value : Narrow)
  deriving Repr

/-- A number as it is kept in 64 bits. -/
def wrap (n : Int) : Int := Int.bmod n (Nat.pow 2 64)

/-- A number held within the limits of 64 bits. -/
def clamp (n : Int) : Int := max (-Nat.pow 2 63) (min n (Nat.pow 2 63 - 1))

/-- The tokens with a sign that may be followed by an equals sign. -/
def withEquals (o : Operator) (cs : Narrow) : Token × Narrow :=
  match cs with
  | '=' :: rest => (.assign (some o), rest)
  | rest => (.operator o, rest)

def readSign (cs : Narrow) : Token × Narrow :=
  match cs with
  | '=' :: '=' :: rest => (.operator .eq, rest)
  | '=' :: rest => (.assign none, rest)
  | '>' :: '=' :: rest => (.operator .greaterEq, rest)
  | '>' :: '>' :: rest => withEquals .shiftRight rest
  | '>' :: rest => (.operator .greater, rest)
  | '<' :: '=' :: rest => (.operator .lessEq, rest)
  | '<' :: '<' :: rest => withEquals .shiftLeft rest
  | '<' :: rest => (.operator .less, rest)
  | '|' :: '|' :: rest => (.orElse, rest)
  | '|' :: rest => withEquals .bor rest
  | '&' :: '&' :: rest => (.andAlso, rest)
  | '&' :: rest => withEquals .band rest
  | '!' :: '=' :: rest => (.operator .ne, rest)
  | '!' :: rest => (.not, rest)
  | '(' :: rest => (.opening, rest)
  | ')' :: rest => (.closing, rest)
  | '*' :: rest => withEquals .mul rest
  | '/' :: rest => withEquals .div rest
  | '%' :: rest => withEquals .rem rest
  | '+' :: rest => withEquals .add rest
  | '-' :: rest => withEquals .sub rest
  | '~' :: rest => (.complement, rest)
  | '^' :: rest => withEquals .bxor rest
  | '?' :: rest => (.question, rest)
  | ':' :: rest => (.colon, rest)
  | _ => (.bad, [])

/-- The tokens of an expression. The bound is its length. -/
def tokens : Nat → Narrow → List Token
  | 0, _ => []
  | _ + 1, [] => []
  | n + 1, c :: cs =>
    if c = ' ' ∨ c = '\t' ∨ c = '\n' then tokens n cs
    else if Narrow.isDigit c then
      let w := Numerals.readWhole none (c :: cs)
      .number (clamp w.value) :: tokens n w.rest
    else if Narrow.beginsName c then
      let name := (c :: cs).takeWhile Narrow.inName
      .name name :: tokens n ((c :: cs).drop name.length)
    else
      let (t, rest) := readSign (c :: cs)
      t :: tokens n rest

/-- Two numbers of 64 bits with every bit of one beside that of the other. -/
def bitwise (f : Nat → Nat → Nat) (a b : Int) : Int :=
  wrap (f (a % Nat.pow 2 64).toNat (b % Nat.pow 2 64).toNat)

/-- Whether something holds, as a number. -/
def truth (p : Bool) : Int := if p then 1 else 0

/-- The result of an operator. There is none for a division by zero. -/
def Operator.apply (o : Operator) (a b : Int) : Option Int :=
  match o with
  | .mul => some (wrap (a * b))
  | .div => if b = 0 then none else some (wrap (a.tdiv b))
  | .rem => if b = 0 then none else some (wrap (a.tmod b))
  | .add => some (wrap (a + b))
  | .sub => some (wrap (a - b))
  | .shiftLeft => some (wrap (a * Nat.pow 2 (b % 64).toNat))
  | .shiftRight => some (a.fdiv (Nat.pow 2 (b % 64).toNat))
  | .less => some (truth (a < b))
  | .lessEq => some (truth (a ≤ b))
  | .greater => some (truth (b < a))
  | .greaterEq => some (truth (b ≤ a))
  | .eq => some (truth (a = b))
  | .ne => some (truth (a ≠ b))
  | .band => some (bitwise Nat.land a b)
  | .bxor => some (bitwise Nat.xor a b)
  | .bor => some (bitwise Nat.lor a b)

/-- A computation that has begun. -/
structure Progress where
  rest : List Token
  value : Narrow → Option Narrow
  assigned : List (Narrow × Int) := []

/-- What computes a part of an expression. -/
abbrev Computing := StateT Progress (Except Fault)

def refuse {α : Type} (text : String) : Computing α := throw (.expression text)

/-- The next token, which is not taken. -/
def peek : Computing (Option Token) := return (← get).rest.head?

def take : Computing (Option Token) := modifyGet fun p => (p.rest.head?, { p with rest := p.rest.drop 1 })

def numberOf (value : Narrow) : Option Int :=
  let w := Numerals.readWhole none value
  let rest := if w.found then w.rest else value
  if rest.all Narrow.isSpace ∧ clamp w.value = w.value then some w.value else none

/-- The number that a variable stands for. -/
def lookUp (name : Narrow) : Computing Int := do
  let p ← get
  match p.assigned.find? fun a => a.1 = name with
  | some (_, n) => return n
  | none =>
    let value := (p.value name).getD []
    match numberOf value with
    | some n => return n
    | none => throw (.number value)

def operate (o : Operator) (a b : Int) (wanted : Bool) : Computing Int :=
  if !wanted then return b
  else
    match o.apply a b with
    | some n => return n
    | none => refuse "division by zero"

mutual

/-- An operand behind its first token. -/
def primary : Nat → Option Token → Bool → Computing Int
  | 0, _, _ => refuse "expecting primary"
  | n + 1, t, wanted => do
    match t with
    | some .opening =>
      let v ← assignment n wanted
      if (← take) ≠ some .closing then refuse "expecting ')'"
      return v
    | some (.number v) => return v
    | some (.name cs) => if wanted then lookUp cs else return 0
    | some (.operator .add) => primary n (← take) wanted
    | some (.operator .sub) => return wrap (-(← primary n (← take) wanted))
    | some .not => return truth ((← primary n (← take) wanted) = 0)
    | some .complement => return wrap (-(← primary n (← take) wanted) - 1)
    | _ => refuse "expecting primary"

/-- The operators behind an operand, up to one that binds at least as loosely as a limit. -/
def chain : Nat → Int → Operator → Nat → Bool → Computing Int
  | 0, _, _, _, _ => refuse "expecting primary"
  | n + 1, a, o, limit, wanted => do
    let _ ← take
    let b ← primary n (← take) wanted
    let b ← match ← peek with
      | some (.operator p) =>
        if p.looseness < o.looseness then chain n b p o.looseness wanted else pure b
      | _ => pure b
    let a ← operate o a b wanted
    match ← peek with
    | some (.operator p) => if p.looseness < limit then chain n a p limit wanted else return a
    | _ => return a

/-- Operands with operators between them. -/
def binary : Nat → Option Token → Bool → Computing Int
  | 0, _, _ => refuse "expecting primary"
  | n + 1, t, wanted => do
    let a ← primary n t wanted
    match ← peek with
    | some (.operator o) => chain n a o loosest wanted
    | _ => return a

/-- Conditions that must all hold. -/
def conjunction : Nat → Option Token → Bool → Computing Int
  | 0, _, _ => refuse "expecting primary"
  | n + 1, t, wanted => do
    let a ← binary n t wanted
    match ← peek with
    | some .andAlso =>
      let _ ← take
      let b ← conjunction n (← take) (wanted && a ≠ 0)
      return truth (a ≠ 0 ∧ b ≠ 0)
    | _ => return a

/-- Conditions of which one must hold. -/
def disjunction : Nat → Option Token → Bool → Computing Int
  | 0, _, _ => refuse "expecting primary"
  | n + 1, t, wanted => do
    let a ← conjunction n t wanted
    match ← peek with
    | some .orElse =>
      let _ ← take
      let b ← disjunction n (← take) (wanted && a = 0)
      return truth (a ≠ 0 ∨ b ≠ 0)
    | _ => return a

def choice : Nat → Option Token → Bool → Computing Int
  | 0, _, _ => refuse "expecting primary"
  | n + 1, t, wanted => do
    let a ← disjunction n t wanted
    match ← peek with
    | some .question =>
      let _ ← take
      let b ← assignment n (wanted && a ≠ 0)
      if (← take) ≠ some .colon then refuse "expecting ':'"
      let c ← choice n (← take) (wanted && a = 0)
      return if a ≠ 0 then b else c
    | _ => return a

/-- An expression, which may assign a value to a variable. -/
def assignment : Nat → Bool → Computing Int
  | 0, _ => refuse "expecting primary"
  | n + 1, wanted => do
    let t ← take
    match t, ← peek with
    | some (.name cs), some (.assign o) =>
      let _ ← take
      let v ← assignment n wanted
      if !wanted then return v
      let v ← match o with
        | none => pure v
        | some o => operate o (← lookUp cs) v wanted
      modify fun p => { p with assigned := (cs, v) :: p.assigned }
      return v
    | t, _ => choice n t wanted

end

/-- The value of an expression, and its assignments in their order. -/
def evaluate (value : Narrow → Option Narrow) (text : Narrow) :
    Except Fault (Int × List (Narrow × Int)) :=
  let ts := tokens (text.length + 1) text
  let compute : Computing Int := do
    let v ← assignment (8 * ts.length + 16) true
    if (← peek).isSome then refuse "expecting EOF"
    return v
  match compute.run { rest := ts, value } with
  | .ok (v, p) => .ok (v, p.assigned.reverse)
  | .error fault => .error fault

end Arithmetic
end CjsxConversion
