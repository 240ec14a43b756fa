import CjsxConversion.Text.Utf8

/-!
# Control sequences of terminals

A text may hold sequences that a terminal obeys instead of showing them. `plain` takes them out of
a text, and `width` counts the columns that a line of text takes.

`plain` follows the states of a terminal octet by octet. What the terminal would
print is kept, and so is white space that it would obey; where something is kept, the sequence
that was open is over.
-/

namespace CjsxConversion
namespace Terminal

/-- What a terminal is waiting for. -/
inductive Phase where
  | ground
  | escape
  | escapeTail
  | control
  | controlParameter
  | controlTail
  | controlLost
  | device
  | deviceParameter
  | deviceTail
  | lost
  | command
  deriving DecidableEq, Repr

/-- What a terminal does with an octet. -/
inductive Action where
  | shows
  | obeys
  | takes
  deriving DecidableEq, Repr

/-- Whether a number lies between two others. -/
def between (a b n : Nat) : Bool := a ≤ n && n ≤ b

/-- Whether an octet is a control character. -/
def isControl (n : Nat) : Bool := n < 32

/-- What an octet does between sequences. -/
def atGround (n : Nat) : Action :=
  if between 0x20 0x7E n || between 0xC2 0xF4 n then .shows
  else if isControl n then .obeys
  else .takes

/-- What follows an escape character. -/
def afterEscape (n : Nat) : Phase :=
  if between 0x20 0x2F n then .escapeTail
  else if n = 0x5B then .control
  else if n = 0x5D then .command
  else if n = 0x50 then .device
  else if n = 0x58 || n = 0x5E || n = 0x5F then .lost
  else if between 0x30 0x7E n then .ground
  else .escape

/-- What an octet does to a terminal in a phase. -/
def step (p : Phase) (n : Nat) : Phase × Action :=
  if n = 0x18 || n = 0x1A then (.ground, .obeys)
  else if n = 0x1B then (.escape, .takes)
  else
    match p with
    | .ground => (.ground, atGround n)
    | .escape => if isControl n then (p, .obeys) else (afterEscape n, .takes)
    | .escapeTail =>
      if isControl n then (p, .obeys)
      else (if between 0x30 0x7E n then .ground else p, .takes)
    | .control =>
      if isControl n then (p, .obeys)
      else if between 0x20 0x2F n then (.controlTail, .takes)
      else if between 0x30 0x3F n then (.controlParameter, .takes)
      else (if between 0x40 0x7E n then .ground else p, .takes)
    | .controlParameter =>
      if isControl n then (p, .obeys)
      else if between 0x20 0x2F n then (.controlTail, .takes)
      else if between 0x3C 0x3F n then (.controlLost, .takes)
      else (if between 0x40 0x7E n then .ground else p, .takes)
    | .controlTail =>
      if isControl n then (p, .obeys)
      else if between 0x30 0x3F n then (.controlLost, .takes)
      else (if between 0x40 0x7E n then .ground else p, .takes)
    | .controlLost =>
      if isControl n then (p, .obeys)
      else (if between 0x40 0x7E n then .ground else p, .takes)
    | .device =>
      if between 0x20 0x2F n then (.deviceTail, .takes)
      else if between 0x30 0x3F n then (.deviceParameter, .takes)
      else (if between 0x40 0x7E n then .lost else p, .takes)
    | .deviceParameter =>
      if between 0x20 0x2F n then (.deviceTail, .takes)
      else (if between 0x3C 0x7E n then .lost else p, .takes)
    | .deviceTail => (if between 0x30 0x7E n then .lost else p, .takes)
    | .lost => (if n = 0x9C then .ground else p, .takes)
    | .command => (if n = 0x07 then .ground else p, .takes)

/-- White space that is kept although a terminal obeys it. -/
def isSpace (n : Nat) : Bool :=
  n = 0x09 || n = 0x0A || n = 0x0C || n = 0x0D || n = 0x20

/-- Whether an octet is kept, given what a terminal does with it. -/
def isKept (a : Action) (n : Nat) : Bool :=
  match a with
  | .shows => true
  | .obeys => isSpace n
  | .takes => false

/-- Whether an octet continues a character of several octets. -/
def continues (n : Nat) : Bool := between 0x80 0xBF n

/-- The octets that are kept, from a phase on. The flag tells whether the last octet was kept. -/
def keepFrom : Phase → Bool → Octets → Octets
  | _, _, [] => []
  | p, running, b :: rest =>
    let n := b.toNat
    let p := if running then .ground else p
    let (q, a) := step p n
    if isKept a n || (running && continues n) then b :: keepFrom .ground true rest
    else keepFrom q false rest

/-- A text without the sequences that a terminal obeys. -/
def plain (s : String) : String :=
  Utf8.decodeLossy (keepFrom .ground false (Utf8.encode s))

/-- The columns that characters take. A control character hides what follows it, up to the letter
m. -/
def columnsFrom : Bool → List Char → Nat
  | _, [] => 0
  | hidden, c :: cs =>
    if c.toNat < 32 || c.toNat = 127 then columnsFrom true cs
    else if hidden then columnsFrom (c ≠ 'm') cs
    else 1 + columnsFrom false cs

/-- The columns that a text takes. -/
def width (s : String) : Nat := columnsFrom false s.toList

end Terminal
end CjsxConversion
