import CjsxConversion.Pattern.RegexText

/-!
# Scripts of the stream editor

A script of the stream editor is a list of commands. A command applies to the lines that its
addresses pick, and does something to the text that is worked on. A block is a command that jumps
behind its end where its addresses do not pick the line.
-/

namespace CjsxConversion
namespace Sed

/-- A regular expression of a script. One that is empty stands for the last one that was used. -/
structure Matcher where
  regex : Option Regex
  mode : MatchMode := {}
  deriving Repr, Inhabited

/-- The address of a line. -/
inductive Address where
  | line (n : Nat)
  | step (first each : Nat)
  | last
  | matching (m : Matcher)
  | further (n : Nat)
  | multiple (n : Nat)
  deriving Repr, Inhabited

/-- Whether an address with a step picks a line. -/
def picksStep (first each n : Nat) : Bool :=
  if each = 0 then n = first else first ≤ n && (n - first) % each = 0

/-- How the case of what is put in is changed. -/
inductive CaseChange where
  | upper
  | lower
  | off
  | upperOne
  | lowerOne
  deriving DecidableEq, Repr

/-- A part of what is put in for a match. -/
inductive Insert where
  | char (c : Char)
  | group (n : Nat)
  | change (c : CaseChange)
  deriving DecidableEq, Repr

/-- A replacement of what matches. -/
structure Substitution where
  matcher : Matcher
  inserts : List Insert
  all : Bool := false
  number : Nat := 1
  prints : Bool := false
  runs : Bool := false
  printsFirst : Bool := false
  file : Option Narrow := none
  deriving Repr, Inhabited

/-- What a command does. -/
inductive Action where
  | opens (behind : Nat)
  | nothing
  | number
  | append (text : Narrow)
  | insert (text : Narrow)
  | change (text : Narrow)
  | jump (target : Nat)
  | jumpIf (target : Nat)
  | jumpUnless (target : Nat)
  | delete
  | deleteFirst
  | execute (command : Narrow)
  | fileName
  | getKept
  | getKeptBehind
  | keep
  | keepBehind
  | list (length : Option Nat)
  | withdrawn (letter : Char)
  | next
  | nextBehind
  | print
  | printFirst
  | quit (status : Nat)
  | quitSilently (status : Nat)
  | readFile (path : Narrow)
  | readLine (path : Narrow)
  | substitute (s : Substitution)
  | writeFile (path : Narrow)
  | writeFirst (path : Narrow)
  | exchange
  | translate (pairs : List (Char × Char))
  | clear
  deriving Repr, Inhabited

structure Command where
  first : Option Address := none
  last : Option Address := none
  negated : Bool := false
  action : Action
  deriving Repr, Inhabited

structure Script where
  commands : Array Command := #[]
  silent : Bool := false
  lacking : Narrow := []
  deriving Repr, Inhabited

end Sed
end CjsxConversion
