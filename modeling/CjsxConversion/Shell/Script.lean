import CjsxConversion.Text.Narrow

/-!
# Scripts of the shell

A script is made of commands, and commands are made of words. A word is a sequence of pieces: plain
characters, quoted ones, and what is replaced before the word is used.

Documents that stand behind a command are kept apart from it; the command knows their numbers.
-/

namespace CjsxConversion
namespace Shell

/-- What is done with the value of a parameter. -/
inductive ParamUse where
  | plain
  | length
  | orWord
  | ifSet
  | orAssign
  | orFail
  | trimFront (longest : Bool)
  | trimEnd (longest : Bool)
  | senseless
  deriving DecidableEq, Repr, Inhabited

/-- How a redirection opens its file. -/
inductive RedirKind where
  | input
  | output
  | clobber
  | append
  | both
  deriving DecidableEq, Repr, Inhabited

mutual

/-- A piece of a word. -/
inductive Piece where
  | char (c : Char)
  | quoted (c : Char)
  | mark
  | param (name : Narrow) (use : ParamUse) (colon : Bool) (word : List Piece)
  | command (body : Option Command)
  | arith (word : List Piece)

/-- A redirection. -/
inductive Redir where
  | file (fd : Nat) (kind : RedirKind) (word : List Piece)
  | dup (fd : Nat) (source : Option Nat)
  | dupWord (fd : Nat) (word : List Piece)
  | document (fd : Nat) (number : Nat) (literal : Bool)

inductive Command where
  | simple (line : Nat) (assigns words : List (List Piece)) (redirs : List Redir)
  | pipe (background : Bool) (commands : List Command)
  | redir (line : Nat) (body : Command) (redirs : List Redir)
  | background (line : Nat) (body : Command) (redirs : List Redir)
  | subshell (line : Nat) (body : Command) (redirs : List Redir)
  | both (first second : Command)
  | either (first second : Command)
  | sequence (first second : Command)
  | choice (test yes : Command) (no : Option Command)
  | loop (untilTrue : Bool) (test body : Command)
  | each (line : Nat) (name : Narrow) (words : List (List Piece)) (body : Command)
  | switch (line : Nat) (word : List Piece) (cases : List (List (List Piece) × Option Command))
  | define (line : Nat) (name : Narrow) (body : Command)
  | negate (body : Command)

end

instance : Inhabited Piece := ⟨.mark⟩

instance : Inhabited Redir := ⟨.dup 0 none⟩

instance : Inhabited Command := ⟨.simple 0 [] [] []⟩

abbrev Word := List Piece

namespace Word

/-- The text of a word that consists of plain characters. -/
def text? : Word → Option Narrow
  | [] => some []
  | .char c :: ps => (text? ps).map (c :: ·)
  | _ :: _ => none

/-- The characters of a word, quoted or not. What is replaced is left out. -/
def letters (w : Word) : Narrow :=
  w.filterMap fun p =>
    match p with
    | .char c | .quoted c => some c
    | _ => none

def plainFront : Word → Narrow
  | .char c :: ps => c :: plainFront ps
  | _ => []

/-- Whether a word assigns a value to a variable. -/
def isAssignment (w : Word) : Bool :=
  let cs := plainFront w
  let name := cs.takeWhile Narrow.inName
  Narrow.isName name && (cs.drop name.length).head? = some '='

end Word

end Shell
end CjsxConversion
