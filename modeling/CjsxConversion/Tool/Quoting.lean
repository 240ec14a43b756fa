/-!
# Words for a shell

A word is written so that a shell reads exactly this word again. It is cut into chunks, each of
which is written plain, between single quotes or between double quotes.

A chunk begins with every style open, and each character closes the styles that
cannot hold it. Where no style would be left, the chunk ends before that character. A caret is
legal only at the start of a chunk between single quotes. Of the styles that are left to a chunk,
plain is preferred to single quotes and single quotes to double quotes.

Main results:
* `quote?_eq_none_iff`: exactly the words with a NUL character cannot be written.
-/

namespace CjsxConversion
namespace ShellWord

/-- The styles that are open to a chunk. -/
structure Styles where
  plain : Bool
  single : Bool
  double : Bool
  deriving DecidableEq, Repr

/-- A way to write a chunk. -/
inductive Style where
  | plain
  | single
  | double
  deriving DecidableEq, Repr

/-- Whether a character stands for itself outside quotes. -/
def isPlain (c : Char) : Bool :=
  c.isAlphanum || ['+', '-', '.', '/', ':', '@', ']', '_'].contains c

namespace Styles

/-- Every style is open. -/
def all : Styles := ⟨true, true, true⟩

/-- The styles that can hold one more character. -/
def holding (s : Styles) (c : Char) : Styles where
  plain := s.plain && isPlain c
  single := s.single && !(['\x27', '^', '\\'].contains c)
  double := s.double && !(['`', '$', '!', '^'].contains c)

def isOpen (s : Styles) : Bool :=
  s.plain || s.single || s.double

/-- The preferred of the open styles. -/
def best (s : Styles) : Style :=
  if s.plain then .plain else if s.single then .single else .double

/-- The styles that are open to a chunk which begins with a character. -/
def beginning (c : Char) : Styles :=
  if c = '^' then ⟨false, true, false⟩ else all.holding c

end Styles

/-- The chunks of a word, given the open styles and the characters of the present one. -/
def chunksFrom (styles : Styles) (present : List Char) : List Char → List (Style × List Char)
  | [] => [(styles.best, present)]
  | c :: cs =>
    if (styles.holding c).isOpen then chunksFrom (styles.holding c) (present ++ [c]) cs
    else (styles.best, present) :: chunksFrom (.beginning c) [c] cs

def chunks : List Char → List (Style × List Char)
  | [] => [(.single, [])]
  | c :: cs => chunksFrom (.beginning c) [c] cs

/-- A character between double quotes. -/
def escapeDouble (c : Char) : List Char :=
  if ['$', '`', '"', '\\'].contains c then ['\\', c] else [c]

def writeChunk : Style × List Char → List Char
  | (.plain, cs) => cs
  | (.single, cs) => '\x27' :: cs ++ ['\x27']
  | (.double, cs) => '"' :: cs.flatMap escapeDouble ++ ['"']

/-- A word as it is written for a shell. -/
def quoteChars (cs : List Char) : List Char :=
  (chunks cs).flatMap writeChunk

/-- A word as it is written for a shell, unless it has a NUL character. -/
def quote? (w : String) : Option String :=
  if w.toList.contains '\x00' then none else some (String.ofList (quoteChars w.toList))

theorem quote?_eq_none_iff (w : String) : quote? w = none ↔ '\x00' ∈ w.toList := by
  simp [quote?]

end ShellWord
end CjsxConversion
