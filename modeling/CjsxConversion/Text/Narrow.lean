import CjsxConversion.Text.Utf8

/-!
# Text octet by octet

The programs of a machine look at text octet by octet. A narrow text is a list of characters, one
for each octet, all of them below 256. The classes of characters are those of plain ASCII.
-/

namespace CjsxConversion

/-- A text of which each character stands for one octet. -/
abbrev Narrow := List Char

namespace Narrow

def ofOctets (b : Octets) : Narrow := b.map fun x => Char.ofNat x.toNat

def toOctets (cs : Narrow) : Octets := cs.map fun c => UInt8.ofNat c.toNat

def ofString (s : String) : Narrow := ofOctets (Utf8.encode s)

theorem toNat_ofNat_of_lt (n : Nat) (h : n < 256) : (Char.ofNat n).toNat = n := by
  have hv : n.isValidChar := Or.inl (by omega)
  rw [Char.ofNat, dif_pos hv]
  rfl

/-! ### Numbers -/

/-- The decimal digits of a number. -/
def ofNat (n : Nat) : Narrow := Nat.toDigits 10 n

/-- The decimal digits of a whole number, after its sign. -/
def ofInt (i : Int) : Narrow :=
  if i < 0 then '-' :: ofNat i.natAbs else ofNat i.natAbs

/-- The value of a digit in a base of up to 36. -/
def digit? (base : Nat) (c : Char) : Option Nat :=
  let n :=
    if '0' ≤ c ∧ c ≤ '9' then c.toNat - '0'.toNat
    else if 'a' ≤ c ∧ c ≤ 'z' then c.toNat - 'a'.toNat + 10
    else if 'A' ≤ c ∧ c ≤ 'Z' then c.toNat - 'A'.toNat + 10
    else base
  if n < base then some n else none

/-- The value of digits in a base. Other characters count as zero. -/
def digitsValue (base : Nat) (ds : Narrow) : Nat :=
  ds.foldl (fun n c => n * base + (digit? base c).getD 0) 0

/-- A number that is written with decimal digits only. -/
def toNat? (cs : Narrow) : Option Nat :=
  if cs ≠ [] ∧ cs.all fun c => (digit? 10 c).isSome then some (digitsValue 10 cs) else none

/-! ### Classes -/

/-- Lower-case letters. -/
def isLower (c : Char) : Bool := 'a' ≤ c && c ≤ 'z'

/-- Upper-case letters. -/
def isUpper (c : Char) : Bool := 'A' ≤ c && c ≤ 'Z'

def isLetter (c : Char) : Bool := isLower c || isUpper c

def isDigit (c : Char) : Bool := '0' ≤ c && c ≤ '9'

def isAlnum (c : Char) : Bool := isLetter c || isDigit c

def isHexDigit (c : Char) : Bool := (digit? 16 c).isSome

def isOctal (c : Char) : Bool := '0' ≤ c && c ≤ '7'

/-- White space within a line. -/
def isBlank (c : Char) : Bool := c = ' ' || c = '\t'

def isSpace (c : Char) : Bool := c = ' ' || (9 ≤ c.toNat && c.toNat ≤ 13)

def isControl (c : Char) : Bool := c.toNat < 32 || c.toNat = 127

/-- Characters that take a column. -/
def isPrintable (c : Char) : Bool := 32 ≤ c.toNat && c.toNat < 127

/-- Characters that leave ink. -/
def isGraphic (c : Char) : Bool := 32 < c.toNat && c.toNat < 127

/-- Graphic characters that are neither letters nor digits. -/
def isPunctuation (c : Char) : Bool := isGraphic c && !isAlnum c

/-- The classes of characters with their names. -/
def classes : List (String × (Char → Bool)) :=
  [("alpha", isLetter), ("digit", isDigit), ("alnum", isAlnum), ("upper", isUpper),
   ("lower", isLower), ("space", isSpace), ("blank", isBlank), ("punct", isPunctuation),
   ("print", isPrintable), ("graph", isGraphic), ("cntrl", isControl), ("xdigit", isHexDigit)]

def class? (name : Narrow) : Option (Char → Bool) :=
  (classes.find? fun e => e.1.toList = name).map (·.2)

/-- The upper-case letter of a lower-case one. -/
def toUpper (c : Char) : Char := if isLower c then Char.ofNat (c.toNat - 32) else c

/-- The lower-case letter of an upper-case one. -/
def toLower (c : Char) : Char := if isUpper c then Char.ofNat (c.toNat + 32) else c

def otherCase (c : Char) : Char := if isLower c then toUpper c else toLower c

/-- Characters that may begin the name of a variable. -/
def beginsName (c : Char) : Bool := isLetter c || c = '_'

/-- Characters that may stand in the name of a variable. -/
def inName (c : Char) : Bool := isAlnum c || c = '_'

/-- Whether a text can be the name of a variable. -/
def isName (cs : Narrow) : Bool :=
  match cs with
  | [] => false
  | c :: rest => beginsName c && rest.all inName

/-! ### Lines and order -/

/-- The lines of a text, each with the separator that ends it. The last one may have none. -/
def linesBy (separator : Char) : Narrow → List Narrow
  | [] => []
  | c :: cs =>
    if c = separator then [c] :: linesBy separator cs
    else
      match linesBy separator cs with
      | [] => [[c]]
      | l :: ls => (c :: l) :: ls

/-- The lines of a text, each with its line feed. -/
def lines (cs : Narrow) : List Narrow := linesBy '\n' cs

/-- The pieces between separators: always one more than there are separators. -/
def splitOn (separator : Char) : Narrow → List Narrow
  | [] => [[]]
  | c :: cs =>
    if c = separator then [] :: splitOn separator cs
    else
      match splitOn separator cs with
      | [] => [[c]]
      | l :: ls => (c :: l) :: ls

/-- Texts in the order of their octets. -/
def compare : Narrow → Narrow → Ordering
  | [], [] => .eq
  | [], _ :: _ => .lt
  | _ :: _, [] => .gt
  | a :: as, b :: bs =>
    if a.toNat < b.toNat then .lt else if b.toNat < a.toNat then .gt else compare as bs

/-- Whether a text comes before another or is the same. -/
def le (a b : Narrow) : Bool := compare a b ≠ .gt

/-- A text without the end of line at its end. -/
def chomp (separator : Char) (cs : Narrow) : Narrow :=
  if cs.getLast? = some separator then cs.dropLast else cs

/-- Whether a text begins with another one. -/
def startsWith (start cs : Narrow) : Bool := start.isPrefixOf cs

/-- Whether a text ends with another one. -/
def endsWith (ending cs : Narrow) : Bool := ending.isSuffixOf cs

/-- A text made as wide as wanted with blanks in front. -/
def padLeft (width : Nat) (cs : Narrow) : Narrow :=
  List.replicate (width - cs.length) ' ' ++ cs

/-- A text made as wide as wanted with blanks behind. -/
def padRight (width : Nat) (cs : Narrow) : Narrow :=
  cs ++ List.replicate (width - cs.length) ' '

end Narrow
end CjsxConversion
