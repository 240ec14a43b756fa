/-!
# JSON values and their text

A value is printed without white space between its parts. Quotes, backslashes and control
characters of a string are escaped, everything else is written as it is.
-/

namespace CjsxConversion

/-- A JSON value. Objects keep the order of their members. -/
inductive Json where
  | null
  | bool (b : Bool)
  | int (n : Int)
  | str (s : String)
  | arr (items : List Json)
  | obj (members : List (String × Json))
  deriving Inhabited

namespace Json

/-- The digits of a number below 256 in lower-case hexadecimal. -/
def hexPair (n : Nat) : List Char :=
  [Nat.digitChar (n / 16), Nat.digitChar (n % 16)]

/-- One character of a string. -/
def escapeChar (c : Char) : List Char :=
  if c = '"' then ['\\', '"']
  else if c = '\\' then ['\\', '\\']
  else if c = '\x08' then ['\\', 'b']
  else if c = '\x0c' then ['\\', 'f']
  else if c = '\n' then ['\\', 'n']
  else if c = '\r' then ['\\', 'r']
  else if c = '\t' then ['\\', 't']
  else if c.toNat < 0x20 then ['\\', 'u', '0', '0'] ++ hexPair c.toNat
  else [c]

/-- A string between quotes. -/
def printString (s : String) : List Char :=
  '"' :: (s.toList.flatMap escapeChar ++ ['"'])

/-- An integer in decimal. -/
def printInt : Int → List Char
  | .ofNat n => Nat.toDigits 10 n
  | .negSucc n => '-' :: Nat.toDigits 10 (n + 1)

mutual

/-- The characters of a value. -/
def print : Json → List Char
  | .null => "null".toList
  | .bool true => "true".toList
  | .bool false => "false".toList
  | .int n => printInt n
  | .str s => printString s
  | .arr items => '[' :: (printItems items ++ [']'])
  | .obj members => '{' :: (printMembers members ++ ['}'])

/-- The elements of an array, separated by commas. -/
def printItems : List Json → List Char
  | [] => []
  | v :: vs => print v ++ printItemsAfter vs

/-- The elements of an array that follow another one. -/
def printItemsAfter : List Json → List Char
  | [] => []
  | v :: vs => ',' :: (print v ++ printItemsAfter vs)

/-- The members of an object, separated by commas. -/
def printMembers : List (String × Json) → List Char
  | [] => []
  | (k, v) :: ms => printString k ++ ':' :: (print v ++ printMembersAfter ms)

/-- The members of an object that follow another one. -/
def printMembersAfter : List (String × Json) → List Char
  | [] => []
  | (k, v) :: ms => ',' :: (printString k ++ ':' :: (print v ++ printMembersAfter ms))

end

/-- The text of a value. -/
def render (v : Json) : String :=
  String.ofList (print v)

/-- A string, or `null` where there is none. -/
def ofOption : Option String → Json
  | some s => .str s
  | none => .null

def ofStrings (ss : List String) : Json :=
  .arr (ss.map .str)

end Json
end CjsxConversion
