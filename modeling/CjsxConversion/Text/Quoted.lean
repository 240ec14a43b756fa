import CjsxConversion.Text.Unprintable

/-!
# Words shown between double quotes

How a word is shown inside a message: quotes and backslashes are escaped, the usual control
characters have short spellings, and every other character that would not show is given by its
code point in lower-case hexadecimal.
-/

namespace CjsxConversion
namespace Quoted

/-- A number in lower-case hexadecimal, without leading zeros. -/
def hex (n : Nat) : List Char :=
  Nat.toDigits 16 n

/-- One character of a quoted word. -/
def escape (c : Char) : List Char :=
  if c = '\x00' then ['\\', '0']
  else if c = '\t' then ['\\', 't']
  else if c = '\r' then ['\\', 'r']
  else if c = '\n' then ['\\', 'n']
  else if c = '"' then ['\\', '"']
  else if c = '\\' then ['\\', '\\']
  else if Unprintable.isHidden c then ['\\', 'u', '{'] ++ hex c.toNat ++ ['}']
  else [c]

/-- A word between double quotes. -/
def quote (s : String) : String :=
  String.ofList ('"' :: (s.toList.flatMap escape ++ ['"']))

/-- Quoted words between brackets, separated by commas. -/
def quoteList (ws : List String) : String :=
  "[" ++ String.intercalate ", " (ws.map quote) ++ "]"

end Quoted
end CjsxConversion
