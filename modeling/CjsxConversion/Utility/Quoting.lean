import CjsxConversion.Text.Narrow

/-!
# Words in the messages of programs

The messages of programs show words so that a reader sees where they begin and end. A file name is
shown as a shell would read it, in quotation marks only if it needs them; any other word is shown
in quotation marks, with escapes for what cannot be printed.
-/

namespace CjsxConversion
namespace Quoting

/-- The letters that stand for control characters behind a backslash. -/
def escapes : List (Char × Char) :=
  [('\x07', 'a'), ('\x08', 'b'), ('\x0c', 'f'), ('\n', 'n'), ('\r', 'r'), ('\t', 't'),
   ('\x0b', 'v')]

def octalDigits (c : Char) : Narrow :=
  let n := c.toNat
  [n / 64 % 8, n / 8 % 8, n % 8].map fun d => Char.ofNat (48 + d)

/-- What stands for a character that cannot be printed. -/
def escaped (c : Char) : Narrow :=
  match escapes.find? fun e => e.1 = c with
  | some e => ['\\', e.2]
  | none => '\\' :: octalDigits c

/-- Characters that mean the same in every kind of quotation. -/
def isHarmless (c : Char) : Bool :=
  Narrow.isAlnum c || "%+,-./:]_".toList.contains c

/-- Characters that a shell takes as they are, unless they stand at the front. -/
def isPlain (c : Char) : Bool :=
  isHarmless c || "@#~\x7b\x7d".toList.contains c

/-- Whether a shell would not read a word as it is. -/
def needsQuotes (w : Narrow) : Bool :=
  match w with
  | [] => true
  | ['\x7b'] | ['\x7d'] => true
  | c :: _ => c = '#' || c = '~' || w.any fun c => !isPlain c

/-- The inside of single quotation marks. What cannot stand there is written between others. The
flag tells whether escapes are open. -/
def body : Bool → Narrow → Narrow
  | false, [] => []
  | true, [] => []
  | false, c :: cs =>
    if c = '\'' then ['\'', '\\', '\'', '\''] ++ body false cs
    else if Narrow.isPrintable c then c :: body false cs
    else ['\'', '$', '\''] ++ escaped c ++ body true cs
  | true, c :: cs =>
    if Narrow.isPrintable c ∧ c ≠ '\'' then ['\'', '\''] ++ c :: body false cs
    else if c = '\'' then ['\'', '\\', '\'', '\''] ++ body false cs
    else escaped c ++ body true cs

/-- A file name in quotation marks. -/
def always (w : Narrow) : Narrow :=
  if w.contains '\'' ∧ w.all fun c => isHarmless c || c = '\'' || c = ' ' then
    ['"'] ++ w ++ ['"']
  else ['\''] ++ body false w ++ ['\'']

/-- A file name, in quotation marks if it needs them. -/
def name (w : Narrow) : Narrow := if needsQuotes w then always w else w

/-- A word in quotation marks. -/
def phrase (w : Narrow) : Narrow :=
  ['\''] ++ w.flatMap (fun c =>
    if c = '\'' ∨ c = '\\' then ['\\', c]
    else if Narrow.isPrintable c then [c]
    else escaped c) ++ ['\'']

end Quoting
end CjsxConversion
