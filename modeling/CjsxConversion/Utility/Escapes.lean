import CjsxConversion.Text.Narrow

/-!
# Escapes

In a format, and in what `echo` writes, a backslash and what follows it may stand for another
character, or end the output.
-/

namespace CjsxConversion
namespace Escapes

/-- What an escape says. -/
inductive Said where
  | chars (cs : Narrow)
  | stop
  | fault (text : Narrow)
  deriving Repr

/-- The letters that stand for a character. -/
def letters : List (Char × Char) :=
  [('a', '\x07'), ('b', '\x08'), ('f', '\x0c'), ('n', '\n'), ('r', '\r'), ('t', '\t'),
   ('v', '\x0b'), ('\\', '\\'), ('e', '\x1b')]

/-- The letters that stand for a character in the format of the program. -/
def programLetters : List (Char × Char) := letters ++ [('"', '"')]

def letter? (table : List (Char × Char)) (c : Char) : Option Char :=
  (table.find? fun e => e.1 = c).map (·.2)

/-- At most so many octal digits at the start of a text. -/
def readOctal (most : Nat) (cs : Narrow) : Narrow := (cs.take most).takeWhile Narrow.isOctal

def octet (base : Nat) (ds : Narrow) : Char := Char.ofNat (Narrow.digitsValue base ds % 256)

/-- What stands for the characters after a backslash in the format of a shell, and what follows. -/
def ofShell (cs : Narrow) : Narrow × Narrow :=
  match cs with
  | [] => (['\\'], [])
  | c :: rest =>
    let ds := readOctal 3 cs
    if ds ≠ [] then ([octet 8 ds], cs.drop ds.length)
    else
      match letter? letters c with
      | some d => ([d], rest)
      | none => (['\\'], cs)

/-- The text of an argument whose escapes a shell reads, and whether more is to be written. The
bound is the length of the text. -/
def textOfShell : Nat → Narrow → Narrow × Bool
  | 0, _ => ([], true)
  | _ + 1, [] => ([], true)
  | n + 1, '\\' :: cs =>
    match cs with
    | 'c' :: _ => ([], false)
    | '0' :: d :: _ =>
      let (front, rest) := ofShell (if Narrow.isOctal d then cs.drop 1 else cs)
      let (after, more) := textOfShell n rest
      (front ++ after, more)
    | cs =>
      let (front, rest) := ofShell cs
      let (after, more) := textOfShell n rest
      (front ++ after, more)
  | n + 1, c :: cs =>
    let (after, more) := textOfShell n cs
    (c :: after, more)

/-- A character of a given number in eight hexadecimal digits, or in four. -/
def universal (long : Bool) (n : Nat) (ds : Narrow) : Said :=
  let mark := if long then 'U' else 'u'
  if n < 0xA0 ∧ n ≠ 0x24 ∧ n ≠ 0x40 ∧ n ≠ 0x60 then
    .fault ("invalid universal character name \\".toList ++ mark :: ds)
  else if n < 0x80 then .chars [Char.ofNat n]
  else
    let width := if n < 0x10000 then 4 else 8
    let hex := Nat.toDigits 16 n |>.map Narrow.toUpper
    .chars (['\\', if n < 0x10000 then 'u' else 'U']
      ++ List.replicate (width - hex.length) '0' ++ hex)

/-- What the characters after a backslash say in the format of the program, and what follows. A
zero may stand before octal digits in an argument. -/
def ofProgram (inArgument : Bool) (cs : Narrow) : Said × Narrow :=
  match cs with
  | [] => (.chars ['\\'], [])
  | 'c' :: rest => (.stop, rest)
  | 'x' :: rest =>
    let ds := (rest.take 2).takeWhile Narrow.isHexDigit
    if ds = [] then (.fault "missing hexadecimal number in escape".toList, rest)
    else (.chars [octet 16 ds], rest.drop ds.length)
  | c :: rest =>
    if c = 'u' ∨ c = 'U' then
      let wanted := if c = 'u' then 4 else 8
      let ds := (rest.take wanted).takeWhile Narrow.isHexDigit
      if ds.length < wanted then (.fault "missing hexadecimal number in escape".toList, rest)
      else (universal (c = 'U') (Narrow.digitsValue 16 ds) ds, rest.drop wanted)
    else
      let start := if inArgument ∧ c = '0' then rest else cs
      let ds := readOctal 3 start
      if c = '0' ∨ ds ≠ [] then (.chars [octet 8 ds], start.drop ds.length)
      else
        match letter? programLetters c with
        | some d => (.chars [d], rest)
        | none => (.chars ['\\', c], rest)

/-- What the program `echo` makes of the characters after a backslash. -/
def ofEcho (cs : Narrow) : Said × Narrow :=
  match cs with
  | 'x' :: rest =>
    let ds := (rest.take 2).takeWhile Narrow.isHexDigit
    if ds = [] then (.chars ['\\', 'x'], rest) else (.chars [octet 16 ds], rest.drop ds.length)
  | 'u' :: rest => (.chars ['\\', 'u'], rest)
  | 'U' :: rest => (.chars ['\\', 'U'], rest)
  | '"' :: rest => (.chars ['\\', '"'], rest)
  | '0' :: rest =>
    let ds := readOctal 3 rest
    (.chars [octet 8 ds], rest.drop ds.length)
  | cs => ofProgram false cs

/-- A text whose escapes are read, whether more is to be written, and what is wrong. The bound is
the length of the text. -/
def textWith (escape : Narrow → Said × Narrow) : Nat → Narrow → Narrow × Bool × Option Narrow
  | 0, _ => ([], true, none)
  | _ + 1, [] => ([], true, none)
  | n + 1, '\\' :: cs =>
    match escape cs with
    | (.stop, _) => ([], false, none)
    | (.fault text, _) => ([], false, some text)
    | (.chars front, rest) =>
      let (after, ending) := textWith escape n rest
      (front ++ after, ending)
  | n + 1, c :: cs =>
    let (after, ending) := textWith escape n cs
    (c :: after, ending)

end Escapes
end CjsxConversion
