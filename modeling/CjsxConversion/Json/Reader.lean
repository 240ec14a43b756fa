import CjsxConversion.Json.Numeral

/-!
# Reading a text as JSON

`Document.ofText` turns any text into a document. White space between the parts is a space, a tab,
a line feed or a carriage return.

Recursive descent over the characters. A part that ends the reading, because what
follows cannot be told apart any more, returns no rest. The recursion is bounded by the length of
the text: no three calls in a row consume nothing.
-/

namespace CjsxConversion
namespace Json

/-- A draft and the rest of the text, if the reading can go on. -/
abbrev Partial := Draft × Option (List Char)

/-- White space between the parts. -/
def isSpace (c : Char) : Bool :=
  c = ' ' || c = '\n' || c = '\t' || c = '\r'

/-- The text after white space. -/
def skipSpace (cs : List Char) : List Char :=
  cs.dropWhile isSpace

/-! ### Words -/

/-- Reads the rest of a word that stands for a value. -/
def readWord (v : Draft) : List Char → List Char → Partial
  | [], cs => (v, some cs)
  | _ :: _, [] => (.bad ⟨.endInValue, .noValue, some .endInValue⟩, none)
  | w :: ws, c :: cs =>
    if c = w then readWord v ws cs else (.bad ⟨.badWord, .noValue, some .badWord⟩, none)

/-! ### Strings -/

/-- The value of a hexadecimal digit. -/
def hexValue? (c : Char) : Option Nat :=
  if '0' ≤ c ∧ c ≤ '9' then some (c.toNat - 48)
  else if 'a' ≤ c ∧ c ≤ 'f' then some (c.toNat - 87)
  else if 'A' ≤ c ∧ c ≤ 'F' then some (c.toNat - 55)
  else none

/-- The value of four hexadecimal digits. -/
def hexQuad? (a b c d : Char) : Option Nat := do
  let w ← hexValue? a
  let x ← hexValue? b
  let y ← hexValue? c
  let z ← hexValue? d
  return ((w * 16 + x) * 16 + y) * 16 + z

def shortEscape? (c : Char) : Option Char :=
  if c = '"' ∨ c = '\\' ∨ c = '/' then some c
  else if c = 'b' then some '\x08'
  else if c = 'f' then some '\x0c'
  else if c = 'n' then some '\n'
  else if c = 'r' then some '\r'
  else if c = 't' then some '\t'
  else none

/-- What is wrong with fewer than four hexadecimal digits: the text ends, or something else
follows. Four octets are looked at. -/
def quadFault (cs : List Char) : Fault :=
  if (cs.take 4).foldr (fun c n => c.utf8Size + n) 0 < 4 then .endInString else .badEscape

/-- The fault of a pair of surrogates that is still open, unless there was one before. -/
def openFault (fault : Option Fault) (high : Option Nat) : Option Fault :=
  fault.or (high.map fun _ => .brokenPair)

/-- A string that cannot be followed to its end. -/
def brokenString (fault : Option Fault) (f : Fault) : Partial :=
  let read := fault.getD f
  (.bad ⟨read, read, some f⟩, none)

/-- Takes a code unit in: the fault so far, the open high surrogate, and the characters. -/
def takeUnit (fault : Option Fault) (high : Option Nat) (acc : List Char) (n : Nat) :
    Option Fault × Option Nat × List Char :=
  match high with
  | some h =>
    if 0xDC00 ≤ n ∧ n ≤ 0xDFFF then
      (fault, none, Char.ofNat (0x10000 + (h - 0xD800) * 0x400 + (n - 0xDC00)) :: acc)
    else (fault.or (some .loneSurrogate), none, acc)
  | none =>
    if 0xDC00 ≤ n ∧ n ≤ 0xDFFF then (fault.or (some .loneSurrogate), none, acc)
    else if 0xD800 ≤ n ∧ n ≤ 0xDBFF then (fault, some n, acc)
    else (fault, none, Char.ofNat n :: acc)

/-- Reads a string after its opening quote. The characters so far are kept in reverse. -/
def readString : Option Fault → Option Nat → List Char → List Char → Partial
  | fault, _, _, [] => brokenString fault .endInString
  | fault, high, acc, c :: rest =>
    if c = '"' then
      match openFault fault high with
      | none => (.str (String.ofList acc.reverse), some rest)
      | some f => (.bad ⟨f, f, none⟩, some rest)
    else if c = '\\' then
      match rest with
      | [] => brokenString fault .endInString
      | e :: rest =>
        if e = 'u' then
          match rest with
          | a :: b :: c :: d :: rest =>
            match hexQuad? a b c d with
            | some n =>
              let (fault, high, acc) := takeUnit fault high acc n
              readString fault high acc rest
            | none => brokenString fault (quadFault [a, b, c, d])
          | short => brokenString fault (quadFault short)
        else
          match shortEscape? e with
          | some x => readString (openFault fault high) none (x :: acc) rest
          | none => brokenString (openFault fault high) .badEscape
    else if c.toNat < 0x20 then brokenString (openFault fault high) .controlCharacter
    else readString (openFault fault high) none (c :: acc) rest

/-! ### Values -/

/-- No value begins here. -/
def noValue (cs : List Char) : Partial :=
  (.bad (.plain (if cs.isEmpty then .endInValue else .noValue)), none)

mutual

def readValue (fuel : Nat) (cs : List Char) : Partial :=
  match fuel with
  | 0 => noValue []
  | fuel + 1 =>
    match skipSpace cs with
    | [] => noValue []
    | c :: rest =>
      if c = 'n' then readWord .null ['u', 'l', 'l'] rest
      else if c = 't' then readWord (.bool true) ['r', 'u', 'e'] rest
      else if c = 'f' then readWord (.bool false) ['a', 'l', 's', 'e'] rest
      else if c = '"' then readString none none [] rest
      else if c = '-' then Numeral.readUnsigned true rest
      else if c.isDigit then Numeral.readUnsigned false (c :: rest)
      else if c = '[' then
        let (items, broken, rest) := readItems fuel true rest
        (.arr items broken, rest)
      else if c = '{' then
        let (members, broken, rest) := readMembers fuel true rest
        (.obj members broken, rest)
      else noValue [c]

/-- Reads the elements of an array from a place where one may follow. -/
def readItems (fuel : Nat) (first : Bool) (cs : List Char) :
    List Draft × Option Break × Option (List Char) :=
  match fuel with
  | 0 => ([], some (.plain .endInArray), none)
  | fuel + 1 =>
    match skipSpace cs with
    | [] => ([], some (.plain .endInArray), none)
    | c :: rest =>
      if c = ']' then ([], none, some rest)
      else if first then readItem fuel (c :: rest)
      else if c = ',' then
        match skipSpace rest with
        | [] => ([], some ⟨.endInValue, .endInValue, .trailingText⟩, none)
        | d :: rest =>
          if d = ']' then ([], some ⟨.trailingComma, .noValue, .trailingComma⟩, none)
          else readItem fuel (d :: rest)
      else ([], some ⟨.noCommaOrBracket, .noCommaOrBracket, .trailingText⟩, none)

/-- Reads an element of an array and those after it. -/
def readItem (fuel : Nat) (cs : List Char) :
    List Draft × Option Break × Option (List Char) :=
  match fuel with
  | 0 => ([], some (.plain .endInArray), none)
  | fuel + 1 =>
    match readValue fuel cs with
    | (v, none) => ([v], none, none)
    | (v, some rest) =>
      let (vs, broken, rest) := readItems fuel false rest
      (v :: vs, broken, rest)

/-- Reads the members of an object from a place where one may follow. -/
def readMembers (fuel : Nat) (first : Bool) (cs : List Char) :
    List (Draft × Draft) × Option Break × Option (List Char) :=
  match fuel with
  | 0 => ([], some (.plain .endInObject), none)
  | fuel + 1 =>
    match skipSpace cs with
    | [] => ([], some (.plain .endInObject), none)
    | c :: rest =>
      if c = '}' then ([], none, some rest)
      else if first then readMember fuel (c :: rest)
      else if c = ',' then
        match skipSpace rest with
        | [] => ([], some ⟨.endInValue, .endInObject, .trailingText⟩, none)
        | d :: rest =>
          if d = '}' then ([], some ⟨.trailingComma, .keyNotString, .trailingComma⟩, none)
          else readMember fuel (d :: rest)
      else ([], some ⟨.noCommaOrBrace, .noCommaOrBrace, .trailingText⟩, none)

/-- Reads a member of an object and those after it. -/
def readMember (fuel : Nat) (cs : List Char) :
    List (Draft × Draft) × Option Break × Option (List Char) :=
  match fuel with
  | 0 => ([], some (.plain .endInObject), none)
  | fuel + 1 =>
    match cs with
    | '"' :: rest =>
      match readString none none [] rest with
      | (k, none) => ([(k, .null)], none, none)
      | (k, some rest) =>
        match skipSpace rest with
        | [] => ([(k, .bad (.plain .endInObject))], none, none)
        | c :: rest =>
          if c = ':' then
            match readValue fuel rest with
            | (v, none) => ([(k, v)], none, none)
            | (v, some rest) =>
              let (ms, broken, rest) := readMembers fuel false rest
              ((k, v) :: ms, broken, rest)
          else ([(k, .bad (.plain .noColon))], none, none)
    | cs =>
      let (k, _) := readValue fuel cs
      ([(k, .null)], none, none)

end

/-- A bound on the calls that reading a text takes: an opening bracket takes three, every other
character fewer. -/
def readingBound (cs : List Char) : Nat :=
  3 * cs.length + 3

def Document.ofText (s : String) : Document :=
  let cs := s.toList
  match readValue (readingBound cs) cs with
  | (v, none) => ⟨v, false⟩
  | (v, some rest) => ⟨v, !(skipSpace rest).isEmpty⟩

end Json
end CjsxConversion
