/-!
# Octets and text

Files, arguments and paths are octet sequences; everything the conversion looks into is text.

`decode?` succeeds exactly on the UTF-8 encodings of texts.

`decodeLossy` reads any octets: each longest run of octets that begins a
well-formed sequence without finishing it, and each octet that can begin none, becomes one
replacement character. A sequence that has begun owes some octets, has bounds for the next one, and
knows the scalar value as far as it is known.

`longestText` gives the longest text that octets begin with, and what follows it.

Main results:
* `decode?_encode`: reading the encoding of a text gives the text back.
* `encode_of_decode?`: octets that can be read are the encoding of what was read.
-/

namespace CjsxConversion

/-- An octet sequence: the content of a file, an argument or the spelling of a path. -/
abbrev Octets := List UInt8

namespace Utf8

/-- The UTF-8 encoding of a text. -/
def encode (s : String) : Octets :=
  s.toByteArray.data.toList

/-- The text that the octets encode, if they are well-formed. -/
def decode? (b : Octets) : Option String :=
  String.fromUTF8? ⟨b.toArray⟩

/-- The number of octets in the encoding of a text. -/
def size (s : String) : Nat :=
  s.utf8ByteSize

theorem decode?_encode (s : String) : decode? (encode s) = some s := by
  have h : s.toByteArray.IsValidUTF8 := s.isValidUTF8
  simp [decode?, encode, String.fromUTF8?, h]
  rfl

theorem encode_of_decode? {b : Octets} {s : String} (h : decode? b = some s) :
    encode s = b := by
  unfold decode? String.fromUTF8? at h
  split at h
  · cases h
    simp [encode, String.fromUTF8]
  · cases h

/-! ### Cutting -/

/-- The longest text among the first octets, up to a number of them, and what follows it. -/
def textWithin (b : Octets) : Nat → String × Octets
  | 0 => ("", b)
  | n + 1 =>
    match decode? (b.take (n + 1)) with
    | some s => (s, b.drop (n + 1))
    | none => textWithin b n

/-- The longest text that octets begin with, and what follows it. -/
def longestText (b : Octets) : String × Octets :=
  textWithin b b.length

/-! ### Lossy reading -/

/-- The character that stands for octets that are not text. -/
def replacement : Char := '\uFFFD'

/-- A sequence that has begun: the tail octets still owed, the bounds of the next one, and the
bits gathered so far. -/
structure Pending where
  owed : Nat
  least : UInt8
  greatest : UInt8
  bits : Nat

/-- What an octet means between characters. -/
inductive Lead where
  | whole (c : Char)
  | begins (p : Pending)
  | stray

/-- Classifies an octet that stands between characters. -/
def lead (b : UInt8) : Lead :=
  let n := b.toNat
  if n < 0x80 then .whole (Char.ofNat n)
  else if n < 0xC2 then .stray
  else if n < 0xE0 then .begins ⟨1, 0x80, 0xBF, n - 0xC0⟩
  else if n = 0xE0 then .begins ⟨2, 0xA0, 0xBF, 0⟩
  else if n = 0xED then .begins ⟨2, 0x80, 0x9F, 0xD⟩
  else if n < 0xF0 then .begins ⟨2, 0x80, 0xBF, n - 0xE0⟩
  else if n = 0xF0 then .begins ⟨3, 0x90, 0xBF, 0⟩
  else if n < 0xF4 then .begins ⟨3, 0x80, 0xBF, n - 0xF0⟩
  else if n = 0xF4 then .begins ⟨3, 0x80, 0x8F, 4⟩
  else .stray

/-- Whether an octet continues a sequence. -/
def Pending.admits (p : Pending) (b : UInt8) : Bool :=
  p.least ≤ b && b ≤ p.greatest

/-- A sequence with one more octet, which must be admitted. -/
def Pending.feed (p : Pending) (b : UInt8) : Pending :=
  ⟨p.owed - 1, 0x80, 0xBF, p.bits * 64 + (b.toNat - 0x80)⟩

/-- Lossy reading from inside a sequence, or from between characters. -/
def lossyFrom : Option Pending → Octets → List Char
  | none, [] => []
  | some _, [] => [replacement]
  | none, b :: rest =>
    match lead b with
    | .whole c => c :: lossyFrom none rest
    | .begins p => lossyFrom (some p) rest
    | .stray => replacement :: lossyFrom none rest
  | some p, b :: rest =>
    if p.admits b then
      if p.owed ≤ 1 then Char.ofNat (p.feed b).bits :: lossyFrom none rest
      else lossyFrom (some (p.feed b)) rest
    else
      match lead b with
      | .whole c => replacement :: c :: lossyFrom none rest
      | .begins q => replacement :: lossyFrom (some q) rest
      | .stray => replacement :: replacement :: lossyFrom none rest

/-- The text that any octets are shown as. -/
def decodeLossy (b : Octets) : String :=
  String.ofList (lossyFrom none b)

end Utf8
end CjsxConversion
