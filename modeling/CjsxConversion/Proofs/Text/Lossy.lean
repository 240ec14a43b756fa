import CjsxConversion.Proofs.Text.Encoding
import Mathlib.Algebra.Group.Nat.Defs

/-!
# Octets that are no text are shown nevertheless

Any octets are shown as a text: the encodings among them as their characters, and whatever is
between these as replacement characters, one for each broken part. A part is broken where no
encoding begins: it is as much as an encoding begins with, or a single octet if none does.

`ShownAs` says this of octets and encodings alone. How octets are read, one after the
other and with bounds on the next one, is not part of it.

A sequence that has begun knows how many octets it still owes and which characters
it can become. `Reached` is the invariant: these are exactly the characters whose encodings begin
like the sequence.

Main results:
* `prefix_unique`: octets begin with one encoding at most.
* `Reached.feed`, `Reached.admits_iff`: what one more octet makes of a sequence.
* `shownAs_iff`: octets are shown as what they are read as, and as nothing else.
-/

namespace CjsxConversion
namespace Utf8

/-- Some encoding begins like this. -/
def Begins (part : Octets) : Prop :=
  ∃ c, part <+: String.utf8EncodeChar c

/-- Octets before others are broken: no encoding is at their beginning, and they are as many as an
encoding begins with, or a single one. -/
structure Broken (part rest : Octets) : Prop where
  ne_nil : part ≠ []
  none_whole : ∀ c, ¬ String.utf8EncodeChar c <+: part ++ rest
  begins : Begins part ∨ part.length = 1
  longest : ∀ b ∈ rest.head?, ¬ Begins (part ++ [b])

/-- Octets are shown as characters. -/
inductive ShownAs : Octets → List Char → Prop
  | nil : ShownAs [] []
  | char {rest : Octets} {cs : List Char} (c : Char) (shown : ShownAs rest cs) :
      ShownAs (String.utf8EncodeChar c ++ rest) (c :: cs)
  | broken {part rest : Octets} {cs : List Char} (hbroken : Broken part rest)
      (shown : ShownAs rest cs) : ShownAs (part ++ rest) ('\uFFFD' :: cs)

/-! ### Encodings -/

/-- How many octets the encoding of a code point has. -/
def widthOf (n : Nat) : Nat :=
  if n < 0x80 then 1 else if n < 0x800 then 2 else if n < 0x10000 then 3 else 4

/-- What the encoding of a code point begins with. -/
def headOf (n : Nat) : Nat :=
  if n < 0x80 then n else if n < 0x800 then 0xC0 + n / 64
  else if n < 0x10000 then 0xE0 + n / 4096 else 0xF0 + n / 262144

/-- The octets of a character. -/
inductive Encodes (c : Char) : Octets → Prop
  | one (h : c.toNat < 0x80) : Encodes c [UInt8.ofNat c.toNat]
  | two (hlow : 0x80 ≤ c.toNat) (h : c.toNat < 0x800) :
      Encodes c [UInt8.ofNat (0xC0 + c.toNat / 64), UInt8.ofNat (0x80 + c.toNat % 64)]
  | three (hlow : 0x800 ≤ c.toNat) (h : c.toNat < 0x10000) :
      Encodes c [UInt8.ofNat (0xE0 + c.toNat / 4096), UInt8.ofNat (0x80 + c.toNat / 64 % 64),
        UInt8.ofNat (0x80 + c.toNat % 64)]
  | four (hlow : 0x10000 ≤ c.toNat) (h : c.toNat < 0x110000) :
      Encodes c [UInt8.ofNat (0xF0 + c.toNat / 262144), UInt8.ofNat (0x80 + c.toNat / 4096 % 64),
        UInt8.ofNat (0x80 + c.toNat / 64 % 64), UInt8.ofNat (0x80 + c.toNat % 64)]

theorem toNat_lt (c : Char) : c.toNat < 0x110000 := by
  rcases c.valid with h | ⟨-, h⟩
  · exact Nat.lt_trans h (by decide)
  · exact h

theorem toNat_ofNat {n : Nat} (h : n.isValidChar) : (Char.ofNat n).toNat = n := by
  rw [Char.ofNat, dif_pos h]
  rfl

theorem encodes_encodeChar (c : Char) : Encodes c (String.utf8EncodeChar c) := by
  have hlt := toNat_lt c
  have hval : c.val.toNat = c.toNat := rfl
  unfold String.utf8EncodeChar
  simp only [hval]
  split
  · exact .one (by omega)
  split
  · have h : c.toNat / 64 % 0x20 + 0xC0 = 0xC0 + c.toNat / 64 := by omega
    rw [h, Nat.add_comm _ 0x80]
    exact .two (by omega) (by omega)
  split
  · have h : c.toNat / 4096 % 0x10 + 0xE0 = 0xE0 + c.toNat / 4096 := by omega
    rw [h, Nat.add_comm _ 0x80, Nat.add_comm _ 0x80]
    exact .three (by omega) (by omega)
  · have h : c.toNat / 262144 % 0x08 + 0xF0 = 0xF0 + c.toNat / 262144 := by omega
    rw [h, Nat.add_comm _ 0x80, Nat.add_comm _ 0x80, Nat.add_comm _ 0x80]
    exact .four (by omega) (by omega)

theorem length_encodeChar (c : Char) : (String.utf8EncodeChar c).length = widthOf c.toNat := by
  have h := encodes_encodeChar c
  generalize String.utf8EncodeChar c = bs at h
  cases h <;> grind [widthOf]

/-- The first octet of a character. -/
theorem singleton_prefix_iff {b : UInt8} {c : Char} :
    [b] <+: String.utf8EncodeChar c ↔ b.toNat = headOf c.toNat := by
  have hfirst : ∀ {n : Nat} {bs : Octets}, n < 256 →
      ([b] <+: UInt8.ofNat n :: bs ↔ b.toNat = n) := by
    intro n bs hn
    rw [List.cons_prefix_cons, ← UInt8.toNat_inj, UInt8.toNat_ofNat', Nat.mod_eq_of_lt hn]
    simp
  have h := encodes_encodeChar c
  generalize String.utf8EncodeChar c = bs at h
  unfold headOf
  cases h with
  | one h => rw [hfirst (by omega), if_pos h]
  | two hlow h => rw [hfirst (by omega), if_neg (by omega), if_pos h]
  | three hlow h => rw [hfirst (by omega), if_neg (by omega), if_neg (by omega), if_pos h]
  | four hlow h =>
    rw [hfirst (by omega), if_neg (by omega), if_neg (by omega), if_neg (by omega)]

/-- The other octets of a character. -/
theorem getElem?_encodeChar {c : Char} {j owed : Nat} (hj : 0 < j)
    (howed : widthOf c.toNat = j + (owed + 1)) :
    (String.utf8EncodeChar c)[j]? = some (UInt8.ofNat (0x80 + c.toNat / 64 ^ owed % 64)) := by
  have h := encodes_encodeChar c
  have hlength := length_encodeChar c
  generalize String.utf8EncodeChar c = bs at h hlength
  rw [howed] at hlength
  obtain ⟨i, rfl⟩ := Nat.exists_eq_add_of_lt hj
  cases h with
  | one h => simp at hlength; omega
  | two hlow h =>
    obtain ⟨rfl, rfl⟩ : i = 0 ∧ owed = 0 := by simp at hlength; omega
    simp
  | three hlow h =>
    obtain ⟨rfl, rfl⟩ | ⟨rfl, rfl⟩ : (i = 0 ∧ owed = 1) ∨ (i = 1 ∧ owed = 0) := by
      simp at hlength; omega
    all_goals simp
  | four hlow h =>
    obtain ⟨rfl, rfl⟩ | ⟨rfl, rfl⟩ | ⟨rfl, rfl⟩ :
        (i = 0 ∧ owed = 2) ∨ (i = 1 ∧ owed = 1) ∨ (i = 2 ∧ owed = 0) := by
      simp at hlength; omega
    all_goals simp

/-- Octets begin with one encoding at most. -/
theorem prefix_unique {bs : Octets} {c d : Char} (hc : String.utf8EncodeChar c <+: bs)
    (hd : String.utf8EncodeChar d <+: bs) : c = d := by
  have hdecode : ∀ {e : Char}, String.utf8EncodeChar e <+: bs →
      bs.toByteArray.utf8DecodeChar? 0 = some e := by
    rintro e ⟨rest, rfl⟩
    rw [List.toByteArray_append]
    exact ByteArray.utf8DecodeChar?_utf8EncodeChar_append
  exact Option.some.inj ((hdecode hc).symm.trans (hdecode hd))

theorem encodeChar_ne_nil (c : Char) : String.utf8EncodeChar c ≠ [] := by
  intro hnil
  have h := encodes_encodeChar c
  rw [hnil] at h
  cases h

/-- One octet more belongs to an encoding if it comes next there. -/
theorem append_prefix_iff {part bs : Octets} {b : UInt8} :
    part ++ [b] <+: bs ↔ part <+: bs ∧ bs[part.length]? = some b := by
  constructor
  · rintro ⟨rest, rfl⟩
    exact ⟨⟨b :: rest, by simp⟩, by simp⟩
  · rintro ⟨⟨rest, rfl⟩, hb⟩
    cases rest with
    | nil => simp at hb
    | cons a rest =>
      obtain rfl : a = b := by simpa using hb
      exact ⟨rest, by simp⟩

theorem Begins.of_append {part more : Octets} (h : Begins (part ++ more)) : Begins part := by
  obtain ⟨c, hc⟩ := h
  exact ⟨c, (List.prefix_append part more).trans hc⟩

/-! ### Sequences -/

/-- A sequence that has begun with some octets, owes one and a number of others, and can become
exactly the characters whose encodings begin so. -/
structure Reached (part : Octets) (p : Pending) (left : Nat) : Prop where
  length_pos : 0 < part.length
  owed_eq : p.owed = left + 1
  fits : ∀ c, part <+: String.utf8EncodeChar c ↔
    widthOf c.toNat = part.length + (left + 1) ∧ c.toNat / 64 ^ (left + 1) = p.bits
  opens : p.admits p.least = true
  admitted : ∀ b, p.admits b = true → 0x80 ≤ b.toNat ∧ b.toNat ≤ 0xBF ∧
    ∀ n, n / 64 ^ left = p.bits * 64 + (b.toNat - 0x80) →
      n.isValidChar ∧ widthOf n = part.length + (left + 1)
  refused : ∀ b, p.admits b = false → 0x80 ≤ b.toNat → b.toNat ≤ 0xBF →
    ∀ c : Char, widthOf c.toNat = part.length + (left + 1) →
      c.toNat / 64 ^ left ≠ p.bits * 64 + (b.toNat - 0x80)

namespace Reached

variable {part rest : Octets} {p : Pending} {left : Nat} {b : UInt8} {c : Char}

/-- Which characters a sequence can become with one more octet. -/
theorem append_prefix_iff (h : Reached part p left) :
    part ++ [b] <+: String.utf8EncodeChar c ↔
      widthOf c.toNat = part.length + (left + 1) ∧ 0x80 ≤ b.toNat ∧ b.toNat ≤ 0xBF ∧
        c.toNat / 64 ^ left = p.bits * 64 + (b.toNat - 0x80) := by
  rw [Utf8.append_prefix_iff, h.fits]
  have hquotient : c.toNat / 64 ^ (left + 1) = c.toNat / 64 ^ left / 64 := by
    rw [Nat.pow_succ, Nat.div_div_eq_div_mul]
  by_cases hwidth : widthOf c.toNat = part.length + (left + 1)
  · have hoctet := getElem?_encodeChar h.length_pos hwidth
    have heq : some (UInt8.ofNat (0x80 + c.toNat / 64 ^ left % 64)) = some b ↔
        b.toNat = 0x80 + c.toNat / 64 ^ left % 64 := by
      rw [Option.some.injEq, ← UInt8.toNat_inj, UInt8.toNat_ofNat', Nat.mod_eq_of_lt (by omega)]
      exact eq_comm
    rw [hoctet, heq, hquotient]
    generalize c.toNat / 64 ^ left = q
    omega
  · simp [hwidth]

/-- A sequence admits exactly the octets with which it is still the beginning of an encoding. -/
theorem admits_iff (h : Reached part p left) : p.admits b = true ↔ Begins (part ++ [b]) := by
  constructor
  · intro hb
    obtain ⟨hlow, hhigh, hall⟩ := h.admitted b hb
    have hpow : 0 < 64 ^ left := Nat.pow_pos (by decide)
    have hquotient := Nat.mul_div_cancel (p.bits * 64 + (b.toNat - 0x80)) hpow
    obtain ⟨hvalid, hwidth⟩ := hall _ hquotient
    rw [← toNat_ofNat hvalid] at hwidth hquotient
    exact ⟨_, h.append_prefix_iff.2 ⟨hwidth, hlow, hhigh, hquotient⟩⟩
  · rintro ⟨c, hc⟩
    obtain ⟨hwidth, hlow, hhigh, hquotient⟩ := h.append_prefix_iff.1 hc
    cases hb : p.admits b with
    | true => rfl
    | false => exact absurd hquotient (h.refused b hb hlow hhigh c hwidth)

theorem begins (h : Reached part p left) : Begins part :=
  (h.admits_iff.1 h.opens).of_append

/-- A sequence goes on with an octet that it admits. -/
theorem feed (h : Reached part p (left + 1)) (hb : p.admits b = true) :
    Reached (part ++ [b]) (p.feed b) left := by
  obtain ⟨hlow, hhigh, hall⟩ := h.admitted b hb
  have hlength : (part ++ [b]).length + (left + 1) = part.length + (left + 1 + 1) := by
    simp
    omega
  have hrange : ∀ b', (p.feed b).admits b' = true ↔ 0x80 ≤ b'.toNat ∧ b'.toNat ≤ 0xBF := by
    intro b'
    simp [Pending.admits, Pending.feed, UInt8.le_iff_toNat_le]
  refine ⟨by simp, ?_, fun c => ?_, (hrange _).2 ?_, fun b' hb' => ?_, ?_⟩
  · simp [Pending.feed, h.owed_eq]
  · rw [h.append_prefix_iff, hlength]
    simp [hlow, hhigh, Pending.feed]
  · simp [Pending.feed]
  · obtain ⟨hlow', hhigh'⟩ := (hrange b').1 hb'
    refine ⟨hlow', hhigh', fun n hn => ?_⟩
    rw [hlength]
    refine hall n ?_
    rw [Nat.pow_succ, ← Nat.div_div_eq_div_mul, hn]
    simp only [Pending.feed]
    omega
  · intro b' hb' hlow' hhigh'
    rw [(hrange b').2 ⟨hlow', hhigh'⟩] at hb'
    cases hb'

/-- A sequence that owes one octet is a character with one that it admits. -/
theorem complete (h : Reached part p 0) (hb : p.admits b = true) :
    String.utf8EncodeChar (Char.ofNat (p.feed b).bits) = part ++ [b] := by
  obtain ⟨hlow, hhigh, hall⟩ := h.admitted b hb
  obtain ⟨hvalid, hwidth⟩ := hall (p.feed b).bits (by simp [Pending.feed])
  have htoNat := toNat_ofNat hvalid
  have hbegins : part ++ [b] <+: String.utf8EncodeChar (Char.ofNat (p.feed b).bits) := by
    rw [h.append_prefix_iff, htoNat]
    exact ⟨hwidth, hlow, hhigh, by simp [Pending.feed]⟩
  refine (hbegins.eq_of_length ?_).symm
  rw [length_encodeChar, htoNat, hwidth]
  simp

/-- A sequence that does not go on is broken. -/
theorem broken (h : Reached part p left) (hrest : ∀ b ∈ rest.head?, p.admits b = false) :
    Broken part rest := by
  have hrefused : ∀ b ∈ rest.head?, ¬ Begins (part ++ [b]) := by
    intro b hb hbegins
    rw [← h.admits_iff, hrest b hb] at hbegins
    cases hbegins
  refine ⟨List.ne_nil_of_length_pos h.length_pos, fun c hc => ?_, .inl h.begins, hrefused⟩
  have hlonger : ∀ {d : Char}, part <+: String.utf8EncodeChar d →
      part.length < (String.utf8EncodeChar d).length := by
    intro d hd
    rw [length_encodeChar, ((h.fits d).1 hd).1]
    omega
  obtain ⟨d, hd⟩ := h.begins
  rcases List.prefix_or_prefix_of_prefix (List.prefix_append part rest) hc with hpart | hpart
  · -- the encoding goes on with the next octet, which the sequence refuses
    obtain ⟨more, hmore⟩ := hpart
    cases more with
    | nil =>
      have hlt := hlonger ⟨[], hmore⟩
      rw [← hmore, List.append_nil] at hlt
      exact Nat.lt_irrefl _ hlt
    | cons b more =>
      rw [← hmore] at hc
      obtain ⟨rest', rfl⟩ := (List.prefix_append_right_inj part).1 hc
      exact hrefused b rfl ⟨c, more, by simp [hmore]⟩
  · -- the encoding is at the beginning of another one
    obtain rfl := prefix_unique (hpart.trans hd) (List.prefix_refl _)
    exact Nat.lt_irrefl _ (Nat.lt_of_le_of_lt hpart.length_le (hlonger hd))

end Reached

/-! ### What an octet between characters means -/

theorem encodeChar_of_whole {b : UInt8} {c : Char} (h : lead b = .whole c) :
    String.utf8EncodeChar c = [b] := by
  have hascii : b.toNat < 0x80 ∧ Char.ofNat b.toNat = c := by
    unfold lead at h
    simp only at h
    split at h
    · next hn => exact ⟨hn, Lead.whole.inj h⟩
    · repeat' split at h
      all_goals cases h
  obtain ⟨hn, rfl⟩ := hascii
  have htoNat : (Char.ofNat b.toNat).toNat = b.toNat := toNat_ofNat (.inl (by omega))
  rw [encodeChar_of_ascii (by omega), htoNat, UInt8.ofNat_toNat]

theorem not_begins_of_stray {b : UInt8} (h : lead b = .stray) : ¬ Begins [b] := by
  have hstray : (0x80 ≤ b.toNat ∧ b.toNat < 0xC2) ∨ 0xF4 < b.toNat := by
    unfold lead at h
    simp only at h
    repeat' split at h
    all_goals first | omega | cases h
  rintro ⟨c, hc⟩
  have hlt := toNat_lt c
  rw [singleton_prefix_iff] at hc
  unfold headOf at hc
  repeat' split at hc
  all_goals omega

/-- A first octet begins a sequence: the next one is within bounds exactly if the code points that
are then left are characters of this width. -/
theorem reached_of_bounds {b least greatest : UInt8} {left bits : Nat}
    (hhead : ∀ n < 0x110000,
      b.toNat = headOf n ↔ widthOf n = left + 2 ∧ n / 64 ^ (left + 1) = bits)
    (hbounds : 0x80 ≤ least.toNat ∧ least.toNat ≤ greatest.toNat ∧ greatest.toNat ≤ 0xBF)
    (hwithin : ∀ n, n / 64 ^ (left + 1) = bits →
      (least.toNat - 0x80 ≤ n / 64 ^ left % 64 ∧ n / 64 ^ left % 64 ≤ greatest.toNat - 0x80 ↔
        n.isValidChar ∧ widthOf n = left + 2)) :
    Reached [b] ⟨left + 1, least, greatest, bits⟩ left := by
  have hadmits : ∀ b' : UInt8, (⟨left + 1, least, greatest, bits⟩ : Pending).admits b' = true ↔
      least.toNat ≤ b'.toNat ∧ b'.toNat ≤ greatest.toNat := by
    intro b'
    simp [Pending.admits, UInt8.le_iff_toNat_le]
  have hnext : ∀ {n : Nat} {b' : UInt8}, 0x80 ≤ b'.toNat → b'.toNat ≤ 0xBF →
      n / 64 ^ left = bits * 64 + (b'.toNat - 0x80) →
      n / 64 ^ (left + 1) = bits ∧ n / 64 ^ left % 64 = b'.toNat - 0x80 := by
    intro n b' hlow hhigh hn
    rw [Nat.pow_succ, ← Nat.div_div_eq_div_mul, hn]
    omega
  refine ⟨by simp, rfl, fun c => ?_, (hadmits _).2 ⟨Nat.le_refl _, hbounds.2.1⟩,
    fun b' hb' => ?_, ?_⟩
  · rw [singleton_prefix_iff, hhead _ (toNat_lt c), List.length_singleton, Nat.add_comm 1]
  · have hb := (hadmits b').1 hb'
    refine ⟨by omega, by omega, fun n hn => ?_⟩
    obtain ⟨hbits, hlast⟩ := hnext (by omega) (by omega) hn
    rw [List.length_singleton, Nat.add_comm 1]
    exact (hwithin n hbits).1 (by omega)
  · intro b' hb' hlow hhigh c hwidth hc
    obtain ⟨hbits, hlast⟩ := hnext hlow hhigh hc
    rw [List.length_singleton, Nat.add_comm 1] at hwidth
    have hin := (hwithin _ hbits).2 ⟨c.valid, hwidth⟩
    rw [(hadmits b').2 (by omega)] at hb'
    cases hb'

/-- An octet that begins a sequence has the bounds of the characters whose encodings it begins. -/
theorem reached_of_begins {b : UInt8} {p : Pending} (h : lead b = .begins p) :
    ∃ left, Reached [b] p left := by
  unfold lead at h
  simp only at h
  repeat' split at h
  all_goals cases h
  all_goals
    refine ⟨_, reached_of_bounds (fun n hn => ?_) (by decide) (fun n hn => ?_)⟩
    · unfold headOf widthOf
      split
      · omega
      split
      · omega
      split <;> omega
    · simp only [UInt8.reduceToNat, Nat.reduceAdd, Nat.reducePow] at hn ⊢
      unfold widthOf Nat.isValidChar
      split
      · omega
      split
      · omega
      split <;> omega

theorem broken_of_stray {b : UInt8} (h : lead b = .stray) (rest : Octets) : Broken [b] rest := by
  have hnot := not_begins_of_stray h
  refine ⟨by simp, fun c hc => hnot ⟨c, ?_⟩, .inr rfl, fun b' _ hmore => hnot hmore.of_append⟩
  obtain ⟨first, more, hfirst⟩ := List.exists_cons_of_ne_nil (encodeChar_ne_nil c)
  rw [hfirst] at hc ⊢
  obtain ⟨rfl, -⟩ := List.cons_prefix_cons.1 hc
  simp

/-! ### Reading -/

/-- What a sequence refuses is read as if nothing were before it. -/
theorem lossyFrom_of_refused {p : Pending} {b : UInt8} (h : p.admits b = false) (rest : Octets) :
    lossyFrom (some p) (b :: rest) = replacement :: lossyFrom none (b :: rest) := by
  simp only [lossyFrom, h, Bool.false_eq_true, if_false]
  cases lead b <;> rfl

/-- Octets are shown as what is read of them, between characters and, with the octets of the
sequence in front, from inside a sequence. -/
theorem shownAs_lossyFrom (bs : Octets) :
    ShownAs bs (lossyFrom none bs) ∧ ∀ part p left, Reached part p left →
      ShownAs (part ++ bs) (lossyFrom (some p) bs) := by
  induction bs with
  | nil => exact ⟨.nil, fun part p left h => .broken (h.broken (by simp)) .nil⟩
  | cons b bs ih =>
    obtain ⟨hbetween, hinside⟩ := ih
    have hnone : ShownAs (b :: bs) (lossyFrom none (b :: bs)) := by
      cases hlead : lead b with
      | whole c =>
        have hchar := ShownAs.char c hbetween
        rw [encodeChar_of_whole hlead] at hchar
        simpa only [lossyFrom, hlead, List.singleton_append] using hchar
      | begins p =>
        obtain ⟨left, hreached⟩ := reached_of_begins hlead
        simpa only [lossyFrom, hlead, List.singleton_append] using hinside [b] p left hreached
      | stray =>
        have hbroken := ShownAs.broken (broken_of_stray hlead bs) hbetween
        simpa only [lossyFrom, hlead, List.singleton_append, replacement] using hbroken
    refine ⟨hnone, fun part p left h => ?_⟩
    cases hb : p.admits b with
    | false =>
      rw [lossyFrom_of_refused hb]
      exact .broken (h.broken (by simpa using hb)) hnone
    | true =>
      have hsplit : part ++ b :: bs = part ++ [b] ++ bs := by simp
      rw [hsplit]
      cases left with
      | zero =>
        have hchar := ShownAs.char (Char.ofNat (p.feed b).bits) hbetween
        rw [h.complete hb] at hchar
        simpa only [lossyFrom, hb, h.owed_eq, if_true, Nat.le_refl] using hchar
      | succ left =>
        have howed : ¬ p.owed ≤ 1 := by rw [h.owed_eq]; omega
        simpa only [lossyFrom, hb, howed, if_true, if_false] using hinside _ _ left (h.feed hb)

/-- How much is broken is determined. -/
theorem Broken.unique {part part' rest rest' : Octets} (h : Broken part rest)
    (h' : Broken part' rest') (heq : part ++ rest = part' ++ rest') :
    part = part' ∧ rest = rest' := by
  have hnot : ∀ {part rest part' rest' more : Octets}, Broken part rest → Broken part' rest' →
      part' = part ++ more → rest = more ++ rest' → more = [] := by
    rintro part rest part' rest' more h h' rfl rfl
    cases more with
    | nil => rfl
    | cons b more =>
      have hbegins : Begins (part ++ b :: more) := by
        rcases h'.begins with hbegins | hsingle
        · exact hbegins
        · have hpos := List.length_pos_iff.2 h.ne_nil
          simp at hsingle
          omega
      have hb : part ++ b :: more = part ++ [b] ++ more := by simp
      exact absurd (hb ▸ hbegins).of_append (h.longest b rfl)
  rcases List.append_eq_append_iff.1 heq with ⟨more, hpart, hrest⟩ | ⟨more, hpart, hrest⟩
  · obtain rfl := hnot h h' hpart hrest
    exact ⟨by simpa using hpart.symm, by simpa using hrest⟩
  · obtain rfl := hnot h' h hpart hrest
    exact ⟨by simpa using hpart, by simpa using hrest.symm⟩

/-- Octets are shown in one way. -/
theorem ShownAs.unique {bs : Octets} {cs ds : List Char} (h : ShownAs bs cs)
    (h' : ShownAs bs ds) : cs = ds := by
  induction h generalizing ds with
  | nil =>
    generalize hnil : ([] : Octets) = bs at h'
    cases h' with
    | nil => rfl
    | char c shown => exact absurd (List.append_eq_nil_iff.1 hnil.symm).1 (encodeChar_ne_nil c)
    | broken hbroken shown =>
      exact absurd (List.append_eq_nil_iff.1 hnil.symm).1 hbroken.ne_nil
  | @char rest cs c shown ih =>
    generalize hbs : String.utf8EncodeChar c ++ rest = bs at h'
    cases h' with
    | nil => exact absurd (List.append_eq_nil_iff.1 hbs).1 (encodeChar_ne_nil c)
    | char d shown' =>
      obtain rfl := prefix_unique ⟨rest, hbs⟩ (List.prefix_append _ _)
      rw [ih (List.append_cancel_left hbs ▸ shown')]
    | broken hbroken shown' => exact absurd ⟨rest, hbs⟩ (hbroken.none_whole c)
  | @broken part rest cs hbroken shown ih =>
    generalize hbs : part ++ rest = bs at h'
    cases h' with
    | nil => exact absurd (List.append_eq_nil_iff.1 hbs).1 hbroken.ne_nil
    | char d shown' =>
      exact absurd ⟨_, hbs.symm⟩ (hbroken.none_whole d)
    | broken hbroken' shown' =>
      obtain ⟨rfl, rfl⟩ := hbroken.unique hbroken' hbs
      rw [ih shown']

/-- Octets are shown as what they are read as, and as nothing else. -/
theorem shownAs_iff {bs : Octets} {cs : List Char} :
    ShownAs bs cs ↔ cs = (decodeLossy bs).toList := by
  have hshown : ShownAs bs (decodeLossy bs).toList := by
    rw [decodeLossy, String.toList_ofList]
    exact (shownAs_lossyFrom bs).1
  exact ⟨fun h => h.unique hshown, fun h => h ▸ hshown⟩

end Utf8
end CjsxConversion
