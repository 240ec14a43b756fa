import CjsxConversion.Json.Reader
import CjsxConversion.Json.Value

/-!
# Reading what was printed

A value that is printed can be read again, whatever text comes after it, as long as that text does
not go on with a numeral at the end of the value. What is read is the draft that says the same.

An opening bracket takes three calls of the reader before the next character is looked
at, so three times the length of what is printed is fuel enough.

Main results:
* `readString_escaped`: the escaped characters of a string are read as they were.
* `Numeral.readUnsigned_toDigits`: the digits of a number within bounds are read as the number.
* `readValue_print`: a printed value is read as its draft, and the rest of the text is left.
* `Document.ofText_render`: the text of a value is a document that holds the value alone.
-/

namespace CjsxConversion
namespace Json

/-! ### The draft of a value -/

mutual

/-- The draft that says what a value says. -/
def toDraft : Json → Draft
  | .null => .null
  | .bool b => .bool b
  | .int n => .int n
  | .str s => .str s
  | .arr items => .arr (toDrafts items) none
  | .obj members => .obj (toMembers members) none

/-- The drafts of the elements of an array. -/
def toDrafts : List Json → List Draft
  | [] => []
  | v :: vs => toDraft v :: toDrafts vs

/-- The drafts of the members of an object. -/
def toMembers : List (String × Json) → List (Draft × Draft)
  | [] => []
  | (k, v) :: ms => (.str k, toDraft v) :: toMembers ms

end

mutual

/-- Every integer of a value fits into 64 bits, signed or unsigned. -/
def Fits : Json → Prop
  | .int n => -(Numeral.negativeMax : Int) ≤ n ∧ n ≤ (Numeral.significandMax : Int)
  | .arr items => FitAll items
  | .obj members => FitMembers members
  | _ => True

/-- Every integer of the elements of an array fits. -/
def FitAll : List Json → Prop
  | [] => True
  | v :: vs => Fits v ∧ FitAll vs

/-- Every integer of the members of an object fits. -/
def FitMembers : List (String × Json) → Prop
  | [] => True
  | (_, v) :: ms => Fits v ∧ FitMembers ms

end

theorem toDrafts_eq_map (vs : List Json) : toDrafts vs = vs.map toDraft := by
  induction vs with
  | nil => rfl
  | cons v vs ih => rw [toDrafts, ih, List.map_cons]

theorem toMembers_eq_map (ms : List (String × Json)) :
    toMembers ms = ms.map fun m => (.str m.1, toDraft m.2) := by
  induction ms with
  | nil => rfl
  | cons m ms ih => rw [toMembers, ih, List.map_cons]

theorem fitAll_iff {vs : List Json} : FitAll vs ↔ ∀ v ∈ vs, v.Fits := by
  induction vs with
  | nil => simp [FitAll]
  | cons v vs ih => simp [FitAll, ih]

theorem fitMembers_iff {ms : List (String × Json)} : FitMembers ms ↔ ∀ m ∈ ms, m.2.Fits := by
  induction ms with
  | nil => simp [FitMembers]
  | cons m ms ih => simp [FitMembers, ih]

theorem skipSpace_cons {c : Char} (h : isSpace c = false) (cs : List Char) :
    skipSpace (c :: cs) = c :: cs := by
  simp [skipSpace, h]

/-! ### Strings -/

theorem hexValue?_digitChar {n : Nat} (h : n < 16) : hexValue? (Nat.digitChar n) = some n := by
  have hall : ∀ n < 16, hexValue? (Nat.digitChar n) = some n := by decide
  exact hall n h

/-- The digits of a control character are read as its code. -/
theorem hexQuad?_hexPair {n : Nat} (h : n < 0x20) :
    hexQuad? '0' '0' (Nat.digitChar (n / 16)) (Nat.digitChar (n % 16)) = some n := by
  have hzero : hexValue? '0' = some 0 := by decide
  have hhigh := hexValue?_digitChar (show n / 16 < 16 by omega)
  have hlow := hexValue?_digitChar (show n % 16 < 16 by omega)
  simp only [hexQuad?, hzero, hhigh, hlow, bind, Option.bind, pure, Option.some.injEq]
  omega

/-- A short escape is read as its character. -/
theorem readString_short {e x : Char} (h : shortEscape? e = some x) (acc rest : List Char) :
    readString none none acc ('\\' :: e :: rest) = readString none none (x :: acc) rest := by
  have he : e ≠ 'u' := by
    rintro rfl
    cases h
  rw [readString.eq_def]
  simp [he, h, openFault]

/-- A control character is read from its code. -/
theorem readString_code {n : Nat} (h : n < 0x20) (acc rest : List Char) :
    readString none none acc ('\\' :: 'u' :: '0' :: '0' :: (hexPair n ++ rest)) =
      readString none none (Char.ofNat n :: acc) rest := by
  have hquad := hexQuad?_hexPair h
  have hlow : ¬ (0xDC00 ≤ n ∧ n ≤ 0xDFFF) := by omega
  have hhigh : ¬ (0xD800 ≤ n ∧ n ≤ 0xDBFF) := by omega
  rw [hexPair, List.cons_append, List.cons_append, List.nil_append, readString.eq_def]
  simp [hquad, takeUnit, hlow, hhigh]

/-- Any other character is read as it is. -/
theorem readString_plain {c : Char} (hquote : c ≠ '"') (hslash : c ≠ '\\') (h : ¬ c.toNat < 0x20)
    (acc rest : List Char) :
    readString none none acc (c :: rest) = readString none none (c :: acc) rest := by
  rw [readString.eq_def]
  simp [hquote, hslash, h, openFault]

/-- An escaped character is read as it was. -/
theorem readString_escapeChar (c : Char) (acc rest : List Char) :
    readString none none acc (escapeChar c ++ rest) = readString none none (c :: acc) rest := by
  by_cases hshort : c ∈ ['"', '\\', '\x08', '\x0c', '\n', '\r', '\t']
  · have hescape : ∃ e, escapeChar c = ['\\', e] ∧ shortEscape? e = some c := by
      simp only [List.mem_cons, List.not_mem_nil, or_false] at hshort
      rcases hshort with rfl | rfl | rfl | rfl | rfl | rfl | rfl <;> exact ⟨_, rfl, rfl⟩
    obtain ⟨e, hescape, he⟩ := hescape
    rw [hescape]
    exact readString_short he acc rest
  · simp only [List.mem_cons, List.not_mem_nil, or_false, not_or] at hshort
    obtain ⟨hquote, hslash, hb, hf, hn, hr, ht⟩ := hshort
    simp only [escapeChar, hquote, hslash, hb, hf, hn, hr, ht, if_false]
    split
    · next hcontrol =>
      have hcode := readString_code hcontrol acc rest
      rw [Char.ofNat_toNat] at hcode
      exact hcode
    · next hcontrol => exact readString_plain hquote hslash hcontrol acc rest

/-- The escaped characters of a string are read as they were. -/
theorem readString_escaped (cs acc rest : List Char) :
    readString none none acc (cs.flatMap escapeChar ++ '"' :: rest) =
      (.str (String.ofList (acc.reverse ++ cs)), some rest) := by
  induction cs generalizing acc with
  | nil =>
    rw [List.flatMap_nil, List.nil_append, readString.eq_def]
    simp [openFault]
  | cons c cs ih =>
    rw [List.flatMap_cons, List.append_assoc, readString_escapeChar, ih]
    simp

/-- A printed string is its quote and the rest, which is read as the string. -/
theorem printString_append (s : String) (rest : List Char) :
    ∃ inner, printString s ++ rest = '"' :: inner ∧
      readString none none [] inner = (.str s, some rest) := by
  refine ⟨s.toList.flatMap escapeChar ++ '"' :: rest, by simp [printString], ?_⟩
  rw [readString_escaped]
  simp

/-! ### Numerals -/

namespace Numeral

/-- A text does not go on with a numeral. -/
def Ends (cs : List Char) : Prop :=
  ∀ c ∈ cs.head?, c.isDigit = false ∧ c ≠ '.' ∧ c ≠ 'e' ∧ c ≠ 'E'

theorem ends_nil : Ends [] := by
  simp [Ends]

theorem ends_cons {c : Char} (h : c = ',' ∨ c = ']' ∨ c = '}') (cs : List Char) :
    Ends (c :: cs) := by
  rcases h with rfl | rfl | rfl <;> simp [Ends]

/-- The digits of a positive number do not begin with zero. -/
theorem head?_toDigits_ne_zero (n : Nat) (h : 0 < n) : (Nat.toDigits 10 n).head? ≠ some '0' := by
  induction n using Nat.strongRecOn with
  | ind n ih =>
    by_cases hn : n < 10
    · rw [Nat.toDigits_of_lt_base hn]
      simpa using (Nat.pos_iff_ne_zero.1 h)
    · have hq := ih (n / 10) (by omega) (by omega)
      rw [Nat.toDigits_of_base_le (by decide) (by omega), List.head?_append]
      cases hhead : (Nat.toDigits 10 (n / 10)).head? with
      | none => exact absurd (List.head?_eq_none_iff.1 hhead) Nat.toDigits_ne_nil
      | some c => simpa [hhead] using hq

/-- Digits whose value fits into a significand are all taken in. -/
theorem gather_of_le {ds : List Char} {s : Nat}
    (h : Nat.ofDigitChars 10 ds s ≤ significandMax) :
    gather s ds = (Nat.ofDigitChars 10 ds s, []) := by
  induction ds generalizing s with
  | nil => simp [gather]
  | cons d ds ih =>
    have hstep : 10 * s + (d.toNat - '0'.toNat) = s * 10 + digitValue d := by
      simp [digitValue, Nat.mul_comm]
    rw [Nat.ofDigitChars_cons, hstep] at h ⊢
    have hle : s * 10 + digitValue d ≤ significandMax := by
      refine Nat.le_trans ?_ h
      rw [Nat.ofDigitChars_eq_ofDigitChars_zero]
      exact Nat.le_trans (Nat.le_mul_of_pos_left _ (Nat.pow_pos (by decide))) (Nat.le_add_right _ _)
    simp only [gather, hle, if_true]
    exact ih h

theorem gather_toDigits {n : Nat} (h : n ≤ significandMax) :
    gather 0 (Nat.toDigits 10 n) = (n, []) := by
  have hvalue : Nat.ofDigitChars 10 (Nat.toDigits 10 n) 0 = n := Nat.ofDigitChars_ten_toDigits
  rw [gather_of_le (by rw [hvalue]; exact h), hvalue]

/-- Digits are read up to the end of a numeral. -/
theorem readFraction_of_ends (p : Parts) {cs : List Char} (h : Ends cs) :
    readFraction p cs = (draft p, some cs) := by
  cases cs with
  | nil => rfl
  | cons c cs =>
    obtain ⟨-, hpoint, he, hE⟩ := h c rfl
    unfold readFraction
    split
    · next heq => exact absurd (List.cons.inj heq).1 hpoint
    · simp [readExponent, he, hE]

/-- The digits of a number are read as a numeral without fraction and exponent. -/
theorem readUnsigned_toDigits (negative : Bool) (n : Nat) {rest : List Char} (h : Ends rest) :
    readUnsigned negative (Nat.toDigits 10 n ++ rest) =
      (draft ⟨negative, Nat.toDigits 10 n, none, none⟩, some rest) := by
  have hdigits : ∀ c ∈ Nat.toDigits 10 n, c.isDigit = true :=
    fun c hc => Nat.isDigit_of_mem_toDigits (by decide) (by decide) hc
  have hrest : rest.takeWhile Char.isDigit = [] ∧ rest.dropWhile Char.isDigit = rest := by
    cases rest with
    | nil => exact ⟨rfl, rfl⟩
    | cons c cs => simp [(h c rfl).1]
  have hzero : ∀ c cs, Nat.toDigits 10 n ≠ '0' :: c :: cs := by
    intro c cs heq
    rcases Nat.eq_zero_or_pos n with rfl | hn
    · simp at heq
    · exact head?_toDigits_ne_zero n hn (by rw [heq]; rfl)
  unfold readUnsigned
  simp only
  rw [List.takeWhile_append_of_pos hdigits, List.dropWhile_append_of_pos hdigits, hrest.1, hrest.2,
    List.append_nil]
  split
  · next heq => exact absurd heq Nat.toDigits_ne_nil
  · next heq => exact absurd heq (hzero _ _)
  · exact readFraction_of_ends _ h

theorem draft_of_nonneg {n : Nat} (h : n ≤ significandMax) :
    draft ⟨false, Nat.toDigits 10 n, none, none⟩ = .int n := by
  simp [draft, gather_toDigits h]

theorem draft_of_neg {n : Nat} (hpos : 0 < n) (h : n ≤ negativeMax) :
    draft ⟨true, Nat.toDigits 10 n, none, none⟩ = .int (-(n : Int)) := by
  have hmax : n ≤ significandMax := Nat.le_trans h (by decide)
  simp [draft, gather_toDigits hmax, Nat.pos_iff_ne_zero.1 hpos, h]

end Numeral

/-! ### Values -/

section Values

variable (fuel : Nat) {rest : List Char}

theorem readValue_printString (s : String) :
    readValue (fuel + 1) (printString s ++ rest) = (.str s, some rest) := by
  obtain ⟨inner, htext, hread⟩ := printString_append s rest
  rw [htext, readValue, skipSpace_cons (by decide)]
  simp [hread]

theorem ne_of_isDigit {c d : Char} (hc : c.isDigit = true) (hd : d.isDigit = false) : c ≠ d := by
  rintro rfl
  rw [hc] at hd
  cases hd

theorem isSpace_of_isDigit {c : Char} (hc : c.isDigit = true) : isSpace c = false := by
  have hne := fun d => ne_of_isDigit (d := d) hc
  simp [isSpace, hne ' ' rfl, hne '\n' rfl, hne '\t' rfl, hne '\r' rfl]

theorem toDigits_eq_cons (n : Nat) : ∃ c cs, Nat.toDigits 10 n = c :: cs ∧ c.isDigit = true := by
  cases hdigits : Nat.toDigits 10 n with
  | nil => exact absurd hdigits Nat.toDigits_ne_nil
  | cons c cs =>
    have hc : c ∈ Nat.toDigits 10 n := hdigits ▸ List.mem_cons_self
    exact ⟨c, cs, rfl, Nat.isDigit_of_mem_toDigits (by decide) (by decide) hc⟩

/-- Digits begin a numeral and nothing else. -/
theorem readValue_of_isDigit {c : Char} (hc : c.isDigit = true) (cs : List Char) :
    readValue (fuel + 1) (c :: cs) = Numeral.readUnsigned false (c :: cs) := by
  have hne := fun d => ne_of_isDigit (d := d) hc
  rw [readValue, skipSpace_cons (isSpace_of_isDigit hc)]
  simp [hne 'n' rfl, hne 't' rfl, hne 'f' rfl, hne '"' rfl, hne '-' rfl, hc]

theorem readValue_printInt {n : Int} (h : (Json.int n).Fits) (hrest : Numeral.Ends rest) :
    readValue (fuel + 1) (printInt n ++ rest) = (.int n, some rest) := by
  obtain ⟨hlow, hhigh⟩ := h
  cases n with
  | ofNat n =>
    have hread := Numeral.readUnsigned_toDigits false n hrest
    rw [Numeral.draft_of_nonneg (Int.ofNat_le.1 hhigh)] at hread
    obtain ⟨c, cs, hdigits, hc⟩ := toDigits_eq_cons n
    rw [hdigits] at hread
    rw [printInt, hdigits, List.cons_append, readValue_of_isDigit fuel hc]
    exact hread
  | negSucc n =>
    have hneg : -((n + 1 : Nat) : Int) = Int.negSucc n := by omega
    have hmax : n + 1 ≤ Numeral.negativeMax := by omega
    have hread := Numeral.readUnsigned_toDigits true (n + 1) hrest
    rw [Numeral.draft_of_neg (Nat.succ_pos n) hmax, hneg] at hread
    rw [printInt, List.cons_append, readValue, skipSpace_cons (by decide)]
    simp [hread]

/-- A printed value begins with a character that is no space and does not end an array. -/
theorem print_eq_cons (v : Json) :
    ∃ c cs, print v = c :: cs ∧ isSpace c = false ∧ c ≠ ']' := by
  cases v with
  | null => exact ⟨_, _, rfl, by decide, by decide⟩
  | bool b => cases b <;> exact ⟨_, _, rfl, by decide, by decide⟩
  | int n =>
    cases n with
    | ofNat n =>
      obtain ⟨c, cs, hdigits, hc⟩ := toDigits_eq_cons n
      exact ⟨c, cs, by simp [print, printInt, hdigits], isSpace_of_isDigit hc,
        ne_of_isDigit hc rfl⟩
    | negSucc n => exact ⟨_, _, rfl, by decide, by decide⟩
  | str s => exact ⟨_, _, rfl, by decide, by decide⟩
  | arr items => exact ⟨_, _, rfl, by decide, by decide⟩
  | obj members => exact ⟨_, _, rfl, by decide, by decide⟩

theorem print_length_pos (v : Json) : 0 < (print v).length := by
  obtain ⟨c, cs, hprint, -⟩ := print_eq_cons v
  simp [hprint]

/-! ### Elements and members -/

/-- What follows an element goes on with no numeral. -/
theorem ends_itemsAfter (vs : List Json) (rest : List Char) :
    Numeral.Ends (printItemsAfter vs ++ ']' :: rest) := by
  cases vs with
  | nil => exact Numeral.ends_cons (.inr (.inl rfl)) _
  | cons v vs => exact Numeral.ends_cons (.inl rfl) _

/-- What follows a member goes on with no numeral. -/
theorem ends_membersAfter (ms : List (String × Json)) (rest : List Char) :
    Numeral.Ends (printMembersAfter ms ++ '}' :: rest) := by
  cases ms with
  | nil => exact Numeral.ends_cons (.inr (.inr rfl)) _
  | cons m ms => exact Numeral.ends_cons (.inl rfl) _

variable {fuel}

/-- An element that is read is followed by those after it. -/
theorem readItem_of_value {cs after : List Char} {d : Draft} {ds : List Draft}
    {broken : Option Break} {left : Option (List Char)}
    (hvalue : readValue fuel cs = (d, some after))
    (hafter : readItems fuel false after = (ds, broken, left)) :
    readItem (fuel + 1) cs = (d :: ds, broken, left) := by
  rw [readItem, hvalue]
  simp [hafter]

/-- The first element of an array is read where it begins. -/
theorem readItems_first (v : Json) (after : List Char) :
    readItems (fuel + 1) true (print v ++ after) = readItem fuel (print v ++ after) := by
  obtain ⟨c, cs, hprint, hspace, hend⟩ := print_eq_cons v
  rw [hprint, List.cons_append, readItems, skipSpace_cons hspace]
  simp [hend]

/-- Every other element is read behind its comma. -/
theorem readItems_next (v : Json) (after : List Char) :
    readItems (fuel + 1) false (',' :: (print v ++ after)) = readItem fuel (print v ++ after) := by
  obtain ⟨c, cs, hprint, hspace, hend⟩ := print_eq_cons v
  rw [hprint, List.cons_append, readItems, skipSpace_cons (by decide)]
  simp [skipSpace_cons hspace, hend]

/-- A member that is read is followed by those after it. -/
theorem readMember_of_value {k : String} {cs after : List Char} {d : Draft}
    {ds : List (Draft × Draft)} {broken : Option Break} {left : Option (List Char)}
    (hvalue : readValue fuel cs = (d, some after))
    (hafter : readMembers fuel false after = (ds, broken, left)) :
    readMember (fuel + 1) (printString k ++ ':' :: cs) = ((.str k, d) :: ds, broken, left) := by
  obtain ⟨inner, htext, hread⟩ := printString_append k (':' :: cs)
  rw [htext, readMember, hread]
  simp [skipSpace_cons (show isSpace ':' = false by decide), hvalue, hafter]

/-- The first member of an object is read where it begins. -/
theorem readMembers_first (k : String) (after : List Char) :
    readMembers (fuel + 1) true (printString k ++ after) =
      readMember fuel (printString k ++ after) := by
  rw [printString, List.cons_append, readMembers, skipSpace_cons (by decide)]
  simp

/-- Every other member is read behind its comma. -/
theorem readMembers_next (k : String) (after : List Char) :
    readMembers (fuel + 1) false (',' :: (printString k ++ after)) =
      readMember fuel (printString k ++ after) := by
  rw [printString, List.cons_append, readMembers, skipSpace_cons (by decide)]
  simp [skipSpace_cons (show isSpace '"' = false by decide)]

end Values

/-! ### Whole values -/

mutual

/-- A printed value is read as its draft, and what comes after it is left. -/
theorem readValue_print : ∀ (v : Json) (fuel : Nat) (rest : List Char), v.Fits →
    Numeral.Ends rest → 3 * (print v).length ≤ fuel →
    readValue fuel (print v ++ rest) = (toDraft v, some rest)
  | v, 0, _, _, _, hfuel => by
    have hpos := print_length_pos v
    omega
  | .null, fuel + 1, rest, _, _, _ => by
    rw [print, readValue]
    rfl
  | .bool true, fuel + 1, rest, _, _, _ => by
    rw [print, readValue]
    rfl
  | .bool false, fuel + 1, rest, _, _, _ => by
    rw [print, readValue]
    rfl
  | .int n, fuel + 1, rest, hfits, hrest, _ => by
    rw [print, toDraft]
    exact readValue_printInt fuel hfits hrest
  | .str s, fuel + 1, rest, _, _, _ => by
    rw [print, toDraft]
    exact readValue_printString fuel s
  | .arr [], fuel + 1, rest, _, _, hfuel => by
    obtain ⟨fuel, rfl⟩ : ∃ n, fuel = n + 1 := ⟨fuel - 1, by simp [print] at hfuel; omega⟩
    rfl
  | .arr (v :: vs), fuel + 1, rest, hfits, _, hfuel => by
    have htext : print (.arr (v :: vs)) ++ rest =
        '[' :: (print v ++ (printItemsAfter vs ++ ']' :: rest)) := by
      simp [print, printItems]
    have hlength : (print (.arr (v :: vs))).length =
        (print v).length + (printItemsAfter vs).length + 2 := by
      simp [print, printItems, Nat.add_assoc]
    rw [hlength] at hfuel
    obtain ⟨fuel, rfl⟩ : ∃ n, fuel = n + 2 := ⟨fuel - 2, by omega⟩
    have hvalue := readValue_print v fuel _ hfits.1 (ends_itemsAfter vs rest) (by omega)
    have hafter := readItems_printItemsAfter vs fuel rest hfits.2 (by omega)
    rw [htext, readValue, skipSpace_cons (by decide)]
    simp [readItems_first, readItem_of_value hvalue hafter, toDraft, toDrafts]
  | .obj [], fuel + 1, rest, _, _, hfuel => by
    obtain ⟨fuel, rfl⟩ : ∃ n, fuel = n + 1 := ⟨fuel - 1, by simp [print] at hfuel; omega⟩
    rfl
  | .obj ((k, v) :: ms), fuel + 1, rest, hfits, _, hfuel => by
    have htext : print (.obj ((k, v) :: ms)) ++ rest =
        '{' :: (printString k ++ ':' :: (print v ++ (printMembersAfter ms ++ '}' :: rest))) := by
      simp [print, printMembers]
    have hlength : (print v).length + (printMembersAfter ms).length + 2 ≤
        (print (.obj ((k, v) :: ms))).length := by
      simp [print, printMembers]
      omega
    obtain ⟨fuel, rfl⟩ : ∃ n, fuel = n + 2 := ⟨fuel - 2, by omega⟩
    have hvalue := readValue_print v fuel _ hfits.1 (ends_membersAfter ms rest) (by omega)
    have hafter := readMembers_printMembersAfter ms fuel rest hfits.2 (by omega)
    rw [htext, readValue, skipSpace_cons (by decide)]
    simp [readMembers_first, readMember_of_value hvalue hafter, toDraft, toMembers]

/-- The elements that follow another one are read up to the end of the array. -/
theorem readItems_printItemsAfter : ∀ (vs : List Json) (fuel : Nat) (rest : List Char),
    FitAll vs → 3 * (printItemsAfter vs).length + 1 ≤ fuel →
    readItems fuel false (printItemsAfter vs ++ ']' :: rest) = (toDrafts vs, none, some rest)
  | [], 0, _, _, hfuel => by omega
  | [], fuel + 1, rest, _, _ => rfl
  | v :: vs, fuel, rest, hfits, hfuel => by
    have htext : printItemsAfter (v :: vs) ++ ']' :: rest =
        ',' :: (print v ++ (printItemsAfter vs ++ ']' :: rest)) := by
      simp [printItemsAfter]
    have hlength : (printItemsAfter (v :: vs)).length =
        (print v).length + (printItemsAfter vs).length + 1 := by
      simp [printItemsAfter]
    rw [hlength] at hfuel
    obtain ⟨fuel, rfl⟩ : ∃ n, fuel = n + 2 := ⟨fuel - 2, by omega⟩
    have hvalue := readValue_print v fuel _ hfits.1 (ends_itemsAfter vs rest) (by omega)
    have hafter := readItems_printItemsAfter vs fuel rest hfits.2 (by omega)
    rw [htext, readItems_next, readItem_of_value hvalue hafter, toDrafts]

/-- The members that follow another one are read up to the end of the object. -/
theorem readMembers_printMembersAfter : ∀ (ms : List (String × Json)) (fuel : Nat)
    (rest : List Char), FitMembers ms → 3 * (printMembersAfter ms).length + 1 ≤ fuel →
    readMembers fuel false (printMembersAfter ms ++ '}' :: rest) = (toMembers ms, none, some rest)
  | [], 0, _, _, hfuel => by omega
  | [], fuel + 1, rest, _, _ => rfl
  | (k, v) :: ms, fuel, rest, hfits, hfuel => by
    have htext : printMembersAfter ((k, v) :: ms) ++ '}' :: rest =
        ',' :: (printString k ++ ':' :: (print v ++ (printMembersAfter ms ++ '}' :: rest))) := by
      simp [printMembersAfter]
    have hlength : (print v).length + (printMembersAfter ms).length + 2 ≤
        (printMembersAfter ((k, v) :: ms)).length := by
      simp [printMembersAfter]
    obtain ⟨fuel, rfl⟩ : ∃ n, fuel = n + 2 := ⟨fuel - 2, by omega⟩
    have hvalue := readValue_print v fuel _ hfits.1 (ends_membersAfter ms rest) (by omega)
    have hafter := readMembers_printMembersAfter ms fuel rest hfits.2 (by omega)
    rw [htext, readMembers_next, readMember_of_value hvalue hafter, toMembers]

end

/-- The text of a value is a document that holds the value alone. -/
theorem Document.ofText_render {v : Json} (h : v.Fits) :
    Document.ofText v.render = ⟨v.toDraft, false⟩ := by
  have hread := readValue_print v (readingBound (print v)) [] h Numeral.ends_nil
    (by unfold readingBound; omega)
  rw [List.append_nil] at hread
  simp [Document.ofText, render, hread, skipSpace]

end Json
end CjsxConversion
