import CjsxConversion.Proofs.Text.Cutting
import CjsxConversion.Proofs.Text.Encoding

/-!
# Searching and cutting octets

A text can be searched and cut by its octets as well. An offset is a boundary if a character begins
there or the text ends, and cutting anywhere else is refused. For a pattern of ASCII characters
both ways agree: its octets are found exactly where its characters are, at a boundary.

Main results:
* `isBoundary_ofChars`: an offset behind whole characters is a boundary.
* `find?_ofChars`: where the octets of a pattern are found.
-/

namespace CjsxConversion
namespace Utf8

/-- The octets of characters. -/
def ofChars (cs : List Char) : Octets :=
  cs.flatMap String.utf8EncodeChar

/-- Whether a character begins at an offset, or the octets end there. -/
def IsBoundary (b : Octets) (i : Nat) : Prop :=
  i ≤ b.length ∧ ∀ o ∈ b[i]?, o.IsUTF8FirstByte

instance (b : Octets) (i : Nat) : Decidable (IsBoundary b i) :=
  inferInstanceAs (Decidable (_ ∧ _))

/-- The octets before an offset, which must be a boundary. -/
def upTo? (b : Octets) (i : Nat) : Option Octets :=
  if IsBoundary b i then some (b.take i) else none

/-- The octets from an offset on, which must be a boundary. -/
def from? (b : Octets) (i : Nat) : Option Octets :=
  if IsBoundary b i then some (b.drop i) else none

/-- The offset of the first occurrence of a pattern. -/
def find? (pattern : Octets) : Octets → Option Nat
  | [] => if pattern = [] then some 0 else none
  | b :: bs =>
    if pattern.isPrefixOf (b :: bs) then some 0 else (find? pattern bs).map (· + 1)

@[simp] theorem ofChars_nil : ofChars [] = [] := rfl

@[simp] theorem ofChars_cons (c : Char) (cs : List Char) :
    ofChars (c :: cs) = String.utf8EncodeChar c ++ ofChars cs :=
  List.flatMap_cons

@[simp] theorem ofChars_append (cs ds : List Char) :
    ofChars (cs ++ ds) = ofChars cs ++ ofChars ds :=
  List.flatMap_append

theorem encode_ofList (cs : List Char) : encode (String.ofList cs) = ofChars cs := by
  rw [encode_eq_flatMap, String.toList_ofList, ofChars]

theorem encode_toList (s : String) : encode s = ofChars s.toList :=
  encode_eq_flatMap s

theorem decode?_ofChars (cs : List Char) : decode? (ofChars cs) = some (String.ofList cs) := by
  rw [← encode_ofList, decode?_encode]

theorem size_ofList (cs : List Char) : size (String.ofList cs) = (ofChars cs).length := by
  rw [← encode_ofList]
  exact (Array.length_toList).symm

/-! ### Cutting -/

/-- An offset behind whole characters is a boundary. -/
theorem isBoundary_ofChars (cs ds : List Char) :
    IsBoundary (ofChars (cs ++ ds)) (ofChars cs).length := by
  rw [ofChars_append]
  refine ⟨by simp, fun o ho => ?_⟩
  rw [List.getElem?_append_right (Nat.le_refl _), Nat.sub_self] at ho
  cases ds with
  | nil => cases ho
  | cons d ds =>
    rw [ofChars_cons, List.getElem?_append_left (by simp [d.utf8Size_pos])] at ho
    obtain ⟨hpos, rfl⟩ := List.getElem?_eq_some_iff.1 ho
    exact UInt8.isUTF8FirstByte_getElem_zero_utf8EncodeChar

theorem upTo?_ofChars (cs ds : List Char) :
    upTo? (ofChars (cs ++ ds)) (ofChars cs).length = some (ofChars cs) := by
  rw [upTo?, if_pos (isBoundary_ofChars cs ds), ofChars_append, List.take_left]

theorem from?_ofChars (cs ds : List Char) :
    from? (ofChars (cs ++ ds)) (ofChars cs).length = some (ofChars ds) := by
  rw [from?, if_pos (isBoundary_ofChars cs ds), ofChars_append, List.drop_left]

theorem length_of_from? {b rest : Octets} {i : Nat} (h : from? b i = some rest) :
    i + rest.length = b.length := by
  unfold from? at h
  split at h
  · next hi =>
    cases h
    have hle := hi.1
    rw [List.length_drop]
    omega
  · cases h

/-! ### Searching -/

section Searching

variable {pattern : List Char}

/-- The octets of ASCII characters stand at the beginning exactly if the characters do. -/
theorem ofChars_prefix_iff (h : ∀ c ∈ pattern, c.toNat < 128) (cs : List Char) :
    ofChars pattern <+: ofChars cs ↔ pattern <+: cs := by
  induction pattern generalizing cs with
  | nil => simp
  | cons p ps ih =>
    have hp : p.toNat < 128 := h p List.mem_cons_self
    rw [ofChars_cons, encodeChar_of_ascii hp, List.singleton_append]
    cases cs with
    | nil => simp
    | cons c cs =>
      rw [ofChars_cons, List.cons_prefix_cons]
      by_cases hc : c.toNat < 128
      · have hinj : UInt8.ofNat p.toNat = UInt8.ofNat c.toNat ↔ p = c := by
          rw [← UInt8.toNat_inj, UInt8.toNat_ofNat', UInt8.toNat_ofNat',
            Nat.mod_eq_of_lt (by omega), Nat.mod_eq_of_lt (by omega), Char.toNat_inj]
        rw [encodeChar_of_ascii hc, List.singleton_append, List.cons_prefix_cons, hinj,
          ih (fun d hd => h d (List.mem_cons_of_mem p hd))]
      · obtain ⟨hne, hwide⟩ := encodeChar_of_wide (Nat.not_lt.1 hc)
        obtain ⟨b, bs, hbs⟩ := List.exists_cons_of_ne_nil hne
        have hb : 128 ≤ b.toNat := hwide b (by simp [hbs])
        have hoctet : UInt8.ofNat p.toNat ≠ b := by
          rintro rfl
          rw [UInt8.toNat_ofNat', Nat.mod_eq_of_lt (by omega)] at hb
          omega
        have hchar : p ≠ c := by
          rintro rfl
          exact hc hp
        rw [hbs, List.cons_append, List.cons_prefix_cons]
        simp [hoctet, hchar]

/-- Octets with which no occurrence begins are passed over. -/
theorem find?_append {p : UInt8} {ps ws : Octets} (h : p ∉ ws) (rest : Octets) :
    find? (p :: ps) (ws ++ rest) = (find? (p :: ps) rest).map (· + ws.length) := by
  induction ws with
  | nil => simp
  | cons w ws ih =>
    rw [List.mem_cons, not_or] at h
    have hstart : ¬ (p :: ps).isPrefixOf (w :: (ws ++ rest)) = true := by
      rw [List.isPrefixOf_iff_prefix, List.cons_prefix_cons]
      exact fun hpw => h.1 hpw.1
    rw [List.cons_append, find?, if_neg hstart, ih h.2, Option.map_map]
    rfl

/-- The octets of a pattern of ASCII characters are found where its characters are. -/
theorem find?_ofChars (hne : pattern ≠ []) (h : ∀ c ∈ pattern, c.toNat < 128) (cs : List Char) :
    find? (ofChars pattern) (ofChars cs) =
      (Search.cut? pattern cs).map fun q => (ofChars q.1).length := by
  obtain ⟨p, ps, rfl⟩ := List.exists_cons_of_ne_nil hne
  have hp : p.toNat < 128 := h p List.mem_cons_self
  have hpattern : ofChars (p :: ps) = UInt8.ofNat p.toNat :: ofChars ps := by
    rw [ofChars_cons, encodeChar_of_ascii hp, List.singleton_append]
  induction cs with
  | nil => simp [find?, Search.cut?, hpattern]
  | cons c cs ih =>
    by_cases hstart : (p :: ps) <+: c :: cs
    · have hoctets := (ofChars_prefix_iff h (c :: cs)).2 hstart
      obtain ⟨rest, hrest⟩ := hstart
      rw [← hrest, Search.cut?_of_prefix hne, hrest]
      cases hcs : ofChars (c :: cs) with
      | nil => simp [hcs, hpattern] at hoctets
      | cons b bs =>
        rw [hcs] at hoctets
        rw [find?, if_pos (List.isPrefixOf_iff_prefix.2 hoctets)]
        rfl
    · have hcut := Search.cut?_cons_of_plain hstart
      have hoctets := mt (ofChars_prefix_iff h (c :: cs)).1 hstart
      rw [ofChars_cons c cs] at hoctets ⊢
      have hpassed : find? (ofChars (p :: ps)) (String.utf8EncodeChar c ++ ofChars cs) =
          (find? (ofChars (p :: ps)) (ofChars cs)).map
            (· + (String.utf8EncodeChar c).length) := by
        by_cases hc : c.toNat < 128
        · rw [encodeChar_of_ascii hc, List.singleton_append] at hoctets ⊢
          rw [find?, if_neg fun hlong => hoctets (List.isPrefixOf_iff_prefix.1 hlong)]
          rfl
        · rw [hpattern]
          refine find?_append (fun hmem => ?_) _
          have hwide := (encodeChar_of_wide (Nat.not_lt.1 hc)).2 _ hmem
          rw [UInt8.toNat_ofNat', Nat.mod_eq_of_lt (by omega)] at hwide
          omega
      rw [hpassed, ih, hcut, Option.map_map, Option.map_map]
      congr 1
      funext q
      simp only [Function.comp_apply, ofChars_cons, List.length_append]
      omega

end Searching

end Utf8
end CjsxConversion
