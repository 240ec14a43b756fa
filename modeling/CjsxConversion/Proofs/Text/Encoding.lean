import CjsxConversion.Text.Utf8

/-!
# What a text begins with as octets

The octets of a text are those of its characters in turn. ASCII characters are their own octets,
and no octet of any other character is an ASCII character, so that a text begins with an ASCII
character exactly if its octets do.

Main results:
* `encode_eq_flatMap`: a text is encoded character by character.
* `encodeChar_of_ascii`, `encodeChar_of_wide`: the octets of a character.
* `head?_encode_eq_some_iff`: what a text and its octets begin with.
-/

namespace CjsxConversion
namespace Utf8

/-- A text is encoded character by character. -/
theorem encode_eq_flatMap (s : String) : encode s = s.toList.flatMap String.utf8EncodeChar := by
  rw [encode, ← String.utf8Encode_toList, List.utf8Encode, List.toList_data_toByteArray]

/-- An ASCII character is its own octet. -/
theorem encodeChar_of_ascii {c : Char} (h : c.toNat < 128) :
    String.utf8EncodeChar c = [UInt8.ofNat c.toNat] := by
  have hval : c.val.toNat ≤ 127 := Nat.le_of_lt_succ h
  simp only [String.utf8EncodeChar, if_pos hval]
  rfl

/-- The octets of any other character are no ASCII characters. -/
theorem encodeChar_of_wide {c : Char} (h : 128 ≤ c.toNat) :
    String.utf8EncodeChar c ≠ [] ∧ ∀ b ∈ String.utf8EncodeChar c, 128 ≤ b.toNat := by
  have hval : ¬ c.val.toNat ≤ 127 := Nat.not_le_of_lt h
  have hbyte (n : Nat) (hn : 128 ≤ n % 256) : 128 ≤ (UInt8.ofNat n).toNat := by
    rw [UInt8.toNat_ofNat']
    exact hn
  simp only [String.utf8EncodeChar, if_neg hval]
  split
  · refine ⟨by simp, ?_⟩
    simp only [List.mem_cons, List.not_mem_nil, or_false]
    rintro b (rfl | rfl)
    all_goals exact hbyte _ (by omega)
  · split
    · refine ⟨by simp, ?_⟩
      simp only [List.mem_cons, List.not_mem_nil, or_false]
      rintro b (rfl | rfl | rfl)
      all_goals exact hbyte _ (by omega)
    · refine ⟨by simp, ?_⟩
      simp only [List.mem_cons, List.not_mem_nil, or_false]
      rintro b (rfl | rfl | rfl | rfl)
      all_goals exact hbyte _ (by omega)

/-- A text begins with an ASCII character exactly if its octets do. -/
theorem head?_encode_eq_some_iff {s : String} {c : Char} (hc : c.toNat < 128) :
    (encode s).head? = some (UInt8.ofNat c.toNat) ↔ s.toList.head? = some c := by
  rw [encode_eq_flatMap]
  cases s.toList with
  | nil => simp
  | cons d rest =>
    rw [List.flatMap_cons]
    by_cases hd : d.toNat < 128
    · have hinj : UInt8.ofNat d.toNat = UInt8.ofNat c.toNat ↔ d = c := by
        rw [← UInt8.toNat_inj, UInt8.toNat_ofNat', UInt8.toNat_ofNat', Nat.mod_eq_of_lt (by omega),
          Nat.mod_eq_of_lt (by omega), Char.toNat_inj]
      simp [encodeChar_of_ascii hd, hinj]
    · obtain ⟨hne, hwide⟩ := encodeChar_of_wide (Nat.not_lt.1 hd)
      obtain ⟨b, bs, hbs⟩ := List.exists_cons_of_ne_nil hne
      have hb : 128 ≤ b.toNat := hwide b (by simp [hbs])
      have hoctet : b ≠ UInt8.ofNat c.toNat := by
        rintro rfl
        rw [UInt8.toNat_ofNat', Nat.mod_eq_of_lt (by omega)] at hb
        omega
      have hchar : d ≠ c := by
        rintro rfl
        exact hd hc
      simp [hbs, hoctet, hchar]

end Utf8
end CjsxConversion
