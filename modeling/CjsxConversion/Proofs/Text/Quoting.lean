import CjsxConversion.Text.Quoted

/-!
# Quoted words are read back

A word in a message is shown between quotes, with escapes. What is shown names that word and no
other: every escape stands for one character, and none begins with another.

`StandsFor` says which characters stand for one character between quotes, and `IsLiteral`
what a word looks like. Neither mentions how words are written.

Main results:
* `standsFor_escape`: the escape of a character stands for it.
* `isLiteral_quote`: a quoted word is a literal of the word.
* `IsLiteral.unique`: no literal is one of two words.
-/

namespace CjsxConversion
namespace Quoted

/-- The digits of base sixteen. -/
def hexDigits : List Char := "0123456789abcdef".toList

/-- The value of digits of base sixteen. -/
def hexValue (digits : List Char) : Nat :=
  digits.foldl (fun v c => 16 * v + hexDigits.idxOf c) 0

/-- Digits of base sixteen, without zeros in front, say a number. -/
structure SaysHex (digits : List Char) (n : Nat) : Prop where
  hexadecimal : ∀ c ∈ digits, c ∈ hexDigits
  short : digits.head? ≠ some '0'
  value_eq : hexValue digits = n

/-- The letters that stand for control characters behind a backslash. -/
def named : List (Char × Char) :=
  [('0', '\x00'), ('t', '\t'), ('n', '\n'), ('r', '\r')]

/-- What stands for a character between quotes. -/
inductive StandsFor : List Char → Char → Prop
  | itself {c : Char} (visible : Unprintable.isHidden c = false) (free : c ≠ '"' ∧ c ≠ '\\') :
      StandsFor [c] c
  | marked {c : Char} (special : c = '"' ∨ c = '\\') : StandsFor ['\\', c] c
  | byName {letter c : Char} (hname : (letter, c) ∈ named) : StandsFor ['\\', letter] c
  | byCode {digits : List Char} {c : Char} (hidden : Unprintable.isHidden c = true)
      (nameless : c ∉ named.map Prod.snd) (hcode : SaysHex digits c.toNat) :
      StandsFor ('\\' :: 'u' :: '{' :: (digits ++ ['}'])) c

/-- What stands for each character of a word, one after the other. -/
inductive Spells : List Char → List Char → Prop
  | nil : Spells [] []
  | cons {piece shown : List Char} {c : Char} {cs : List Char} (stands : StandsFor piece c)
      (rest : Spells shown cs) : Spells (piece ++ shown) (c :: cs)

/-- A text is a literal of a word: between two quotes stands what stands for its characters. -/
def IsLiteral (text word : String) : Prop :=
  ∃ body, text.toList = '"' :: (body ++ ['"']) ∧ Spells body word.toList

/-! ### Numbers in hexadecimal -/

theorem hexValue_append (digits : List Char) (c : Char) :
    hexValue (digits ++ [c]) = 16 * hexValue digits + hexDigits.idxOf c := by
  simp [hexValue]

/-- A single digit says its value. -/
theorem digitChar_of_lt :
    ∀ n < 16, n.digitChar ∈ hexDigits ∧ hexDigits.idxOf n.digitChar = n := by
  decide

theorem saysHex_hex {n : Nat} (hpos : 0 < n) : SaysHex (hex n) n := by
  unfold hex
  induction n using Nat.strongRecOn with
  | ind n ih =>
    by_cases hn : n < 16
    · obtain ⟨hmem, hindex⟩ := digitChar_of_lt n hn
      rw [Nat.toDigits_of_lt_base hn]
      exact ⟨by simpa using hmem, by simpa using Nat.ne_of_gt hpos,
        by simpa [hexValue] using hindex⟩
    · obtain ⟨hmem, hindex⟩ := digitChar_of_lt (n % 16) (Nat.mod_lt n (by decide))
      have hfront := ih (n / 16) (by omega) (by omega)
      rw [Nat.toDigits_of_base_le (by decide) (by omega)]
      refine ⟨?_, ?_, ?_⟩
      · intro c hc
        rcases List.mem_append.1 hc with hc | hc
        · exact hfront.hexadecimal c hc
        · exact List.mem_singleton.1 hc ▸ hmem
      · cases hfirst : (Nat.toDigits 16 (n / 16)).head? with
        | none => exact absurd (List.head?_eq_none_iff.1 hfirst) Nat.toDigits_ne_nil
        | some c => simpa [List.head?_append, hfirst] using hfront.short
      · rw [hexValue_append, hfront.value_eq, hindex]
        omega

/-! ### Words -/

/-- The escape of a character stands for it. -/
theorem standsFor_escape (c : Char) : StandsFor (escape c) c := by
  unfold escape
  split
  · next h => exact .byName (by simp [h, named])
  split
  · next h => exact .byName (by simp [h, named])
  split
  · next h => exact .byName (by simp [h, named])
  split
  · next h => exact .byName (by simp [h, named])
  split
  · next h => exact h ▸ .marked (.inl h)
  split
  · next h => exact h ▸ .marked (.inr h)
  next hnul htab hreturn hline hquote hbackslash =>
  split
  · next hidden =>
    have hpos : 0 < c.toNat := by
      refine Nat.pos_of_ne_zero fun hzero => hnul ?_
      exact Char.toNat_inj.1 hzero
    exact .byCode hidden (by simp [named, hnul, htab, hreturn, hline]) (saysHex_hex hpos)
  · next hidden => exact .itself (by simpa using hidden) ⟨hquote, hbackslash⟩

theorem spells_flatMap_escape (cs : List Char) : Spells (cs.flatMap escape) cs := by
  induction cs with
  | nil => exact .nil
  | cons c cs ih => exact .cons (standsFor_escape c) ih

/-- A quoted word is a literal of the word. -/
theorem isLiteral_quote (w : String) : IsLiteral (quote w) w :=
  ⟨w.toList.flatMap escape, by simp [quote], spells_flatMap_escape w.toList⟩

/-! ### What stands for one character does not stand for another -/

/-- A number in braces ends with the first closing one. -/
theorem digits_of_append {digits digits' : List Char} {n n' : Nat} {rest rest' : List Char}
    (h : SaysHex digits n) (h' : SaysHex digits' n')
    (heq : digits ++ '}' :: rest = digits' ++ '}' :: rest') : digits = digits' ∧ rest = rest' := by
  have hends : ∀ {ds : List Char} {m : Nat} (more : List Char), SaysHex ds m →
      (ds ++ '}' :: more).takeWhile (· ≠ '}') = ds := by
    intro ds m more hds
    have hbrace : '}' ∉ hexDigits := by decide
    rw [List.takeWhile_append_of_pos]
    · simp
    · exact fun c hc => decide_eq_true fun hc' => hbrace (hc' ▸ hds.hexadecimal c hc)
  have hdigits : digits = digits' := by
    rw [← hends rest h, heq, hends rest' h']
  subst hdigits
  exact ⟨rfl, (List.cons.inj (List.append_cancel_left heq)).2⟩

theorem standsFor_prefix_free {piece piece' rest rest' : List Char} {c c' : Char}
    (h : StandsFor piece c) (h' : StandsFor piece' c') (heq : piece ++ rest = piece' ++ rest') :
    c = c' ∧ rest = rest' := by
  have hfree : ∀ e ∈ named, e.1 ≠ '"' ∧ e.1 ≠ '\\' ∧ e.1 ≠ 'u' := by decide
  have hdistinct : ∀ e ∈ named, ∀ e' ∈ named, e.1 = e'.1 → e.2 = e'.2 := by decide
  cases h with
  | itself visible free => cases h' <;> grind
  | marked special => cases h' <;> grind
  | byName hname => cases h' <;> grind
  | byCode hidden nameless hcode =>
    cases h' with
    | itself visible' free' => grind
    | marked special' => grind
    | byName hname' => grind
    | byCode hidden' nameless' hcode' =>
      simp only [List.cons_append, List.append_assoc, List.cons.injEq, true_and] at heq
      obtain ⟨rfl, rfl⟩ := digits_of_append hcode hcode' heq
      exact ⟨Char.toNat_inj.1 (hcode.value_eq.symm.trans hcode'.value_eq), rfl⟩

theorem StandsFor.ne_nil {piece : List Char} {c : Char} (h : StandsFor piece c) : piece ≠ [] := by
  cases h <;> simp

theorem Spells.unique {shown cs cs' : List Char} (h : Spells shown cs) (h' : Spells shown cs') :
    cs = cs' := by
  induction h generalizing cs' with
  | nil =>
    generalize hshown : ([] : List Char) = shown at h'
    cases h' with
    | nil => rfl
    | cons stands rest => exact absurd (List.append_eq_nil_iff.1 hshown.symm).1 stands.ne_nil
  | @cons piece tail c cs stands rest ih =>
    generalize hshown : piece ++ tail = shown at h'
    cases h' with
    | nil => exact absurd (List.append_eq_nil_iff.1 hshown).1 stands.ne_nil
    | cons stands' rest' =>
      obtain ⟨rfl, rfl⟩ := standsFor_prefix_free stands stands' hshown
      rw [ih rest']

/-- No text is a literal of two words. -/
theorem IsLiteral.unique {text word word' : String} (h : IsLiteral text word)
    (h' : IsLiteral text word') : word = word' := by
  obtain ⟨body, htext, hspells⟩ := h
  obtain ⟨body', htext', hspells'⟩ := h'
  have hbody : body ++ ['"'] = body' ++ ['"'] := (List.cons.inj (htext.symm.trans htext')).2
  obtain rfl := List.append_cancel_right hbody
  exact String.toList_injective (hspells.unique hspells')

end Quoted
end CjsxConversion
