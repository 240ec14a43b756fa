import CjsxConversion.Proofs.Text.Trimming
import CjsxConversion.Text.Integer
import Mathlib.Data.Nat.Digits.Defs

/-!
# Integers in texts

An integer is spelled by an optional sign and decimal digits, any number of them and any number of
zeros in front, and a text says the integer that it spells between blanks.

The value of digits is that of the library's positional numerals.

Main results:
* `ofDigitChars_eq`: digits read from left to right have their positional value.
* `parse?_eq_some_iff`: reading gives exactly the integer that is spelled, if it has 64 bits.
* `parse?_trim_eq_some_iff`: the same for what a text says.
* `render_eq_toString`: the canonical form of an integer.
-/

namespace CjsxConversion
namespace Integer

/-- The value of decimal digits, the last one counting once. -/
def digitsValue (ds : List Char) : Nat :=
  Nat.ofDigits 10 (ds.map fun c => c.toNat - '0'.toNat).reverse

/-- At least one character, and decimal digits only. -/
structure AreDigits (ds : List Char) : Prop where
  ne_nil : ds ≠ []
  digits : ∀ c ∈ ds, c.isDigit = true

/-- An optional sign and decimal digits spell an integer. -/
inductive Spells : List Char → Int → Prop
  | unsigned {ds : List Char} (h : AreDigits ds) : Spells ds (digitsValue ds)
  | plus {ds : List Char} (h : AreDigits ds) : Spells ('+' :: ds) (digitsValue ds)
  | minus {ds : List Char} (h : AreDigits ds) : Spells ('-' :: ds) (-digitsValue ds)

/-- A text says the integer that it spells between blanks. -/
def Says (text : String) (i : Int) : Prop :=
  ∃ before core after, text.toList = before ++ core ++ after ∧
    (∀ c ∈ before, c.toNat ∈ Blank.whiteSpace) ∧ (∀ c ∈ after, c.toNat ∈ Blank.whiteSpace) ∧
    Spells core i

/-! ### Reading -/

section Reading

variable {cs ds : List Char} {i : Int} {n : Int64}

theorem ofDigitChars_from (ds : List Char) (start : Nat) :
    Nat.ofDigitChars 10 ds start = start * 10 ^ ds.length + digitsValue ds := by
  induction ds generalizing start with
  | nil => simp [digitsValue]
  | cons d ds ih =>
    have hstep : Nat.ofDigitChars 10 (d :: ds) start =
        Nat.ofDigitChars 10 ds (10 * start + (d.toNat - '0'.toNat)) := rfl
    rw [hstep, ih]
    simp only [digitsValue, List.map_cons, List.reverse_cons, Nat.ofDigits_append,
      List.length_reverse, List.length_map, Nat.ofDigits_singleton, List.length_cons]
    ring

/-- Digits read from left to right have their positional value. -/
theorem ofDigitChars_eq (ds : List Char) : Nat.ofDigitChars 10 ds 0 = digitsValue ds := by
  rw [ofDigitChars_from, Nat.zero_mul, Nat.zero_add]

theorem magnitude?_eq_some_iff {m : Nat} :
    magnitude? ds = some m ↔ AreDigits ds ∧ digitsValue ds = m := by
  unfold magnitude?
  rw [ofDigitChars_eq]
  split
  · next h => simpa using fun _ => ⟨h.1, List.all_eq_true.1 h.2⟩
  · next h =>
    have hno : ¬ AreDigits ds := fun hd => h ⟨hd.ne_nil, List.all_eq_true.2 hd.digits⟩
    simp [hno]

theorem toInt_ofInt (h : InRange i) : (Int64.ofInt i).toInt = i := by
  obtain ⟨hlow, hhigh⟩ := h
  exact Int64.toInt_ofInt_of_le hlow (Int.lt_add_one_of_le hhigh)

theorem narrow?_eq_some_iff : narrow? i = some n ↔ n.toInt = i := by
  unfold narrow?
  split
  · next h =>
    constructor
    · intro heq
      rw [← Option.some.inj heq, toInt_ofInt h]
    · intro heq
      rw [← heq, Int64.ofInt_toInt]
  · next h =>
    have hno : n.toInt ≠ i := fun heq => h (heq ▸ mem_range n)
    simp [hno]

theorem AreDigits.not_mem (h : AreDigits ds) : '+' ∉ ds ∧ '-' ∉ ds := by
  constructor <;> intro hmem <;> exact absurd (h.digits _ hmem) (by decide)

theorem spells_plus_iff : Spells ('+' :: ds) i ↔ AreDigits ds ∧ i = digitsValue ds := by
  constructor
  · intro h
    cases h with
    | unsigned h => exact absurd List.mem_cons_self h.not_mem.1
    | plus h => exact ⟨h, rfl⟩
  · rintro ⟨h, rfl⟩
    exact .plus h

theorem spells_minus_iff : Spells ('-' :: ds) i ↔ AreDigits ds ∧ i = -digitsValue ds := by
  constructor
  · intro h
    cases h with
    | unsigned h => exact absurd List.mem_cons_self h.not_mem.2
    | minus h => exact ⟨h, rfl⟩
  · rintro ⟨h, rfl⟩
    exact .minus h

theorem spells_unsigned_iff {c : Char} (hplus : c ≠ '+') (hminus : c ≠ '-') :
    Spells (c :: cs) i ↔ AreDigits (c :: cs) ∧ i = digitsValue (c :: cs) := by
  constructor
  · intro h
    cases h with
    | unsigned h => exact ⟨h, rfl⟩
    | plus => exact absurd rfl hplus
    | minus => exact absurd rfl hminus
  · rintro ⟨h, rfl⟩
    exact .unsigned h

theorem bind_narrow?_eq_some_iff (sign : Nat → Int) :
    ((magnitude? ds).bind fun m => narrow? (sign m)) = some n ↔
      AreDigits ds ∧ n.toInt = sign (digitsValue ds) := by
  rw [Option.bind_eq_some_iff]
  constructor
  · rintro ⟨m, hm, hn⟩
    obtain ⟨hds, rfl⟩ := magnitude?_eq_some_iff.1 hm
    exact ⟨hds, narrow?_eq_some_iff.1 hn⟩
  · rintro ⟨hds, hn⟩
    exact ⟨digitsValue ds, magnitude?_eq_some_iff.2 ⟨hds, rfl⟩, narrow?_eq_some_iff.2 hn⟩

/-- Reading gives exactly the integer that is spelled, if it has 64 bits. -/
theorem parse?_eq_some_iff : parse? cs = some n ↔ Spells cs n.toInt := by
  cases cs with
  | nil =>
    have hno : ∀ i, ¬ Spells [] i := fun i h => by
      cases h with
      | unsigned h => exact h.ne_nil rfl
    simp [parse?, hno]
  | cons c cs =>
    rw [parse?]
    split
    · next hplus => rw [hplus, spells_plus_iff, bind_narrow?_eq_some_iff fun m => m]
    · next hplus =>
      split
      · next hminus => rw [hminus, spells_minus_iff, bind_narrow?_eq_some_iff fun m => -m]
      · next hminus =>
        rw [spells_unsigned_iff hplus hminus, bind_narrow?_eq_some_iff fun m => m]

theorem not_isBlank_of_spells (h : Spells cs i) : ∀ c ∈ cs, Blank.isBlank c = false := by
  have hdigits : ∀ {ds : List Char}, AreDigits ds → ∀ c ∈ ds, Blank.isBlank c = false :=
    fun hds c hc => Blank.isBlank_of_isDigit (hds.digits c hc)
  cases h with
  | unsigned hds => exact hdigits hds
  | plus hds => exact List.forall_mem_cons.2 ⟨by decide, hdigits hds⟩
  | minus hds => exact List.forall_mem_cons.2 ⟨by decide, hdigits hds⟩

/-- A text says what is spelled when the blanks around it are cut. -/
theorem says_iff {text : String} : Says text i ↔ Spells (Blank.trim text.toList) i := by
  simp only [Says, ← Blank.isBlank_iff]
  constructor
  · rintro ⟨before, core, after, htext, hbefore, hafter, hcore⟩
    rw [htext, Blank.trim_of_surrounded hbefore (not_isBlank_of_spells hcore) hafter]
    exact hcore
  · intro h
    obtain ⟨before, after, htext, hbefore, hafter⟩ := Blank.trim_spec text.toList
    exact ⟨before, _, after, htext, hbefore, hafter, h⟩

/-- Reading without blanks gives exactly the integer that a text says, if it has 64 bits. -/
theorem parse?_trim_eq_some_iff {text : String} :
    parse? (Blank.trim text.toList) = some n ↔ Says text n.toInt := by
  rw [parse?_eq_some_iff, says_iff]

/-- A text is read unless it says no integer of 64 bits. -/
theorem parse?_trim_eq_none_iff {text : String} :
    parse? (Blank.trim text.toList) = none ↔ ¬ ∃ i, InRange i ∧ Says text i := by
  rw [Option.eq_none_iff_forall_ne_some]
  constructor
  · rintro h ⟨i, hrange, hsays⟩
    refine h (Int64.ofInt i) (parse?_trim_eq_some_iff.2 ?_)
    rwa [toInt_ofInt hrange]
  · intro h n hn
    exact h ⟨n.toInt, mem_range n, parse?_trim_eq_some_iff.1 hn⟩

end Reading

/-- The canonical form of an integer is that of the library. -/
theorem render_eq_toString (n : Int64) : render n = toString n.toInt := by
  rw [render]
  cases n.toInt with
  | ofNat m => rfl
  | negSucc m => exact String.toList_injective (by simp [renderInt, Int.toString_eq_repr, Int.repr])

end Integer
end CjsxConversion
