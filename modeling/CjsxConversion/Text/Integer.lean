/-!
# Decimal text of 64-bit integers

`render` gives the canonical form: a minus sign where needed, no leading zero.

`parse?` takes one optional sign and then digits only, at least one of them, any
number of leading zeros, and refuses a value outside the 64-bit range.

Main results:
* `parse?_render`: reading the canonical form gives the integer back.
* `mem_range`: every 64-bit integer lies in the range that reading admits.
-/

namespace CjsxConversion
namespace Integer

/-- The canonical decimal form of an integer. -/
def renderInt : Int → List Char
  | .ofNat n => Nat.toDigits 10 n
  | .negSucc n => '-' :: Nat.toDigits 10 (n + 1)

/-- The canonical decimal form of a 64-bit integer. -/
def render (n : Int64) : String :=
  String.ofList (renderInt n.toInt)

/-- The value of a non-empty row of decimal digits. -/
def magnitude? (cs : List Char) : Option Nat :=
  if cs ≠ [] ∧ cs.all Char.isDigit then some (Nat.ofDigitChars 10 cs 0) else none

/-- The integers that fit into 64 bits. -/
def InRange (i : Int) : Prop :=
  -9223372036854775808 ≤ i ∧ i ≤ 9223372036854775807

instance (i : Int) : Decidable (InRange i) :=
  inferInstanceAs (Decidable (_ ∧ _))

/-- The 64-bit integer of that value, if there is one. -/
def narrow? (i : Int) : Option Int64 :=
  if InRange i then some (Int64.ofInt i) else none

/-- The integer that a text spells. -/
def parse? : List Char → Option Int64
  | [] => none
  | c :: cs =>
    if c = '+' then (magnitude? cs).bind fun n => narrow? n
    else if c = '-' then (magnitude? cs).bind fun n => narrow? (-n)
    else (magnitude? (c :: cs)).bind fun n => narrow? n

theorem mem_range (n : Int64) : InRange n.toInt := by
  have h1 := n.le_toInt
  have h2 := n.toInt_lt
  simp only [Int.reducePow, Int.reduceNeg] at h1 h2
  exact ⟨h1, Int.le_of_lt_add_one h2⟩

theorem narrow?_toInt (n : Int64) : narrow? n.toInt = some n := by
  simp [narrow?, mem_range n]

theorem all_isDigit_toDigits (n : Nat) : (Nat.toDigits 10 n).all Char.isDigit = true := by
  simp only [List.all_eq_true]
  exact fun c hc => Nat.isDigit_of_mem_toDigits (by decide) (by decide) hc

theorem magnitude?_toDigits (n : Nat) : magnitude? (Nat.toDigits 10 n) = some n := by
  have h : Nat.toDigits 10 n ≠ [] := Nat.toDigits_ne_nil
  have hd := all_isDigit_toDigits n
  rw [magnitude?, if_pos ⟨h, hd⟩, Nat.ofDigitChars_toDigits (by decide) (by decide)]

theorem head_toDigits_ne (n : Nat) (c : Char) (cs : List Char)
    (h : Nat.toDigits 10 n = c :: cs) : c ≠ '+' ∧ c ≠ '-' := by
  have hd := all_isDigit_toDigits n
  rw [h] at hd
  simp only [List.all_cons, Bool.and_eq_true] at hd
  constructor <;> rintro rfl <;> exact absurd hd.1 (by decide)

/-- The canonical form of a natural number carries no sign. -/
theorem parse?_toDigits (n : Nat) : parse? (Nat.toDigits 10 n) = narrow? n := by
  unfold parse?
  split
  · next h => exact absurd h Nat.toDigits_ne_nil
  · next c cs h =>
    have hc := head_toDigits_ne n c cs h
    rw [if_neg hc.1, if_neg hc.2, ← h, magnitude?_toDigits, Option.bind_some]

/-- A minus sign negates. -/
theorem parse?_minus (cs : List Char) :
    parse? ('-' :: cs) = (magnitude? cs).bind fun n => narrow? (-n) := by
  have h : ¬ '-' = '+' := by decide
  rw [parse?, if_neg h, if_pos rfl]

theorem parse?_renderInt (i : Int) : parse? (renderInt i) = narrow? i := by
  cases i with
  | ofNat n => exact parse?_toDigits n
  | negSucc n =>
    have h : -((n + 1 : Nat) : Int) = Int.negSucc n := by omega
    rw [renderInt, parse?_minus, magnitude?_toDigits, Option.bind_some, h]

/-- Reading the canonical form of a 64-bit integer gives the integer back. -/
theorem parse?_render (n : Int64) : parse? (render n).toList = some n := by
  simp [render, parse?_renderInt, narrow?_toInt]

end Integer
end CjsxConversion
