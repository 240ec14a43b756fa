/-!
# Finding a pattern in a text

Main results:
* `eq_append_of_cut?`: what stands before a pattern, the pattern and what stands after it make up
  the whole text.
-/

namespace CjsxConversion
namespace Search

/-- The rest of a text after a given beginning. -/
def afterStart? : List Char → List Char → Option (List Char)
  | [], cs => some cs
  | _ :: _, [] => none
  | p :: ps, c :: cs => if p = c then afterStart? ps cs else none

/-- What stands before and after the first occurrence of a pattern. -/
def cut? (pattern : List Char) : List Char → Option (List Char × List Char)
  | [] => if pattern = [] then some ([], []) else none
  | c :: cs =>
    match afterStart? pattern (c :: cs) with
    | some rest => some ([], rest)
    | none => (cut? pattern cs).map fun p => (c :: p.1, p.2)

/-- Whether a pattern stands in a text. -/
def occursIn (pattern cs : List Char) : Bool :=
  (cut? pattern cs).isSome

/-- Replaces a pattern from left to right. The characters of a match are passed over. -/
def replaceFrom (pattern replacement : List Char) : Nat → List Char → List Char
  | _, [] => []
  | n + 1, _ :: cs => replaceFrom pattern replacement n cs
  | 0, c :: cs =>
    if pattern.isPrefixOf (c :: cs) then
      replacement ++ replaceFrom pattern replacement (pattern.length - 1) cs
    else c :: replaceFrom pattern replacement 0 cs

/-- Replaces a pattern, which is not empty, wherever it stands. -/
def replaceAll (pattern replacement text : String) : String :=
  String.ofList (replaceFrom pattern.toList replacement.toList 0 text.toList)

theorem eq_append_of_afterStart? {ps cs rest : List Char} (h : afterStart? ps cs = some rest) :
    cs = ps ++ rest := by
  induction ps generalizing cs with
  | nil => simpa [afterStart?] using h
  | cons p ps ih =>
    cases cs with
    | nil => simp [afterStart?] at h
    | cons c cs =>
      unfold afterStart? at h
      split at h
      · next hp => rw [hp, ih h, List.cons_append]
      · cases h

theorem eq_append_of_cut? {pattern cs before after : List Char}
    (h : cut? pattern cs = some (before, after)) : cs = before ++ pattern ++ after := by
  induction cs generalizing before with
  | nil =>
    unfold cut? at h
    split at h
    · next hp => cases h; simp [hp]
    · cases h
  | cons c cs ih =>
    unfold cut? at h
    split at h
    · next rest hr => cases h; simpa using eq_append_of_afterStart? hr
    · obtain ⟨⟨a, b⟩, hab, he⟩ := Option.map_eq_some_iff.1 h
      cases he
      rw [ih hab]
      rfl

end Search
end CjsxConversion
