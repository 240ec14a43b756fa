import CjsxConversion.Proofs.Text.Trimming
import CjsxConversion.Text.Lines

/-!
# What lines and words a text has

Main results:
* `cutAtBlank_append`, `words_append`: the first word of a text.
* `lines_terminated`: lines that are written with their ends are the lines of the text.
-/

namespace CjsxConversion
namespace Lines

open Blank

variable {cs rest : List Char}

/-! ### Words -/

theorem cutAtBlank_append {b : Char} (h : ∀ c ∈ cs, isBlank c = false) (hb : isBlank b = true)
    (rest : List Char) : cutAtBlank (cs ++ b :: rest) = (cs, rest) := by
  have hshown : ∀ c ∈ cs, (!isBlank c) = true := fun c hc => by rw [h c hc]; rfl
  simp [cutAtBlank, List.dropWhile_append_of_pos hshown, List.takeWhile_append_of_pos hshown, hb]

theorem cutAtBlank_of_no_blank (h : ∀ c ∈ cs, isBlank c = false) : cutAtBlank cs = (cs, []) := by
  have hshown : ∀ c ∈ cs, (!isBlank c) = true := fun c hc => by rw [h c hc]; rfl
  rw [cutAtBlank, List.dropWhile_eq_nil_iff.2 hshown]

theorem words_append {b : Char} (hne : cs ≠ []) (h : ∀ c ∈ cs, isBlank c = false)
    (hb : isBlank b = true) (rest : List Char) :
    words (cs ++ b :: rest) = cs :: words rest := by
  rw [words, List.splitOnP_append_cons_of_forall_mem h b hb,
    List.filter_cons_of_pos (by simpa using hne), words]

theorem words_of_no_blank (hne : cs ≠ []) (h : ∀ c ∈ cs, isBlank c = false) :
    words cs = [cs] := by
  rw [words, List.splitOnP_eq_singleton h, List.filter_cons_of_pos (by simpa using hne),
    List.filter_nil]

/-! ### Lines -/

theorem linesFrom_append (h : '\n' ∉ cs) (present rest : List Char) :
    linesFrom present (cs ++ '\n' :: rest) = dropReturn (present ++ cs) :: linesFrom [] rest := by
  induction cs generalizing present with
  | nil => rw [List.nil_append, linesFrom, if_pos rfl, List.append_nil]
  | cons c cs ih =>
    rw [List.mem_cons, not_or] at h
    rw [List.cons_append, linesFrom, if_neg (Ne.symm h.1), ih h.2, List.append_assoc]
    rfl

/-- Lines that are written with their ends are the lines of the text. -/
theorem lines_terminated {ls : List (List Char)} (h : ∀ l ∈ ls, '\n' ∉ l)
    (hend : ∀ l ∈ ls, l.getLast? ≠ some '\r') : lines (ls.flatMap (· ++ ['\n'])) = ls := by
  induction ls with
  | nil => rfl
  | cons l ls ih =>
    rw [List.forall_mem_cons] at h hend
    rw [List.flatMap_cons, List.append_assoc, List.singleton_append, lines,
      linesFrom_append h.1, List.nil_append, dropReturn, if_neg hend.1, ← lines, ih h.2 hend.2]

theorem not_mem_of_mem_linesFrom {present l : List Char} (hpresent : '\n' ∉ present)
    (h : l ∈ linesFrom present cs) : '\n' ∉ l := by
  induction cs generalizing present with
  | nil =>
    unfold linesFrom at h
    split at h
    · cases h
    · rw [List.mem_singleton] at h
      exact h ▸ hpresent
  | cons c cs ih =>
    unfold linesFrom at h
    split at h
    · rcases List.mem_cons.1 h with rfl | hlater
      · unfold dropReturn
        split
        · exact fun hmem => hpresent ((List.dropLast_sublist _).subset hmem)
        · exact hpresent
      · exact ih List.not_mem_nil hlater
    · next hc => exact ih (by simp [hpresent, Ne.symm hc]) h

/-- A line has no line feed. -/
theorem not_mem_of_mem_lines {l : List Char} (h : l ∈ lines cs) : '\n' ∉ l :=
  not_mem_of_mem_linesFrom List.not_mem_nil h

end Lines
end CjsxConversion
