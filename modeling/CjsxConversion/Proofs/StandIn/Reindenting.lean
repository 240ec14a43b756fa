import CjsxConversion.Proofs.StandIn.Expanding
import CjsxConversion.Proofs.Text.Lines
import Mathlib.Data.List.DropRight
import Mathlib.Data.List.Forall2

/-!
# How a text is laid out anew

Every line with something to show keeps its trimmed content, behind so many spaces for each level
of its indentation. Blank lines become empty, and those at the end are left out.

`LaidOut` says what the result looks like, line by line, without the function.

Main results:
* `relaid_reindent`: how one line is laid out.
* `reindent_reindent`, `reformat_reformat`: doing it again changes nothing for some widths.
* `format_laid_out`: how a text is laid out.
-/

namespace CjsxConversion
namespace StandIn

open Blank

/-- The width that options ask for: two where they say nothing. -/
def Wants (options : ResolvedFlags) (width : Nat) : Prop :=
  (options.get? "tabWidth" = none ∧ width = 2) ∨
    ∃ n, options.get? "tabWidth" = some (.int n) ∧ n.toInt = width

/-- How a line is laid out: its content is kept, behind the wanted width for each level of its
indentation, and nothing blank is behind it. Nothing is left of a blank line. -/
structure Relaid (width : Nat) (line laid : List Char) : Prop where
  content : trim laid = trim line
  indented : allBlank line = false →
    laid = List.replicate (octets (line.takeWhile isBlank) / 2 * width) ' ' ++ trim line
  emptied : allBlank line = true → laid = []
  tight : ∀ c ∈ laid.getLast?, isBlank c = false
  single : '\n' ∉ laid

/-- A text that is laid out anew: its lines up to the last one with something to show, each laid out
by itself and with one line feed behind it, or one line feed if nothing is shown. -/
structure LaidOut (width : Nat) (cs out : List Char) : Prop where
  lines : ∃ kept dropped laid, Lines.lines cs = kept ++ dropped ∧
    (∀ l ∈ dropped, allBlank l = true) ∧ (∀ l ∈ kept.getLast?, allBlank l = false) ∧
    List.Forall₂ (Relaid width) kept laid ∧ out = joined "\n" laid ++ ['\n']
  one_end : ∃ body, out = body ++ ['\n'] ∧ body.getLast? ≠ some '\n'
  nothing : (∀ l ∈ Lines.lines cs, allBlank l = true) → out = ['\n']
  tight : ∀ l ∈ out.splitOn '\n', ∀ c ∈ l.getLast?, isBlank c = false

variable {width : Nat} {line content : List Char}

/-! ### One line -/

theorem reindent_of_blank (h : allBlank line = true) (width : Nat) : reindent width line = [] := by
  rw [reindent, trim_eq_nil_iff.2 h]

theorem reindent_of_shown (h : allBlank line = false) (width : Nat) :
    reindent width line =
      List.replicate (octets (line.takeWhile isBlank) / 2 * width) ' ' ++ trim line := by
  rw [reindent]
  split
  · next hnil => exact absurd hnil (trim_ne_nil h)
  · rfl

theorem reindent_eq_nil_iff : reindent width line = [] ↔ allBlank line = true := by
  constructor
  · intro h
    cases hline : allBlank line with
    | true => rfl
    | false =>
      rw [reindent_of_shown hline, List.append_eq_nil_iff, trim_eq_nil_iff, hline] at h
      exact h.2
  · exact fun h => reindent_of_blank h width

theorem isBlank_of_mem_replicate {n : Nat} {c : Char} (h : c ∈ List.replicate n ' ') :
    isBlank c = true := by
  rw [List.eq_of_mem_replicate h]
  decide

theorem trim_indented (n : Nat) (line : List Char) :
    trim (List.replicate n ' ' ++ trim line) = trim line := by
  have htrim : trim (List.replicate n ' ' ++ trim line ++ []) = trim line :=
    trim_of_bounded (fun c hc => isBlank_of_mem_replicate hc) (isBlank_head?_trim line)
      (isBlank_getLast?_trim line) (by simp)
  rwa [List.append_nil] at htrim

/-- How one line is laid out. -/
theorem relaid_reindent (h : '\n' ∉ line) (width : Nat) :
    Relaid width line (reindent width line) := by
  cases hline : allBlank line with
  | true =>
    rw [reindent_of_blank hline]
    refine ⟨?_, fun hshown => ?_, fun _ => rfl, by simp, List.not_mem_nil⟩
    · rw [trim_eq_nil_iff.2 hline]
      rfl
    · rw [hline] at hshown
      cases hshown
  | false =>
    rw [reindent_of_shown hline]
    refine ⟨trim_indented _ line, fun _ => rfl, fun hblank => ?_, ?_, ?_⟩
    · rw [hline] at hblank
      cases hblank
    · rw [List.getLast?_append_of_ne_nil _ (trim_ne_nil hline)]
      exact isBlank_getLast?_trim line
    · obtain ⟨before, after, hline', -, -⟩ := trim_spec line
      rw [List.mem_append, not_or]
      refine ⟨fun hmem => absurd (List.eq_of_mem_replicate hmem) (by decide), fun hmem => h ?_⟩
      rw [hline']
      simp [hmem]

/-- The blanks in front of an indented line are those of its indentation. -/
theorem takeWhile_indented (n : Nat) (line : List Char) :
    (List.replicate n ' ' ++ trim line).takeWhile isBlank = List.replicate n ' ' := by
  rw [List.takeWhile_append_of_pos fun c hc => isBlank_of_mem_replicate hc]
  cases hcontent : trim line with
  | nil => simp
  | cons c content =>
    have hc : isBlank c = false := isBlank_head?_trim line c (by simp [hcontent])
    simp [hc]

theorem octets_replicate (n : Nat) : octets (List.replicate n ' ') = n := by
  induction n with
  | zero => rfl
  | succ n ih =>
    have hspace : ' '.utf8Size = 1 := by decide
    rw [List.replicate_succ, octets_cons, ih, hspace]
    omega

/-- An indentation of some levels is one of as many levels. -/
theorem reindent_reindent (h : width = 0 ∨ width = 2) (line : List Char) :
    reindent width (reindent width line) = reindent width line := by
  cases hline : allBlank line with
  | true =>
    rw [reindent_of_blank hline]
    rfl
  | false =>
    rw [reindent_of_shown hline]
    have hshown (n : Nat) : allBlank (List.replicate n ' ' ++ trim line) = false := by
      rw [← Bool.not_eq_true, ← trim_eq_nil_iff, trim_indented]
      exact trim_ne_nil hline
    rw [reindent_of_shown (hshown _), takeWhile_indented, octets_replicate, trim_indented]
    congr 2
    rcases h with rfl | rfl
    · rfl
    · omega

/-! ### All lines -/

/-- Empty lines at the end are left out, and no others. -/
theorem withoutLastBlanks_append {kept dropped : List (List Char)}
    (hkept : ∀ l ∈ kept.getLast?, l ≠ []) (hdropped : ∀ l ∈ dropped, l = []) :
    withoutLastBlanks (kept ++ dropped) = kept := by
  have hback : ∀ l ∈ dropped.reverse, decide (l = []) = true := fun l hl =>
    decide_eq_true (hdropped l (List.mem_reverse.1 hl))
  have hfront : kept.reverse.dropWhile (· = []) = kept.reverse := by
    rw [← List.head?_reverse] at hkept
    cases hlines : kept.reverse with
    | nil => rfl
    | cons l ls =>
      rw [hlines] at hkept
      exact List.dropWhile_cons_of_neg (by simpa using hkept l rfl)
  rw [withoutLastBlanks, List.reverse_append, List.dropWhile_append_of_pos hback, hfront,
    List.reverse_reverse]

theorem joined_terminated {ls : List (List Char)} (h : ls ≠ []) :
    joined "\n" ls ++ ['\n'] = ls.flatMap (· ++ ['\n']) := by
  induction ls with
  | nil => exact absurd rfl h
  | cons l ls ih =>
    cases ls with
    | nil => simp [joined]
    | cons l' ls =>
      rw [joined_cons_cons, List.flatMap_cons, ← ih (List.cons_ne_nil _ _)]
      simp

/-- The lines up to the last one with something to show. -/
def keptLines (cs : List Char) : List (List Char) :=
  (Lines.lines cs).rdropWhile allBlank

theorem exists_dropped (cs : List Char) :
    ∃ dropped, Lines.lines cs = keptLines cs ++ dropped ∧ ∀ l ∈ dropped, allBlank l = true :=
  ⟨(Lines.lines cs).rtakeWhile allBlank, (List.rdropWhile_append_rtakeWhile ..).symm,
    fun _ hl => List.mem_rtakeWhile_imp hl⟩

theorem shown_getLast?_keptLines (cs : List Char) :
    ∀ l ∈ (keptLines cs).getLast?, allBlank l = false := by
  intro l hl
  obtain ⟨hne, rfl⟩ := List.mem_getLast?_eq_getLast hl
  exact Bool.eq_false_iff.2 (List.rdropWhile_last_not allBlank _ hne)

/-- The lines that a text has when it is laid out. -/
def laidLines (width : Nat) (cs : List Char) : List (List Char) :=
  (keptLines cs).map (reindent width)

theorem relaid_of_mem_keptLines {cs line : List Char} (h : line ∈ keptLines cs) (width : Nat) :
    Relaid width line (reindent width line) := by
  obtain ⟨dropped, hlines, -⟩ := exists_dropped cs
  have hline : line ∈ Lines.lines cs := by
    rw [hlines]
    exact List.mem_append_left dropped h
  exact relaid_reindent (Lines.not_mem_of_mem_lines hline) width

theorem exists_relaid {cs l : List Char} (h : l ∈ laidLines width cs) :
    ∃ line, Relaid width line l := by
  obtain ⟨line, hline, rfl⟩ := List.mem_map.1 h
  exact ⟨line, relaid_of_mem_keptLines hline width⟩

theorem getLast?_laidLines (width : Nat) (cs : List Char) :
    ∀ l ∈ (laidLines width cs).getLast?, l ≠ [] := by
  intro l hl
  rw [laidLines, List.getLast?_map] at hl
  obtain ⟨line, hline, rfl⟩ := Option.map_eq_some_iff.1 hl
  rw [Ne, reindent_eq_nil_iff, shown_getLast?_keptLines cs line hline]
  exact Bool.false_ne_true

theorem reformat_eq (width : Nat) (cs : List Char) :
    reformat width cs = joined "\n" (laidLines width cs) ++ ['\n'] := by
  obtain ⟨dropped, hlines, hblank⟩ := exists_dropped cs
  have hdropped : ∀ l ∈ dropped.map (reindent width), l = [] := by
    intro l hl
    obtain ⟨line, hline, rfl⟩ := List.mem_map.1 hl
    exact reindent_of_blank (hblank line hline) width
  rw [reformat, hlines, List.map_append, ← laidLines,
    withoutLastBlanks_append (getLast?_laidLines width cs) hdropped]

/-- The lines of a text that is laid out and shows something. -/
theorem lines_reformat {cs : List Char} (h : laidLines width cs ≠ []) :
    Lines.lines (reformat width cs) = laidLines width cs := by
  rw [reformat_eq, joined_terminated h]
  refine Lines.lines_terminated (fun l hl => ?_) (fun l hl hreturn => ?_)
  · obtain ⟨line, hline⟩ := exists_relaid hl
    exact hline.single
  · obtain ⟨line, hline⟩ := exists_relaid hl
    exact absurd (hline.tight '\r' hreturn) (by decide)

/-- Laying a text out again changes nothing, if the width is that of a level of indentation or
there is no indentation. -/
theorem reformat_reformat (h : width = 0 ∨ width = 2) (cs : List Char) :
    reformat width (reformat width cs) = reformat width cs := by
  by_cases hlaid : laidLines width cs = []
  · rw [reformat_eq width cs, hlaid]
    rfl
  · have hsame : (laidLines width cs).map (reindent width) = laidLines width cs := by
      rw [laidLines, List.map_map]
      exact List.map_congr_left fun line _ => reindent_reindent h line
    have hall : withoutLastBlanks (laidLines width cs ++ []) = laidLines width cs :=
      withoutLastBlanks_append (getLast?_laidLines width cs) (by simp)
    rw [List.append_nil] at hall
    rw [reformat, lines_reformat hlaid, hsame, hall, reformat_eq]

/-! ### Texts -/

theorem tight_reformat (width : Nat) (cs : List Char) :
    ∀ l ∈ (reformat width cs).splitOn '\n', ∀ c ∈ l.getLast?, isBlank c = false := by
  have hsplit : ∀ l ∈ (joined "\n" (laidLines width cs)).splitOn '\n',
      l = [] ∨ l ∈ laidLines width cs := by
    intro l hl
    by_cases hlaid : laidLines width cs = []
    · rw [hlaid] at hl
      exact .inl (by simpa [joined] using hl)
    · have hsingle : ∀ l ∈ laidLines width cs, '\n' ∉ l := fun l hl =>
        (exists_relaid hl).elim fun _ hline => hline.single
      have hback : (joined "\n" (laidLines width cs)).splitOn '\n' = laidLines width cs :=
        List.splitOn_intercalate '\n' hsingle hlaid
      exact .inr (hback ▸ hl)
  intro l hl c hc
  rw [reformat_eq, List.splitOn_append_cons_self, List.splitOn_nil, List.mem_append,
    List.mem_singleton] at hl
  have hcases : l = [] ∨ l ∈ laidLines width cs := hl.elim (hsplit l) .inl
  rcases hcases with rfl | hlaid
  · cases hc
  · obtain ⟨line, hline⟩ := exists_relaid hlaid
    exact hline.tight c hc

theorem getLast?_joined_laidLines (width : Nat) (cs : List Char) :
    (joined "\n" (laidLines width cs)).getLast? ≠ some '\n' := by
  rcases List.eq_nil_or_concat (laidLines width cs) with hnil | ⟨front, l, hlaid⟩
  · rw [hnil]
    simp [joined]
  · rw [List.concat_eq_append] at hlaid
    obtain ⟨text, htext⟩ := exists_joined_concat "\n" front l
    have hl : l ∈ laidLines width cs := by simp [hlaid]
    have hne : l ≠ [] := getLast?_laidLines width cs l (by simp [hlaid])
    obtain ⟨line, hline⟩ := exists_relaid hl
    rw [hlaid, htext, List.getLast?_append_of_ne_nil _ hne]
    exact fun hend => hline.single (List.mem_of_mem_getLast? hend)

/-- What a text looks like when it is laid out. -/
theorem laidOut_reformat (width : Nat) (cs : List Char) :
    LaidOut width cs (reformat width cs) where
  lines := by
    obtain ⟨dropped, hlines, hblank⟩ := exists_dropped cs
    refine ⟨keptLines cs, dropped, laidLines width cs, hlines, hblank,
      shown_getLast?_keptLines cs, ?_, reformat_eq width cs⟩
    rw [laidLines, List.forall₂_map_right_iff, List.forall₂_same]
    exact fun line hline => relaid_of_mem_keptLines hline width
  one_end := ⟨_, reformat_eq width cs, getLast?_joined_laidLines width cs⟩
  nothing := by
    intro h
    rw [reformat_eq, laidLines, keptLines, List.rdropWhile_eq_nil_iff.2 h]
    rfl
  tight := tight_reformat width cs

theorem indentWidth_of_wants {options : ResolvedFlags} (h : Wants options width) :
    indentWidth options = .ok width := by
  rcases h with ⟨hnone, rfl⟩ | ⟨n, hn, hwidth⟩
  · rw [indentWidth, hnone]
  · rw [indentWidth, hn]
    simp only [hwidth]
    rw [if_pos (Int.natCast_nonneg width), Int.toNat_natCast]

theorem format_of_wants {r : Request} (h : Wants r.options width) :
    format r = .ok (String.ofList (reformat width r.text.toList)) := by
  rw [format, indentWidth_of_wants h]
  rfl

/-- How a text is laid out, for every width that can be asked for: line by line, with one line
feed at the end, and for good if the width is two or zero. -/
theorem format_laid_out (r : Request) (width : Nat) (h : Wants r.options width) :
    ∃ out, format r = .ok out ∧ LaidOut width r.text.toList out.toList ∧
      (width = 0 ∨ width = 2 → format { r with text := out } = .ok out) := by
  refine ⟨_, format_of_wants h, ?_, fun hwidth => ?_⟩
  · rw [String.toList_ofList]
    exact laidOut_reformat width r.text.toList
  · have hagain : format { r with text := String.ofList (reformat width r.text.toList) } = _ :=
      format_of_wants h
    rw [hagain, String.toList_ofList, reformat_reformat hwidth]

/-- A text with blanks of several kinds, for which a width of two is asked. -/
def mixedRequest : Request where
  text := "a\r\n\u3000\u2003  b \n \t \n  c\r\n\n"
  options := ⟨"prettier", [⟨"--tab-width", "tabWidth", some (.int 2)⟩]⟩

/-- Blanks of three octets count as such. -/
theorem mixed_blanks_laid_out :
    Wants mixedRequest.options 2 ∧ format mixedRequest = .ok "a\n        b\n\n  c\n" ∧
      LaidOut 2 mixedRequest.text.toList "a\n        b\n\n  c\n".toList ∧
      format { mixedRequest with text := "a\n        b\n\n  c\n" } =
        .ok "a\n        b\n\n  c\n" := by
  have hwants : Wants mixedRequest.options 2 := .inr ⟨2, by decide, by decide⟩
  have hformat : format mixedRequest = .ok "a\n        b\n\n  c\n" := rfl
  obtain ⟨out, hout, hlaid, hagain⟩ := format_laid_out mixedRequest 2 hwants
  rw [hformat] at hout
  cases hout
  exact ⟨hwants, hformat, hlaid, hagain (.inr rfl)⟩

/-- A blank line between others becomes empty: it is not indented. -/
theorem blank_line_emptied :
    ¬ ∀ (r : Request) (width : Nat) (out : String) (kept dropped : List (List Char)),
      Wants r.options width → format r = .ok out →
      Lines.lines r.text.toList = kept ++ dropped →
      (∀ l ∈ dropped, allBlank l = true) → (∀ l ∈ kept.getLast?, allBlank l = false) →
      Lines.lines out.toList = kept.map fun l =>
        List.replicate (octets (l.takeWhile isBlank) / 2 * width) ' ' ++ trim l := by
  intro h
  have hformat : format { text := "a\n  \nb\n" } = .ok "a\n\nb\n" := rfl
  have hlines := h { text := "a\n  \nb\n" } 2 "a\n\nb\n" [['a'], [' ', ' '], ['b']] []
    (.inl ⟨by decide, rfl⟩) hformat (by decide) (by decide) (by decide)
  exact absurd hlines (by decide)

end StandIn
end CjsxConversion
