import CjsxConversion.Proofs.Tool.CommandLines

/-!
# Placeholders that are filled at once

A fixed argument may hold placeholders for the scratch file and for the file that the text is taken
to be. They are filled one kind after the other, so that what is put in for the scratch file is
looked through for placeholders again.

The pieces of an argument are its characters and its placeholders, found from left to
right. Spelling the pieces with two paths fills all placeholders at once: nothing that is put in is
looked at again.

A gap is a stretch of pieces without a placeholder for the file. The path of the scratch
file leaves an argument undisturbed if no gap spells such a placeholder once the path is put in.

Main results:
* `spell_pieces`, `not_spelled_out`: the pieces make up the argument, and all placeholders of the
  argument are among them.
* `replace_spell_eq_iff`: when filling one kind after the other fills all at once.
* `undisturbed_of_plain`, `undisturbed_of_not_mentions`: when nothing is disturbed.
* `filled_at_once_iff`: what a command line has in the place of each fixed argument.
-/

namespace CjsxConversion
namespace ToolSetup

open Search

/-- The characters of the placeholder for the scratch file. -/
abbrev inputMark : List Char := ['\x7b', 'i', 'n', 'p', 'u', 't', '\x7d']

/-- The characters of the placeholder for the file. -/
abbrev fileMark : List Char := ['\x7b', 'f', 'i', 'l', 'e', 'p', 'a', 't', 'h', '\x7d']

theorem toList_inputPlaceholder : inputPlaceholder.toList = inputMark := by decide

theorem toList_filePlaceholder : filePlaceholder.toList = fileMark := by decide

/-- A piece of a fixed argument. -/
inductive Piece where
  | char (c : Char)
  | scratch
  | file
  deriving DecidableEq, Repr

/-- The pieces of an argument. The number tells how many characters of a placeholder are still to
be passed over. -/
def piecesFrom : Nat → List Char → List Piece
  | _, [] => []
  | n + 1, _ :: cs => piecesFrom n cs
  | 0, c :: cs =>
    if inputMark.isPrefixOf (c :: cs) then .scratch :: piecesFrom (inputMark.length - 1) cs
    else if fileMark.isPrefixOf (c :: cs) then .file :: piecesFrom (fileMark.length - 1) cs
    else .char c :: piecesFrom 0 cs

/-- The pieces of an argument. -/
def pieces (arg : List Char) : List Piece := piecesFrom 0 arg

/-- What a piece is spelled as. -/
def Piece.spelled (scratch file : List Char) : Piece → List Char
  | .char c => [c]
  | .scratch => scratch
  | .file => file

/-- Pieces with their placeholders filled, all at once. -/
def spell (scratch file : List Char) (ps : List Piece) : List Char :=
  ps.flatMap (Piece.spelled scratch file)

/-- The characters of a path, if there is one. -/
def pathChars (p : Option Path) : List Char :=
  (p.map Path.text).getD "" |>.toList

/-- The scratch file, if there is one, is a path from the root without an opening brace. -/
def PlainScratch (scratch : Option Path) : Prop :=
  ∀ p, scratch = some p → p.text.toList.head? = some '/' ∧ '\x7b' ∉ p.text.toList

/-- No gap spells a placeholder for the file once the scratch file is put in. -/
def Undisturbed (scratch : List Char) (ps : List Piece) : Prop :=
  ∀ gap, gap <:+: ps → .file ∉ gap → ¬ fileMark <:+: spell scratch fileMark gap

/-! ### Pieces -/

theorem piecesFrom_eq_drop (n : Nat) (cs : List Char) : piecesFrom n cs = pieces (cs.drop n) := by
  induction n generalizing cs with
  | zero => rw [List.drop_zero, pieces]
  | succ n ih =>
    cases cs with
    | nil => simp [piecesFrom, pieces]
    | cons c cs => rw [piecesFrom, ih, List.drop_succ_cons]

@[simp] theorem pieces_nil : pieces [] = [] := by
  simp [pieces, piecesFrom]

theorem pieces_input (cs : List Char) : pieces (inputMark ++ cs) = .scratch :: pieces cs := by
  rw [pieces, List.cons_append, piecesFrom, if_pos (by simp), piecesFrom_eq_drop]
  rfl

theorem pieces_file (cs : List Char) : pieces (fileMark ++ cs) = .file :: pieces cs := by
  rw [pieces, List.cons_append, piecesFrom, if_neg (by simp), if_pos (by simp),
    piecesFrom_eq_drop]
  rfl

theorem pieces_plain {c : Char} {cs : List Char} (hinput : ¬ inputMark <+: c :: cs)
    (hfile : ¬ fileMark <+: c :: cs) : pieces (c :: cs) = .char c :: pieces cs := by
  rw [pieces, piecesFrom, if_neg fun h => hinput (List.isPrefixOf_iff_prefix.1 h),
    if_neg fun h => hfile (List.isPrefixOf_iff_prefix.1 h), pieces]

/-- An argument is empty, begins with a placeholder, or begins with some other character. -/
@[elab_as_elim]
theorem argument_induction {motive : List Char → Prop} (nil : motive [])
    (input : ∀ cs, motive cs → motive (inputMark ++ cs))
    (file : ∀ cs, motive cs → motive (fileMark ++ cs))
    (plain : ∀ c cs, ¬ inputMark <+: c :: cs → ¬ fileMark <+: c :: cs → motive cs →
      motive (c :: cs)) (arg : List Char) : motive arg := by
  induction hn : arg.length using Nat.strongRecOn generalizing arg with
  | ind n ih =>
    subst hn
    by_cases hinput : inputMark <+: arg
    · obtain ⟨cs, rfl⟩ := hinput
      exact input cs (ih _ (by simp; omega) cs rfl)
    by_cases hfile : fileMark <+: arg
    · obtain ⟨cs, rfl⟩ := hfile
      exact file cs (ih _ (by simp; omega) cs rfl)
    cases arg with
    | nil => exact nil
    | cons c cs => exact plain c cs hinput hfile (ih _ (by simp) cs rfl)

@[simp] theorem spell_nil (scratch file : List Char) : spell scratch file [] = [] := rfl

@[simp] theorem spell_cons (scratch file : List Char) (x : Piece) (ps : List Piece) :
    spell scratch file (x :: ps) = x.spelled scratch file ++ spell scratch file ps :=
  List.flatMap_cons

@[simp] theorem spell_append (scratch file : List Char) (ps qs : List Piece) :
    spell scratch file (ps ++ qs) = spell scratch file ps ++ spell scratch file qs :=
  List.flatMap_append

theorem spell_congr {scratch scratch' file file' : List Char} {ps : List Piece}
    (h : ∀ x ∈ ps, x.spelled scratch file = x.spelled scratch' file') :
    spell scratch file ps = spell scratch' file' ps := by
  unfold spell
  rw [List.flatMap_def, List.flatMap_def, List.map_congr_left h]

/-- The pieces make up the argument. -/
theorem spell_pieces (arg : List Char) : spell inputMark fileMark (pieces arg) = arg := by
  induction arg using argument_induction with
  | nil => simp
  | input cs ih => rw [pieces_input, spell_cons, ih, Piece.spelled]
  | file cs ih => rw [pieces_file, spell_cons, ih, Piece.spelled]
  | plain c cs hinput hfile ih =>
    rw [pieces_plain hinput hfile, spell_cons, ih, Piece.spelled, List.singleton_append]

theorem spell_map_char (scratch file cs : List Char) : spell scratch file (cs.map .char) = cs := by
  induction cs with
  | nil => rfl
  | cons c cs ih => rw [List.map_cons, spell_cons, ih, Piece.spelled, List.singleton_append]

/-- No placeholder for the file is spelled out by the characters of an argument: each is a piece
of its own. -/
theorem not_spelled_out (arg : List Char) : ¬ fileMark.map Piece.char <:+: pieces arg := by
  induction arg using argument_induction with
  | nil => simp
  | input cs ih =>
    rw [pieces_input]
    simpa [List.infix_cons_iff] using ih
  | file cs ih =>
    rw [pieces_file]
    simpa [List.infix_cons_iff] using ih
  | plain c cs hinput hfile ih =>
    rw [pieces_plain hinput hfile, List.infix_cons_iff, not_or]
    refine ⟨?_, ih⟩
    rintro ⟨rest, hrest⟩
    have harg := congrArg (spell inputMark fileMark) hrest
    rw [spell_append, spell_map_char, spell_cons, spell_pieces, Piece.spelled,
      List.singleton_append] at harg
    exact hfile ⟨_, harg⟩

theorem replace_input (scratch arg : List Char) :
    replaceFrom inputMark scratch 0 arg = spell scratch fileMark (pieces arg) := by
  induction arg using argument_induction with
  | nil => simp
  | input cs ih => rw [replaceFrom_of_match, pieces_input, spell_cons, ih, Piece.spelled]
  | file cs ih =>
    rw [pieces_file, spell_cons, ← ih, Piece.spelled]
    simp [replaceFrom]
  | plain c cs hinput hfile ih =>
    rw [replaceFrom_of_plain _ hinput, pieces_plain hinput hfile, spell_cons, ih, Piece.spelled,
      List.singleton_append]

/-! ### Gaps -/

/-- Pieces are a gap, or a gap with a placeholder for the file behind it, and other pieces. -/
@[elab_as_elim]
theorem gap_induction {motive : List Piece → Prop} (gap : ∀ ps, .file ∉ ps → motive ps)
    (file : ∀ ps rest, .file ∉ ps → motive rest → motive (ps ++ .file :: rest))
    (ps : List Piece) : motive ps := by
  induction hn : ps.length using Nat.strongRecOn generalizing ps with
  | ind n ih =>
    subst hn
    by_cases hmem : .file ∈ ps
    · obtain ⟨front, rest, rfl, hfront⟩ := List.eq_append_cons_of_mem hmem
      exact file front rest hfront (ih _ (by simp; omega) rest rfl)
    · exact gap ps hmem

theorem spell_gap {ps : List Piece} (h : .file ∉ ps) (scratch file other : List Char) :
    spell scratch file ps = spell scratch other ps :=
  spell_congr fun x hx => by
    cases x with
    | char c => rfl
    | scratch => rfl
    | file => exact absurd hx h

/-- A gap lies on one side of a placeholder for the file. -/
theorem infix_of_gap {gap ps rest : List Piece} (h : .file ∉ gap)
    (hin : gap <:+: ps ++ .file :: rest) : gap <:+: ps ∨ gap <:+: rest := by
  rw [List.infix_append_iff_ne_nil, List.infix_cons_iff] at hin
  -- what reaches over the placeholder, or begins with it, has it
  have hreach : ∀ qs : List Piece, qs ≠ [] → qs <+: .file :: rest → .file ∈ qs := by
    intro qs hne hstart
    cases qs with
    | nil => exact absurd rfl hne
    | cons x qs =>
      rw [List.cons_prefix_cons] at hstart
      simp [hstart.1]
  rcases hin with hps | (hstart | hrest) | ⟨front, back, -, hne, rfl, -, hstart⟩
  · exact .inl hps
  · cases gap with
    | nil => exact .inl List.nil_infix
    | cons x gap => exact absurd (hreach _ (by simp) hstart) h
  · exact .inr hrest
  · exact absurd (List.mem_append_right _ (hreach back hne hstart)) h

theorem undisturbed_gap {scratch : List Char} {ps : List Piece} (h : .file ∉ ps) :
    Undisturbed scratch ps ↔ ¬ fileMark <:+: spell scratch fileMark ps := by
  constructor
  · exact fun hps => hps ps List.infix_rfl h
  · rintro hps gap ⟨front, back, rfl⟩ -
    rw [spell_append, spell_append] at hps
    exact fun hgap => hps (hgap.trans ⟨_, _, rfl⟩)

/-- An argument is undisturbed if what stands before a placeholder for the file is, and what stands
after it. -/
theorem undisturbed_append {scratch : List Char} (ps rest : List Piece) :
    Undisturbed scratch (ps ++ .file :: rest) ↔
      Undisturbed scratch ps ∧ Undisturbed scratch rest := by
  constructor
  · intro h
    refine ⟨fun gap hgap => h gap (hgap.trans ⟨[], _, rfl⟩), fun gap hgap => h gap ?_⟩
    exact hgap.trans ⟨ps ++ [.file], [], by simp⟩
  · rintro ⟨hps, hrest⟩ gap hgap hfile
    rcases infix_of_gap hfile hgap with hin | hin
    · exact hps gap hin hfile
    · exact hrest gap hin hfile

/-! ### Filling one kind after the other -/

/-- The characters of a placeholder for the file, put in front of other characters, are replaced
apart from them. -/
theorem replace_file (file cs ds : List Char) :
    replaceFrom fileMark file 0 (cs ++ (fileMark ++ ds)) =
      replaceFrom fileMark file 0 cs ++ (file ++ replaceFrom fileMark file 0 ds) :=
  replaceFrom_append_match (by decide) file cs ds

theorem drift_replace_file (file cs : List Char) :
    Drift fileMark.length file.length (replaceFrom fileMark file 0 cs).length cs.length :=
  drift_replaceFrom file cs

/-- Filling one kind after the other changes the length of what is filled at once by a multiple of
what one more placeholder changes it by. -/
theorem drift_replace_spell (scratch file : List Char) (ps : List Piece) :
    Drift fileMark.length file.length
      (replaceFrom fileMark file 0 (spell scratch fileMark ps)).length
      (spell scratch file ps).length := by
  induction ps using gap_induction with
  | gap ps h =>
    rw [spell_gap h scratch file fileMark]
    exact drift_replace_file file _
  | file ps rest h ih =>
    simp only [spell_append, spell_cons, Piece.spelled, replace_file, List.length_append]
    rw [spell_gap h scratch file fileMark]
    exact (drift_replace_file file _).add ((Drift.refl _ _ _).add ih)

/-- Filling one kind after the other fills all at once exactly if the scratch file leaves the
argument undisturbed, or if the file has the name of its placeholder. -/
theorem replace_spell_eq_iff (scratch file : List Char) (ps : List Piece) :
    replaceFrom fileMark file 0 (spell scratch fileMark ps) = spell scratch file ps ↔
      file = fileMark ∨ Undisturbed scratch ps := by
  induction ps using gap_induction with
  | gap ps h => rw [spell_gap h scratch file fileMark, undisturbed_gap h, replaceFrom_eq_self_iff]
  | file ps rest h ih =>
    simp only [spell_append, spell_cons, Piece.spelled, replace_file]
    rw [spell_gap h scratch file fileMark, undisturbed_append, undisturbed_gap h, or_and_left,
      ← ih, ← replaceFrom_eq_self_iff]
    constructor
    · intro heq
      -- the two sides drift alike, so that they are equal part by part
      have hlength := congrArg List.length heq
      simp only [List.length_append] at hlength
      have hgap := (drift_replace_file file (spell scratch fileMark ps)).cancel
        (drift_replace_spell scratch file rest) (by omega)
      obtain ⟨hfront, hback⟩ := List.append_inj heq hgap
      exact ⟨hfront, List.append_cancel_left hback⟩
    · rintro ⟨hfront, hback⟩
      rw [hfront, hback]

/-! ### Paths that leave every argument undisturbed -/

/-- What stands at the beginning of a gap and has no slash is made of characters, if the scratch
file is a path from the root. -/
theorem prefix_of_prefix_spell {scratch file : List Char} (hroot : scratch.head? = some '/')
    {cs : List Char} (hcs : '/' ∉ cs) {gap : List Piece} (hgap : .file ∉ gap)
    (h : cs <+: spell scratch file gap) : cs.map .char <+: gap := by
  induction cs generalizing gap with
  | nil => exact List.nil_prefix
  | cons c cs ih =>
    rw [List.mem_cons, not_or] at hcs
    cases gap with
    | nil => simp at h
    | cons x gap =>
      rw [List.mem_cons, not_or] at hgap
      cases x with
      | char d =>
        rw [spell_cons, Piece.spelled, List.singleton_append, List.cons_prefix_cons] at h
        rw [List.map_cons, List.cons_prefix_cons]
        exact ⟨congrArg _ h.1, ih hcs.2 hgap.2 h.2⟩
      | scratch =>
        obtain ⟨rest, rfl⟩ := List.head?_eq_some_iff.1 hroot
        rw [spell_cons, Piece.spelled, List.cons_append, List.cons_prefix_cons] at h
        exact absurd h.1.symm hcs.1
      | file => exact absurd rfl hgap.1

theorem infix_of_infix_spell {scratch file : List Char} (hroot : scratch.head? = some '/')
    (hbrace : '\x7b' ∉ scratch) {gap : List Piece} (hgap : .file ∉ gap)
    (h : fileMark <:+: spell scratch file gap) : fileMark.map .char <:+: gap := by
  induction gap with
  | nil => simp at h
  | cons x gap ih =>
    have hgap' := List.not_mem_of_not_mem_cons hgap
    cases x with
    | char d =>
      rw [spell_cons, Piece.spelled, List.singleton_append, List.infix_cons_iff,
        ← List.singleton_append] at h
      rw [List.infix_cons_iff]
      refine h.imp (fun hstart => ?_) (ih hgap')
      exact prefix_of_prefix_spell hroot (by decide) hgap hstart
    | scratch =>
      rw [spell_cons, Piece.spelled] at h
      exact (ih hgap' (infix_of_infix_append hbrace h)).trans (List.infix_cons List.infix_rfl)
    | file => exact absurd List.mem_cons_self hgap

/-- A path from the root without an opening brace leaves every argument undisturbed. -/
theorem undisturbed_of_plain {scratch : List Char} (hroot : scratch.head? = some '/')
    (hbrace : '\x7b' ∉ scratch) (arg : List Char) : Undisturbed scratch (pieces arg) :=
  fun _ hin hgap hmark =>
    not_spelled_out arg ((infix_of_infix_spell hroot hbrace hgap hmark).trans hin)

/-- An argument without a placeholder for the scratch file is undisturbed whatever that file is. -/
theorem undisturbed_of_not_mentions {arg : String} (h : ¬ Mentions inputPlaceholder arg)
    (scratch : List Char) : Undisturbed scratch (pieces arg.toList) := by
  have hnone : .scratch ∉ pieces arg.toList := by
    intro hmem
    obtain ⟨front, back, heq⟩ := List.append_of_mem hmem
    refine h ⟨spell inputMark fileMark front, spell inputMark fileMark back, ?_⟩
    rw [toList_inputPlaceholder, ← spell_pieces arg.toList, heq, spell_append, spell_cons,
      Piece.spelled, List.append_assoc]
  intro gap hin hgap
  -- the scratch file is not put in anywhere, so that it may as well be the root
  have hsame : spell scratch fileMark gap = spell ['/'] fileMark gap :=
    spell_congr fun x hx => by
      cases x with
      | char c => rfl
      | scratch => exact absurd (hin.subset hx) hnone
      | file => rfl
  rw [hsame]
  exact undisturbed_of_plain rfl (by decide) arg.toList gap hin hgap

/-! ### The words of a command line -/

/-- A placeholder is filled by replacing it, also where it does not occur. -/
theorem toList_of_filled {mark arg w : String} {q : Option Path} {fault : ToolFault}
    (h : (if Mentions mark arg then
        match q with
        | some p => .ok (replaceAll mark p.text arg)
        | none => .error fault
      else .ok arg) = Except.ok w) :
    w.toList = replaceFrom mark.toList (pathChars q) 0 arg.toList := by
  split at h
  · cases q with
    | none => cases h
    | some p =>
      cases h
      exact String.toList_ofList
  · next hnone =>
    cases h
    exact (replaceFrom_of_absent _ hnone).symm

theorem toList_fill {t : ToolSetup} {r : Request} {scratch : Option Path} {arg w : String}
    (h : t.fill r scratch arg = .ok w) :
    w.toList = replaceFrom fileMark (pathChars (r.filePath <|> scratch)) 0
      (spell (pathChars scratch) fileMark (pieces arg.toList)) := by
  unfold fill at h
  cases hinput : t.fillInput scratch arg with
  | error fault => exact nomatch hinput ▸ h
  | ok v =>
    rw [hinput] at h
    have hfile : t.fillFile (r.filePath <|> scratch) v = .ok w := h
    rw [fillFile_eq] at hfile
    rw [fillInput_eq] at hinput
    rw [toList_of_filled hfile, toList_of_filled hinput, toList_inputPlaceholder,
      toList_filePlaceholder, replace_input]

/-- An argument that is filled is undisturbed by a plain scratch file, and by none. -/
theorem undisturbed_of_fill {t : ToolSetup} {r : Request} {scratch : Option Path} {arg w : String}
    (h : t.fill r scratch arg = .ok w) (hplain : PlainScratch scratch) :
    Undisturbed (pathChars scratch) (pieces arg.toList) := by
  cases scratch with
  | some p => exact undisturbed_of_plain (hplain p rfl).1 (hplain p rfl).2 _
  | none =>
    have hfillable := exists_fill_iff.1 ⟨w, h⟩
    exact undisturbed_of_not_mentions (fun hin => hfillable ⟨rfl, .inl hin⟩) _

/-- What a command line has in the place of a fixed argument. It is the argument with all
placeholders filled at once exactly if the scratch file leaves the argument undisturbed, or if the
file has the name of its placeholder; a plain scratch file always does, and so does none. -/
theorem filled_at_once_iff {t : ToolSetup} {r : Request} {scratch : Option Path} {c : CommandLine}
    (hc : t.commandLine r scratch = .ok c) {i : Nat} {arg : String} (hi : t.args[i]? = some arg) :
    ∃ w, c.args[i]? = some w ∧
      (w.toList =
          spell (pathChars scratch) (pathChars (r.filePath <|> scratch)) (pieces arg.toList) ↔
        pathChars (r.filePath <|> scratch) = fileMark ∨
          Undisturbed (pathChars scratch) (pieces arg.toList)) ∧
      (PlainScratch scratch → w.toList =
        spell (pathChars scratch) (pathChars (r.filePath <|> scratch)) (pieces arg.toList)) := by
  obtain ⟨-, words, hwords, hargs⟩ := commandLine_eq_ok_iff.1 hc
  obtain ⟨hlength, hall⟩ := List.forall₂_iff_get.1 hwords
  obtain ⟨hlt, rfl⟩ := List.getElem?_eq_some_iff.1 hi
  have hfill : t.fill r scratch t.args[i] = .ok words[i] := hall i hlt (hlength ▸ hlt)
  have hiff := replace_spell_eq_iff (pathChars scratch) (pathChars (r.filePath <|> scratch))
    (pieces t.args[i].toList)
  rw [← toList_fill hfill] at hiff
  refine ⟨words[i], ?_, hiff, fun hplain => hiff.2 (.inr (undisturbed_of_fill hfill hplain))⟩
  rw [hargs, List.getElem?_append_left (hlength ▸ hlt), List.getElem?_eq_getElem]

/-- A tool that is told both files in one argument. -/
def bothFiles : ToolSetup :=
  { program := "tool", args := ["\x7bfilepath\x7d:\x7binput\x7d"], input := .tempFile ".cjsx" }

/-- A text that is taken to be a file with a placeholder for its name. -/
def namedAsPlaceholder : Request :=
  { text := "x", filePath := some (.ofString "/\x7binput\x7d") }

/-- The name of a file is not looked through for placeholders. -/
theorem file_kept_as_named :
    ∃ c w, bothFiles.commandLine namedAsPlaceholder (some (.ofString "/s.cjsx")) = .ok c ∧
      c.args[0]? = some w ∧ w.toList = "/\x7binput\x7d:/s.cjsx".toList := by
  have hc : bothFiles.commandLine namedAsPlaceholder (some (.ofString "/s.cjsx")) =
      .ok ⟨"tool", ["/\x7binput\x7d:/s.cjsx"]⟩ := by
    decide +kernel
  obtain ⟨w, hw, -, hplain⟩ := filled_at_once_iff hc (i := 0) rfl
  refine ⟨_, w, hc, hw, (hplain ?_).trans ?_⟩
  · rintro _ ⟨⟩
    exact ⟨by decide +kernel, by decide +kernel⟩
  · decide +kernel

/-- A tool whose scratch files have a placeholder for the file in their names. -/
def markedSuffix : ToolSetup :=
  { program := "tool", args := ["\x7binput\x7d"], input := .tempFile "\x7bfilepath\x7d.cjsx" }

/-- The name of a scratch file is looked through for placeholders, so that the tool is told of a
file that is not there. -/
theorem scratch_renamed_by_file :
    markedSuffix.commandLine { text := "x", filePath := some (.ofString "a") }
        (some (.ofString "/s\x7bfilepath\x7d.cjsx")) = .ok ⟨"tool", ["/sa.cjsx"]⟩ ∧
      spell (pathChars (some (.ofString "/s\x7bfilepath\x7d.cjsx")))
          (pathChars (some (.ofString "a"))) (pieces "\x7binput\x7d".toList) =
        "/s\x7bfilepath\x7d.cjsx".toList ∧
      "/sa.cjsx".toList ≠ "/s\x7bfilepath\x7d.cjsx".toList := by
  refine ⟨?_, ?_, ?_⟩
  · decide +kernel
  · decide +kernel
  · decide

end ToolSetup
end CjsxConversion
