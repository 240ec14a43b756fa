import CjsxConversion.Proofs.Text.Quoting
import CjsxConversion.Proofs.Tool.Splitting
import CjsxConversion.Tool.Invoke

/-!
# Command lines that a shell splits back

A command line is written for a shell word by word, each word cut into chunks. A shell reads the
chunks with another set of rules and does not know where they begin. It nevertheless comes to the
same words: a plain chunk holds nothing that a shell looks at, a chunk between single quotes holds
no single quote, and between double quotes the rest is escaped.

Main results:
* `chunks_writable`, `flatMap_chunks`: a word is cut into chunks that may stand in their style.
* `run_writeChunk`, `run_quoteChars`: a shell reads a chunk, and a word, as what it is.
* `render_eq_ok_iff`, `render_eq_error_iff`: what comes of a command line, without and with NUL.
* `render_splits_back`: a command line is rendered unless it has a NUL character, and the shell
  comes to the words that the program would be given directly.
-/

namespace CjsxConversion
namespace ShellWord

open Splitting

/-- A chunk may stand in its style. -/
def Writable : Style × List Char → Prop
  | (.plain, cs) => cs ≠ [] ∧ ∀ c ∈ cs, isPlain c = true
  | (.single, cs) => '\x27' ∉ cs
  | (.double, _) => True

/-- The styles that are open can hold some characters. -/
def Styles.Admit (styles : Styles) (cs : List Char) : Prop :=
  (styles.plain = true → ∀ c ∈ cs, isPlain c = true) ∧ (styles.single = true → '\x27' ∉ cs)

theorem Styles.Admit.writable {styles : Styles} {cs : List Char} (h : styles.Admit cs)
    (hcs : cs ≠ []) : Writable (styles.best, cs) := by
  unfold Styles.best
  split
  · next hplain => exact ⟨hcs, h.1 hplain⟩
  · split
    · next hsingle => exact h.2 hsingle
    · exact trivial

theorem Styles.Admit.holding {styles : Styles} {cs : List Char} (h : styles.Admit cs) (c : Char) :
    (styles.holding c).Admit (cs ++ [c]) := by
  constructor
  · intro hplain
    obtain ⟨hstyles, hc⟩ : styles.plain = true ∧ isPlain c = true := by
      simpa [Styles.holding] using hplain
    intro d hd
    rcases List.mem_append.1 hd with hd | hd
    · exact h.1 hstyles d hd
    · rw [List.mem_singleton.1 hd]
      exact hc
  · intro hsingle
    obtain ⟨hstyles, hc⟩ : styles.single = true ∧ c ∉ ['\x27', '^', '\\'] := by
      simpa [Styles.holding] using hsingle
    intro hmem
    rcases List.mem_append.1 hmem with hmem | hmem
    · exact h.2 hstyles hmem
    · exact hc (by simp [← List.mem_singleton.1 hmem])

theorem Styles.admit_beginning (c : Char) : (Styles.beginning c).Admit [c] := by
  unfold Styles.beginning
  split
  · next hc =>
    subst hc
    exact ⟨fun h => (Bool.false_ne_true h).elim, fun _ => by decide⟩
  · have hempty : Styles.all.Admit [] := ⟨fun _ => by simp, fun _ => by simp⟩
    exact hempty.holding c

/-- The chunks from a present one on may stand in their styles, and are not none. -/
theorem chunksFrom_writable (cs : List Char) {styles : Styles} {present : List Char}
    (h : styles.Admit present) (hne : present ≠ []) :
    chunksFrom styles present cs ≠ [] ∧ ∀ chunk ∈ chunksFrom styles present cs, Writable chunk := by
  induction cs generalizing styles present with
  | nil =>
    refine ⟨by simp [chunksFrom], fun chunk hchunk => ?_⟩
    rw [List.mem_singleton.1 hchunk]
    exact h.writable hne
  | cons c cs ih =>
    unfold chunksFrom
    split
    · exact ih (h.holding c) (by simp)
    · refine ⟨by simp, fun chunk hchunk => ?_⟩
      rcases List.mem_cons.1 hchunk with rfl | hchunk
      · exact h.writable hne
      · exact (ih (Styles.admit_beginning c) (by simp)).2 chunk hchunk

theorem flatMap_chunksFrom (cs : List Char) (styles : Styles) (present : List Char) :
    (chunksFrom styles present cs).flatMap (fun chunk => chunk.2) = present ++ cs := by
  induction cs generalizing styles present with
  | nil => simp [chunksFrom]
  | cons c cs ih =>
    unfold chunksFrom
    split
    · rw [ih, List.append_assoc, List.singleton_append]
    · rw [List.flatMap_cons, ih, List.singleton_append]

/-- The chunks of a word may stand in their styles, and are not none. -/
theorem chunks_writable (cs : List Char) :
    chunks cs ≠ [] ∧ ∀ chunk ∈ chunks cs, Writable chunk := by
  cases cs with
  | nil =>
    refine ⟨by simp [chunks], fun chunk hchunk => ?_⟩
    rw [List.mem_singleton.1 hchunk]
    exact List.not_mem_nil
  | cons c cs => exact chunksFrom_writable cs (Styles.admit_beginning c) (by simp)

/-- A word is made up of its chunks. -/
theorem flatMap_chunks (cs : List Char) : (chunks cs).flatMap (fun chunk => chunk.2) = cs := by
  cases cs with
  | nil => rfl
  | cons c cs => exact flatMap_chunksFrom cs _ [c]

/-! ### Reading chunks -/

/-- A plain character is taken as it is. -/
theorem stepBare_of_plain (s : Splitting) {c : Char} (h : isPlain c = true) :
    s.stepBare c = .ok (s.take c) := by
  have hnone : (blanks ++ ['\\', '\x27', '"'] ++ expanding ++ operating ++ ambiguous).all
      (fun x => !isPlain x) = true := by decide
  have hc : c ∉ blanks ++ ['\\', '\x27', '"'] ++ expanding ++ operating ++ ambiguous := by
    intro hmem
    have hnot := List.all_eq_true.1 hnone c hmem
    simp [h] at hnot
  simp only [List.mem_append, List.mem_cons, List.not_mem_nil, or_false, not_or] at hc
  obtain ⟨⟨⟨⟨hblank, hbackslash, hsingle, hdouble⟩, hexpand⟩, hoperate⟩, hambiguous⟩ := hc
  simp [stepBare, hblank, hbackslash, hsingle, hdouble, hexpand, hoperate, hambiguous]

theorem run_plain {cs : List Char} (h : ∀ c ∈ cs, isPlain c = true) (hne : cs ≠ [])
    (complete : List (List Char)) (word : Option (List Char)) :
    run ⟨complete, word, .bare⟩ cs = .ok ⟨complete, some (word.getD [] ++ cs), .bare⟩ := by
  induction cs generalizing word with
  | nil => exact absurd rfl hne
  | cons c cs ih =>
    have hstep : step ⟨complete, word, .bare⟩ c =
        .ok ⟨complete, some (word.getD [] ++ [c]), .bare⟩ :=
      stepBare_of_plain _ (h c (by simp))
    rw [run_cons, hstep]
    cases cs with
    | nil => rfl
    | cons d cs =>
      have hrest := ih (fun e he => h e (by simp [he])) (by simp) (some (word.getD [] ++ [c]))
      simp only [Except.bind, hrest, Option.getD_some, List.append_assoc, List.singleton_append]

/-- Between single quotes everything but a single quote is taken as it is. -/
theorem run_single {cs : List Char} (h : '\x27' ∉ cs) (complete : List (List Char))
    (word : List Char) :
    run ⟨complete, some word, .single⟩ cs = .ok ⟨complete, some (word ++ cs), .single⟩ := by
  induction cs generalizing word with
  | nil => simp
  | cons c cs ih =>
    have hc : c ≠ '\x27' := fun heq => h (by simp [heq])
    have hrest := ih (fun hmem => h (by simp [hmem])) (word ++ [c])
    simp only [run_cons, step, if_neg hc, take, Except.bind, hrest, Option.getD_some,
      List.append_assoc, List.singleton_append]

/-- Between double quotes an escaped character is taken for what it stands for. -/
theorem run_escapeDouble (c : Char) (complete : List (List Char)) (word : List Char) :
    run ⟨complete, some word, .double⟩ (escapeDouble c) =
      .ok ⟨complete, some (word ++ [c]), .double⟩ := by
  unfold escapeDouble
  by_cases hc : c ∈ escapable
  · have hline : c ≠ '\n' := by
      rintro rfl
      revert hc
      decide
    have hbackslash : step ⟨complete, some word, .double⟩ '\\' =
        .ok ⟨complete, some word, .doubleEscaped⟩ := rfl
    have hescaped : step ⟨complete, some word, .doubleEscaped⟩ c =
        .ok ⟨complete, some (word ++ [c]), .double⟩ := by
      simp [step, hline, hc, take]
    rw [if_pos (by simpa [escapable] using hc), run_cons, hbackslash]
    simp only [Except.bind, run_cons, hescaped, run_nil]
  · have hexpand : c ∉ expanding := fun hmem => hc (by simp_all [expanding, escapable])
    have hquote : c ≠ '"' ∧ c ≠ '\\' := by
      constructor <;> rintro rfl <;> exact hc (by decide)
    rw [if_neg (by simpa [escapable] using hc)]
    simp [run_cons, step, stepDouble, take, Except.bind, hquote, hexpand]

theorem run_double (cs : List Char) (complete : List (List Char)) (word : List Char) :
    run ⟨complete, some word, .double⟩ (cs.flatMap escapeDouble) =
      .ok ⟨complete, some (word ++ cs), .double⟩ := by
  induction cs generalizing word with
  | nil => simp
  | cons c cs ih =>
    have hrest := ih (word ++ [c])
    rw [List.flatMap_cons, run_append, run_escapeDouble]
    simp only [Except.bind, hrest, List.append_assoc, List.singleton_append]

/-- A shell reads a chunk as what it is, whatever stands in the word before it. -/
theorem run_writeChunk {chunk : Style × List Char} (h : Writable chunk)
    (complete : List (List Char)) (word : Option (List Char)) :
    run ⟨complete, word, .bare⟩ (writeChunk chunk) =
      .ok ⟨complete, some (word.getD [] ++ chunk.2), .bare⟩ := by
  obtain ⟨style, cs⟩ := chunk
  cases style with
  | plain => exact run_plain h.2 h.1 complete word
  | single =>
    have hopen : step ⟨complete, word, .bare⟩ '\x27' =
        .ok ⟨complete, some (word.getD []), .single⟩ := rfl
    simp only [writeChunk, List.cons_append, run_cons, hopen, Except.bind, run_append,
      run_single h]
    rfl
  | double =>
    have hopen : step ⟨complete, word, .bare⟩ '"' =
        .ok ⟨complete, some (word.getD []), .double⟩ := rfl
    simp only [writeChunk, List.cons_append, run_cons, hopen, Except.bind, run_append, run_double]
    rfl

theorem run_chunks {chunks : List (Style × List Char)} (h : ∀ chunk ∈ chunks, Writable chunk)
    (hne : chunks ≠ []) (complete : List (List Char)) (word : Option (List Char)) :
    run ⟨complete, word, .bare⟩ (chunks.flatMap writeChunk) =
      .ok ⟨complete, some (word.getD [] ++ chunks.flatMap fun chunk => chunk.2), .bare⟩ := by
  induction chunks generalizing word with
  | nil => exact absurd rfl hne
  | cons chunk chunks ih =>
    rw [List.flatMap_cons, run_append, run_writeChunk (h chunk (by simp))]
    cases chunks with
    | nil => simp [Except.bind]
    | cons next chunks =>
      have hrest := ih (fun e he => h e (by simp [he])) (by simp) (some (word.getD [] ++ chunk.2))
      simp only [Except.bind]
      rw [hrest]
      simp only [Option.getD_some, List.flatMap_cons, List.append_assoc]

/-- A shell reads a word as what it is. -/
theorem run_quoteChars (cs : List Char) (complete : List (List Char)) :
    run ⟨complete, none, .bare⟩ (quoteChars cs) = .ok ⟨complete, some cs, .bare⟩ := by
  obtain ⟨hne, hwritable⟩ := chunks_writable cs
  rw [quoteChars, run_chunks hwritable hne, flatMap_chunks]
  rfl

/-- A shell splits words with blanks between them back. -/
theorem run_words (cs : List Char) (words : List (List Char)) (complete : List (List Char)) :
    (run ⟨complete, none, .bare⟩ ([' '].intercalate ((cs :: words).map quoteChars))).bind finish =
      .ok (complete ++ cs :: words) := by
  induction words generalizing cs complete with
  | nil =>
    have hsingle : [' '].intercalate ([cs].map quoteChars) = quoteChars cs := by
      simp [List.intercalate]
    rw [hsingle, run_quoteChars]
    rfl
  | cons next words ih =>
    have hblank : step ⟨complete, some cs, .bare⟩ ' ' = .ok ⟨complete ++ [cs], none, .bare⟩ := rfl
    have hrest := ih next (complete ++ [cs])
    rw [List.map_cons] at hrest
    rw [List.map_cons, List.map_cons, List.intercalate_cons_cons, List.append_assoc, run_append,
      run_quoteChars]
    simp only [Except.bind, List.singleton_append, run_cons, hblank]
    simpa only [Except.bind, List.append_assoc, List.singleton_append] using hrest

end ShellWord

/-! ### Command lines -/

namespace CommandLine

open ShellWord Splitting

/-- The words of a command line: the program and its arguments. -/
def words (c : CommandLine) : List String := c.program :: c.args

/-- A word has no NUL character. -/
def NulFree (w : String) : Prop := '\x00' ∉ w.toList

/-- A word is the first one with a NUL character. -/
def FirstNul (ws : List String) (w : String) : Prop :=
  ¬ NulFree w ∧ ∃ before after, ws = before ++ w :: after ∧ ∀ v ∈ before, NulFree v

theorem quote?_of_nulFree {w : String} (h : NulFree w) :
    quote? w = some (String.ofList (quoteChars w.toList)) := by
  simp only [NulFree] at h
  simp [quote?, h]

theorem renderWords_cons_of_nulFree (program : String) {w : String} (h : NulFree w)
    (ws : List String) :
    renderWords program (w :: ws) =
      (renderWords program ws).map fun qs => String.ofList (quoteChars w.toList) :: qs := by
  rw [renderWords, quote?_of_nulFree h]
  cases renderWords program ws <;> rfl

/-- Words without NUL characters are written one by one. -/
theorem renderWords_of_nulFree (program : String) {ws : List String}
    (h : ∀ w ∈ ws, NulFree w) :
    renderWords program ws = .ok (ws.map fun w => String.ofList (quoteChars w.toList)) := by
  induction ws with
  | nil => rfl
  | cons w ws ih =>
    have hrest := ih fun v hv => h v (by simp [hv])
    rw [renderWords_cons_of_nulFree _ (h w (by simp)), hrest]
    rfl

/-- The first word with a NUL character is what words are refused for. -/
theorem FirstNul.renderWords_eq (program : String) {ws : List String} {w : String}
    (h : FirstNul ws w) : renderWords program ws = .error (unquotable program w) := by
  obtain ⟨hw, before, after, rfl, hbefore⟩ := h
  induction before with
  | nil =>
    have hnone : quote? w = none := (quote?_eq_none_iff w).2 (Classical.not_not.1 hw)
    rw [List.nil_append, renderWords, hnone]
  | cons v before ih =>
    have hrest := ih fun u hu => hbefore u (by simp [hu])
    rw [List.cons_append, renderWords_cons_of_nulFree _ (hbefore v (by simp)), hrest]
    rfl

/-- Either no word has a NUL character, or one is the first that has. -/
theorem nulFree_or_firstNul (ws : List String) :
    (∀ w ∈ ws, NulFree w) ∨ ∃ w, FirstNul ws w := by
  induction ws with
  | nil => exact .inl (by simp)
  | cons w ws ih =>
    by_cases hw : NulFree w
    · rcases ih with hfree | ⟨v, hv, before, after, rfl, hbefore⟩
      · left
        intro v hv
        rcases List.mem_cons.1 hv with rfl | hv
        · exact hw
        · exact hfree v hv
      · right
        refine ⟨v, hv, w :: before, after, rfl, fun u hu => ?_⟩
        rcases List.mem_cons.1 hu with rfl | hu
        · exact hw
        · exact hbefore u hu
    · exact .inr ⟨w, hw, [], ws, rfl, by simp⟩

theorem FirstNul.exists_mem {ws : List String} {w : String} (h : FirstNul ws w) :
    ∃ w ∈ ws, ¬ NulFree w := by
  obtain ⟨hw, before, after, rfl, -⟩ := h
  exact ⟨w, by simp, hw⟩

/-- The text of a command line. -/
def script (c : CommandLine) : String :=
  String.intercalate " " (c.words.map fun w => String.ofList (quoteChars w.toList))

theorem render_of_nulFree {c : CommandLine} (h : ∀ w ∈ c.words, NulFree w) :
    c.render = .ok c.script := by
  have hwords : renderWords c.program c.words = _ := renderWords_of_nulFree c.program h
  rw [words] at hwords
  rw [render, hwords]
  rfl

theorem FirstNul.render_eq {c : CommandLine} {w : String} (h : FirstNul c.words w) :
    c.render = .error (unquotable c.program w) := by
  have hwords : renderWords c.program c.words = _ := h.renderWords_eq c.program
  rw [words] at hwords
  rw [render, hwords]
  rfl

/-- A shell splits the text of a command line into its words. -/
theorem split_script (c : CommandLine) :
    split c.script.toList = .ok (c.words.map String.toList) := by
  have htoList : c.script.toList =
      [' '].intercalate ((c.program.toList :: c.args.map String.toList).map quoteChars) := by
    simp [script, words, String.toList_intercalate, Function.comp_def]
  rw [htoList]
  exact run_words c.program.toList (c.args.map String.toList) []

/-- A command line that is rendered has no NUL character. -/
theorem render_eq_ok_iff {c : CommandLine} {text : String} :
    c.render = .ok text ↔ (∀ w ∈ c.words, NulFree w) ∧ text = c.script := by
  rcases nulFree_or_firstNul c.words with hfree | ⟨w, hw⟩
  · simp only [render_of_nulFree hfree, Except.ok.injEq]
    exact ⟨fun h => ⟨hfree, h.symm⟩, fun h => h.2.symm⟩
  · obtain ⟨v, hv, hnul⟩ := hw.exists_mem
    simp only [hw.render_eq, reduceCtorEq, false_iff]
    exact fun h => hnul (h.1 v hv)

/-- A command line is refused for its first word with a NUL character. -/
theorem render_eq_error_iff {c : CommandLine} {fault : ToolFault} :
    c.render = .error fault ↔ ∃ w, FirstNul c.words w ∧ fault = unquotable c.program w := by
  constructor
  · intro h
    rcases nulFree_or_firstNul c.words with hfree | ⟨w, hw⟩
    · rw [render_of_nulFree hfree] at h
      cases h
    · rw [hw.render_eq] at h
      exact ⟨w, hw, (Except.error.inj h).symm⟩
  · rintro ⟨w, hw, rfl⟩
    exact hw.render_eq

/-- A command line that is rendered is split back, by characters as well as by octets. -/
theorem split_of_render {c : CommandLine} {text : String} (h : c.render = .ok text) :
    split text.toList = .ok (c.words.map String.toList) ∧
      split (Narrow.ofString text) = .ok (c.words.map Narrow.ofString) := by
  obtain ⟨-, rfl⟩ := render_eq_ok_iff.1 h
  refine ⟨c.split_script, ?_⟩
  rw [ofString_eq_narrow, split_narrow, c.split_script]
  simp [Except.map, Function.comp_def, ← ofString_eq_narrow]

theorem words_injective {c d : CommandLine} (h : c.words = d.words) : c = d := by
  obtain ⟨program, args⟩ := c
  obtain ⟨program', args'⟩ := d
  obtain ⟨rfl, rfl⟩ := List.cons.inj h
  rfl

/-- Command lines with the same text are the same. -/
theorem eq_of_render {c d : CommandLine} {text : String} (hc : c.render = .ok text)
    (hd : d.render = .ok text) : c = d := by
  have hsplit := (split_of_render hc).1.symm.trans (split_of_render hd).1
  have hwords : c.words.map String.toList = d.words.map String.toList := Except.ok.inj hsplit
  exact words_injective ((List.map_inj_right fun _ _ h => String.toList_injective h).1 hwords)

/-- A shell splits command lines back: a command line is refused exactly for NUL characters, with a
literal of its first word that has one, and of no other word. Any other is a text that a shell
splits into the program and its arguments, with nothing in it to replace or to execute, so that no
other command line has this text, and a shell that is started with the text gets the words that the
program would be started with by itself. -/
theorem render_splits_back (c : CommandLine) :
    ((∃ fault, c.render = .error fault) ↔ ∃ w ∈ c.words, '\x00' ∈ w.toList) ∧
    (∀ fault, c.render = .error fault → ∃ w before after,
      c.words = before ++ w :: after ∧ '\x00' ∈ w.toList ∧ (∀ v ∈ before, '\x00' ∉ v.toList) ∧
      fault = .misconfigured
        (c.program ++ ": argument " ++ Quoted.quote w ++ " cannot be passed through a shell") ∧
      Quoted.IsLiteral (Quoted.quote w) w ∧ ∀ v, Quoted.IsLiteral (Quoted.quote w) v → v = w) ∧
    (∀ text, c.render = .ok text →
      split text.toList = .ok (c.words.map String.toList) ∧
      split (Narrow.ofString text) = .ok (c.words.map Narrow.ofString)) ∧
    (∀ d : CommandLine, ∀ text, c.render = .ok text → d.render = .ok text → c = d) ∧
    (∀ direct shell : ToolSetup, direct.shell = .direct → shell.shell = .shell →
      (∀ fault, c.render = .error fault → shell.startWords c = .error fault) ∧
      ∀ text, c.render = .ok text → ∃ program args,
        direct.startWords c = .ok (program, args) ∧ shell.startWords c = .ok ("sh", ["-c", text]) ∧
        split (Narrow.ofString text) = .ok ((program :: args).map Narrow.ofString)) := by
  refine ⟨⟨?_, ?_⟩, ?_, fun text h => split_of_render h, fun d text => eq_of_render, ?_⟩
  · rintro ⟨fault, h⟩
    obtain ⟨w, hw, -⟩ := render_eq_error_iff.1 h
    obtain ⟨v, hv, hnul⟩ := hw.exists_mem
    exact ⟨v, hv, Classical.not_not.1 hnul⟩
  · rintro ⟨w, hw, hnul⟩
    rcases nulFree_or_firstNul c.words with hfree | ⟨v, hv⟩
    · exact absurd hnul (hfree w hw)
    · exact ⟨_, hv.render_eq⟩
  · intro fault h
    obtain ⟨w, ⟨hw, before, after, hwords, hbefore⟩, rfl⟩ := render_eq_error_iff.1 h
    have hliteral := Quoted.isLiteral_quote w
    exact ⟨w, before, after, hwords, Classical.not_not.1 hw, hbefore, rfl, hliteral,
      fun v hv => hv.unique hliteral⟩
  · intro direct shell hdirect hshell
    refine ⟨fun fault h => ?_, fun text h => ⟨c.program, c.args, ?_, ?_, (split_of_render h).2⟩⟩
    · rw [ToolSetup.startWords, hshell, h]
      rfl
    · rw [ToolSetup.startWords, hdirect]
    · rw [ToolSetup.startWords, hshell, h]
      rfl

end CommandLine
end CjsxConversion
