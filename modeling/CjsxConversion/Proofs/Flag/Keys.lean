import CjsxConversion.Flag.Set
import Mathlib.Data.List.SplitBy
import Mathlib.Data.List.TakeWhile

/-!
# Which flags share a setting key

The setting key of a flag loses what stands between its words and the case of their letters. A word
that begins with a digit has no capital, so that it cannot be told from the end of the word before
it. Nothing else is lost.

The words that a key tells of a spelling are the longest runs of letters and digits,
in lower case, with each run that begins with a digit put behind the run before it.

A key is the camel case of the key words, and cutting it before each capital gives
the key words back.

Main results:
* `spellingWords_eq`: the words of a spelling are its longest runs, in lower case.
* `joinCamel_joinDigits`: words that begin with a digit may be joined to those before them.
* `humps_joinCamel`: words are read back from their camel case.
* `spellingKey_eq_iff`: two spellings have the same key exactly if they have the same key words.
* `keyWords_dashed`: the key words of a flag made of words with dashes in between.
* `FlagSet.firstRepeat?_eq_some_iff`: the first flag that shares the key of an earlier one.
* `shared_keys`: all of this, and what it means for sets of flags.
-/

namespace CjsxConversion

/-- Whether a word begins with a digit. -/
def beginsWithDigit (w : List Char) : Bool :=
  w.head?.any Char.isDigit

/-- The longest runs of letters and digits of a text. -/
def wordRuns (cs : List Char) : List (List Char) :=
  (cs.splitBy fun c d => isWordChar c == isWordChar d).filter fun run => run.all isWordChar

/-- Words, each that begins with a digit put behind the one before it. -/
def joinDigits (ws : List (List Char)) : List (List Char) :=
  (ws.splitBy fun _ w => beginsWithDigit w).map List.flatten

/-- The words that a key tells of a spelling. -/
def keyWords (spelling : String) : List (List Char) :=
  joinDigits ((wordRuns spelling.toList).map fun run => run.map Char.toLower)

/-- The parts of a key, which is cut before each capital, in lower case. -/
def humps (key : String) : List (List Char) :=
  (key.toList.splitBy fun _ c => !c.isUpper).map fun hump => hump.map Char.toLower

/-- A word in lower case, of at least one letter or digit. -/
structure IsLowered (w : List Char) : Prop where
  ne_nil : w ≠ []
  plain : ∀ c ∈ w, c.isLower = true ∨ c.isDigit = true

/-! ### Letters -/

section Letters

variable {c : Char}

theorem isUpper_iff_val : c.isUpper = true ↔ c.val ≥ 'A'.val ∧ c.val ≤ 'Z'.val :=
  decide_eq_true_iff

theorem isLower_iff_val : c.isLower = true ↔ c.val ≥ 'a'.val ∧ c.val ≤ 'z'.val := by
  change (decide (c.val ≥ 'a'.val) && decide (c.val ≤ 'z'.val)) = true ↔ _
  rw [Bool.and_eq_true, decide_eq_true_iff, decide_eq_true_iff]

theorem isUpper_iff : c.isUpper = true ↔ 65 ≤ c.toNat ∧ c.toNat ≤ 90 := by
  rw [isUpper_iff_val, ge_iff_le, UInt32.le_iff_toNat_le, UInt32.le_iff_toNat_le]
  rfl

theorem isLower_iff : c.isLower = true ↔ 97 ≤ c.toNat ∧ c.toNat ≤ 122 := by
  rw [isLower_iff_val, ge_iff_le, UInt32.le_iff_toNat_le, UInt32.le_iff_toNat_le]
  rfl

theorem isDigit_iff : c.isDigit = true ↔ 48 ≤ c.toNat ∧ c.toNat ≤ 57 := by
  simp [Char.isDigit, UInt32.le_iff_toNat_le, ← Char.toNat_val]

theorem toNat_toUpper (h : c.isLower = true) : c.toUpper.toNat = c.toNat - 32 := by
  have hval : c.toUpper.val = c.val + 4294967264 := by
    unfold Char.toUpper
    rw [dif_pos (isLower_iff_val.1 h)]
    rfl
  have hlow := isLower_iff.1 h
  change c.toUpper.val.toNat = _
  rw [hval, UInt32.toNat_add]
  change (c.toNat + 4294967264) % 4294967296 = _
  omega

theorem toNat_toLower (h : c.isUpper = true) : c.toLower.toNat = c.toNat + 32 := by
  have hval : c.toLower.val = c.val + 32 := by
    unfold Char.toLower
    rw [dif_pos (isUpper_iff_val.1 h)]
    rfl
  have hup := isUpper_iff.1 h
  change c.toLower.val.toNat = _
  rw [hval, UInt32.toNat_add]
  change (c.toNat + 32) % 4294967296 = _
  omega

theorem toUpper_of_not_isLower (h : c.isLower = false) : c.toUpper = c := by
  unfold Char.toUpper
  rw [dif_neg (isLower_iff_val.not.1 (Bool.eq_false_iff.1 h))]

theorem toLower_of_not_isUpper (h : c.isUpper = false) : c.toLower = c := by
  unfold Char.toLower
  rw [dif_neg (isUpper_iff_val.not.1 (Bool.eq_false_iff.1 h))]

theorem isUpper_toUpper (h : c.isLower = true) : c.toUpper.isUpper = true := by
  have hlow := isLower_iff.1 h
  rw [isUpper_iff, toNat_toUpper h]
  omega

theorem toLower_toUpper (h : c.isLower = true) : c.toUpper.toLower = c := by
  have hlow := isLower_iff.1 h
  refine Char.toNat_inj.1 ?_
  rw [toNat_toLower (isUpper_toUpper h), toNat_toUpper h]
  omega

theorem isUpper_of_isLower (h : c.isLower = true) : c.isUpper = false := by
  have hlow := isLower_iff.1 h
  rw [Bool.eq_false_iff, ne_eq, isUpper_iff]
  omega

theorem not_isCased_of_isDigit (h : c.isDigit = true) : c.isUpper = false ∧ c.isLower = false := by
  have hdigit := isDigit_iff.1 h
  rw [Bool.eq_false_iff, Bool.eq_false_iff, ne_eq, ne_eq, isUpper_iff, isLower_iff]
  omega

theorem isWordChar_iff :
    isWordChar c = true ↔ c.isUpper = true ∨ c.isLower = true ∨ c.isDigit = true := by
  change ((c.isUpper || c.isLower) || c.isDigit) = true ↔ _
  rw [Bool.or_eq_true, Bool.or_eq_true, or_assoc]

/-- In lower case, what belongs to a word is a small letter or a digit. -/
theorem isLower_or_isDigit_toLower (h : isWordChar c = true) :
    c.toLower.isLower = true ∨ c.toLower.isDigit = true := by
  rcases isWordChar_iff.1 h with hupper | hlower | hdigit
  · have hup := isUpper_iff.1 hupper
    rw [isLower_iff, toNat_toLower hupper]
    omega
  · rw [toLower_of_not_isUpper (isUpper_of_isLower hlower)]
    exact .inl hlower
  · rw [toLower_of_not_isUpper (not_isCased_of_isDigit hdigit).1]
    exact .inr hdigit

end Letters

namespace IsLowered

variable {w : List Char} {c : Char}

theorem isUpper_eq (h : IsLowered w) (hc : c ∈ w) : c.isUpper = false := by
  rcases h.plain c hc with hlower | hdigit
  · exact isUpper_of_isLower hlower
  · exact (not_isCased_of_isDigit hdigit).1

theorem isWordChar_eq (h : IsLowered w) (hc : c ∈ w) : isWordChar c = true :=
  isWordChar_iff.2 (.inr (h.plain c hc))

theorem map_toLower (h : IsLowered w) : w.map Char.toLower = w := by
  conv_rhs => rw [← List.map_id w]
  exact List.map_congr_left fun c hc => toLower_of_not_isUpper (h.isUpper_eq hc)

theorem flatten {ws : List (List Char)} (hne : ws ≠ []) (h : ∀ w ∈ ws, IsLowered w) :
    IsLowered ws.flatten := by
  obtain ⟨w, rest, rfl⟩ := List.exists_cons_of_ne_nil hne
  have hw := (h w List.mem_cons_self).ne_nil
  refine ⟨by simp [hw], fun c hc => ?_⟩
  obtain ⟨v, hv, hcv⟩ := List.mem_flatten.1 hc
  exact (h v hv).plain c hcv

theorem exists_letter (h : IsLowered w) (hletter : beginsWithDigit w = false) :
    ∃ c rest, w = c :: rest ∧ c.isLower = true := by
  obtain ⟨c, rest, rfl⟩ := List.exists_cons_of_ne_nil h.ne_nil
  have hdigit : c.isDigit = false := hletter
  exact ⟨c, rest, rfl, (h.plain c List.mem_cons_self).resolve_right (by simp [hdigit])⟩

end IsLowered

/-! ### The words of a spelling -/

section Runs

variable {cs block : List Char}

theorem spellingWords_append_gap {gap : List Char} (h : ∀ c ∈ gap, isWordChar c = false)
    (cs : List Char) : spellingWords (gap ++ cs) = spellingWords cs := by
  induction gap with
  | nil => rfl
  | cons c gap ih =>
    have hc := h c List.mem_cons_self
    have hrest := ih fun d hd => h d (List.mem_cons_of_mem c hd)
    rw [List.cons_append, ← hrest]
    simp [spellingWords, List.splitOnP_cons_eq_if_modifyHead, hc]

theorem spellingWords_append_word {w : List Char} (hne : w ≠ [])
    (h : ∀ c ∈ w, isWordChar c = true) (hends : ∀ c ∈ cs.head?, isWordChar c = false) :
    spellingWords (w ++ cs) = w.map Char.toLower :: spellingWords cs := by
  have hinner : ∀ c ∈ w, (!isWordChar c) = false := fun c hc => by simp [h c hc]
  cases cs with
  | nil =>
    rw [List.append_nil]
    simp [spellingWords, List.splitOnP_eq_singleton hinner, hne]
  | cons c cs =>
    have hc : isWordChar c = false := hends c rfl
    have hsep : (!isWordChar c) = true := by simp [hc]
    have hskip : spellingWords (c :: cs) = spellingWords cs :=
      spellingWords_append_gap (List.forall_mem_singleton.2 hc) cs
    rw [hskip, spellingWords, List.splitOnP_append_cons_of_forall_mem hinner c hsep]
    simp [spellingWords, hne]

/-- A block of characters of one class, as long as it can be, is a run or nothing. -/
theorem wordRuns_append_block {b : Bool} (hne : block ≠ [])
    (h : ∀ c ∈ block, isWordChar c = b) (hends : ∀ c ∈ cs.head?, isWordChar c = !b) :
    wordRuns (block ++ cs) = (if b then [block] else []) ++ wordRuns cs := by
  have hone : block.splitBy (fun c d => isWordChar c == isWordChar d) = [block] := by
    refine List.splitBy_of_isChain hne (List.Pairwise.isChain ?_)
    exact List.pairwise_of_forall_mem_list fun c hc d hd => by simp [h c hc, h d hd]
  have hcut : (block ++ cs).splitBy (fun c d => isWordChar c == isWordChar d) =
      block.splitBy (fun c d => isWordChar c == isWordChar d) ++
        cs.splitBy fun c d => isWordChar c == isWordChar d :=
    List.splitBy_append fun c hc d hd => by
      simp [h c (List.mem_of_mem_getLast? hc), hends d hd]
  obtain ⟨c, hc⟩ := List.exists_mem_of_ne_nil block hne
  have hkept : block.all isWordChar = b := by
    cases b with
    | true => simpa using h
    | false => simpa using ⟨c, hc, h c hc⟩
  rw [wordRuns, hcut, hone, List.filter_append, wordRuns]
  cases b <;> simp [hkept]

/-- The words of a spelling are its longest runs of letters and digits, in lower case. -/
theorem spellingWords_eq (cs : List Char) :
    spellingWords cs = (wordRuns cs).map fun run => run.map Char.toLower := by
  -- by induction on the length, taking off the first block of characters of one class
  induction hn : cs.length using Nat.strong_induction_on generalizing cs with
  | _ n ih =>
    cases cs with
    | nil => rfl
    | cons c cs =>
      obtain ⟨block, rest, hcut, hc, hsame, hends⟩ : ∃ block rest, c :: cs = block ++ rest ∧
          c ∈ block ∧ (∀ d ∈ block, isWordChar d = isWordChar c) ∧
          ∀ d ∈ rest.head?, isWordChar d = !isWordChar c := by
        refine ⟨(c :: cs).takeWhile fun d => isWordChar d == isWordChar c,
          (c :: cs).dropWhile fun d => isWordChar d == isWordChar c,
          List.takeWhile_append_dropWhile.symm, by simp, fun d hd => ?_, fun d hd => ?_⟩
        · simpa using List.mem_takeWhile_imp hd
        · have hhead := List.head?_dropWhile_not
            (fun d => isWordChar d == isWordChar c) (c :: cs)
          rw [Option.mem_def.1 hd] at hhead
          simpa [Bool.eq_not] using hhead
      have hne := List.ne_nil_of_mem hc
      have hshorter : rest.length < n := by
        have hlength := congrArg List.length hcut
        have hpos := List.length_pos_iff.2 hne
        rw [hn, List.length_append] at hlength
        omega
      have hrest := ih _ hshorter rest rfl
      rw [hcut, wordRuns_append_block hne hsame hends]
      cases hclass : isWordChar c with
      | true =>
        rw [hclass] at hsame hends
        rw [spellingWords_append_word hne hsame hends, hrest]
        rfl
      | false =>
        rw [hclass] at hsame
        rw [spellingWords_append_gap hsame, hrest]
        rfl

theorem isLowered_of_mem_runs {w : List Char}
    (h : w ∈ (wordRuns cs).map fun run => run.map Char.toLower) : IsLowered w := by
  obtain ⟨run, hrun, rfl⟩ := List.mem_map.1 h
  obtain ⟨hrun, hword⟩ := List.mem_filter.1 hrun
  refine ⟨by simpa using List.ne_nil_of_mem_splitBy hrun, fun c hc => ?_⟩
  obtain ⟨d, hd, rfl⟩ := List.mem_map.1 hc
  exact isLower_or_isDigit_toLower (List.all_eq_true.1 hword d hd)

end Runs

/-! ### Camel case -/

section Camel

theorem isChain_snd_iff {α : Type} {P : α → Prop} {x : α} {xs : List α} :
    (x :: xs).IsChain (fun _ y => P y) ↔ ∀ y ∈ xs, P y := by
  induction xs generalizing x with
  | nil => simp
  | cons y ys ih =>
    rw [List.isChain_cons_cons, ih]
    simp

variable {ws : List (List Char)}

theorem capitalize_of_beginsWithDigit {w : List Char} (h : beginsWithDigit w = true) :
    capitalize w = w := by
  cases w with
  | nil => rfl
  | cons c cs =>
    have hc : c.isDigit = true := h
    rw [capitalize, toUpper_of_not_isLower (not_isCased_of_isDigit hc).2]

theorem flatMap_capitalize_of_digits (h : ∀ w ∈ ws, beginsWithDigit w = true) :
    ws.flatMap capitalize = ws.flatten := by
  induction ws with
  | nil => rfl
  | cons w ws ih =>
    have hw := capitalize_of_beginsWithDigit (h w List.mem_cons_self)
    rw [List.flatMap_cons, List.flatten_cons, hw, ih fun v hv => h v (List.mem_cons_of_mem w hv)]

/-- A group of words all of which but the first begin with a digit is capitalized as one word. -/
theorem capitalize_flatten {w : List Char} (hw : w ≠ []) (h : ∀ v ∈ ws, beginsWithDigit v = true) :
    capitalize (w ++ ws.flatten) = (w :: ws).flatMap capitalize := by
  obtain ⟨c, cs, rfl⟩ := List.exists_cons_of_ne_nil hw
  rw [List.flatMap_cons, flatMap_capitalize_of_digits h]
  rfl

/-- The groups that words are joined in. -/
theorem exists_groups (ws : List (List Char)) :
    ∃ groups : List (List (List Char)), groups.flatten = ws ∧
      joinDigits ws = groups.map List.flatten ∧
      (∀ g ∈ groups, ∃ w vs, g = w :: vs ∧ ∀ v ∈ vs, beginsWithDigit v = true) ∧
      ∀ g ∈ groups.tail, ∃ w vs, g = w :: vs ∧ beginsWithDigit w = false := by
  refine ⟨ws.splitBy fun _ w => beginsWithDigit w, List.flatten_splitBy _ ws, rfl, ?_, ?_⟩
  · intro g hg
    obtain ⟨w, vs, rfl⟩ := List.exists_cons_of_ne_nil (List.ne_nil_of_mem_splitBy hg)
    exact ⟨w, vs, rfl, isChain_snd_iff.1 (List.isChain_of_mem_splitBy hg)⟩
  · have hchain := List.isChain_getLast_head_splitBy (fun _ w => beginsWithDigit w) ws
    cases hgroups : ws.splitBy fun _ w => beginsWithDigit w with
    | nil => simp
    | cons g groups =>
      rw [hgroups] at hchain
      have hheads : (g :: groups).IsChain fun _ b =>
          ∃ hb : b ≠ [], beginsWithDigit (b.head hb) = false :=
        hchain.imp fun _ _ ⟨_, hb, h⟩ => ⟨hb, h⟩
      intro b hb
      obtain ⟨hne, hhead⟩ := isChain_snd_iff.1 hheads b hb
      obtain ⟨w, vs, rfl⟩ := List.exists_cons_of_ne_nil hne
      exact ⟨w, vs, rfl, hhead⟩

/-- Words that begin with a digit may be joined to those before them. -/
theorem joinCamel_joinDigits (h : ∀ w ∈ ws, w ≠ []) :
    joinCamel (joinDigits ws) = joinCamel ws := by
  obtain ⟨groups, rfl, hjoined, hgroups, -⟩ := exists_groups ws
  rw [hjoined]
  cases groups with
  | nil => rfl
  | cons g groups =>
    obtain ⟨w, vs, rfl, hvs⟩ := hgroups g List.mem_cons_self
    have hrest : (groups.map List.flatten).flatMap capitalize =
        groups.flatten.flatMap capitalize := by
      rw [List.flatMap_map, ← List.flatMap_id, List.flatMap_assoc]
      refine List.flatMap_congr fun g' hg' => ?_
      obtain ⟨w', vs', rfl, hvs'⟩ := hgroups g' (List.mem_cons_of_mem _ hg')
      refine capitalize_flatten (h w' ?_) hvs'
      exact List.mem_flatten.2 ⟨_, List.mem_cons_of_mem _ hg', List.mem_cons_self⟩
    simp only [List.map_cons, List.flatten_cons, List.cons_append, joinCamel, hrest,
      List.flatMap_append, flatMap_capitalize_of_digits hvs, List.append_assoc]

theorem isLowered_of_mem_joinDigits (h : ∀ w ∈ ws, IsLowered w) :
    ∀ w ∈ joinDigits ws, IsLowered w := by
  obtain ⟨groups, rfl, hjoined, hgroups, -⟩ := exists_groups ws
  intro w hw
  rw [hjoined] at hw
  obtain ⟨g, hg, rfl⟩ := List.mem_map.1 hw
  obtain ⟨v, vs, rfl, -⟩ := hgroups g hg
  exact IsLowered.flatten (List.cons_ne_nil v vs) fun u hu => h u (List.mem_flatten.2 ⟨_, hg, hu⟩)

/-- Of joined words, only the first can begin with a digit. -/
theorem beginsWithDigit_of_mem_tail (h : ∀ w ∈ ws, IsLowered w) :
    ∀ w ∈ (joinDigits ws).tail, beginsWithDigit w = false := by
  obtain ⟨groups, rfl, hjoined, -, hlater⟩ := exists_groups ws
  intro w hw
  rw [hjoined, ← List.map_tail] at hw
  obtain ⟨g, hg, rfl⟩ := List.mem_map.1 hw
  obtain ⟨v, vs, rfl, hv⟩ := hlater g hg
  have hne : v ≠ [] := (h v (List.mem_flatten.2
    ⟨_, List.mem_of_mem_tail hg, List.mem_cons_self⟩)).ne_nil
  obtain ⟨c, cs, rfl⟩ := List.exists_cons_of_ne_nil hne
  exact hv

/-- A key is cut where the words after the first begin. -/
theorem splitBy_joinCamel {w : List Char} (hw : IsLowered w)
    (hws : ∀ v ∈ ws, IsLowered v ∧ beginsWithDigit v = false) :
    (joinCamel (w :: ws)).splitBy (fun _ c => !c.isUpper) = w :: ws.map capitalize := by
  have hcapital : ∀ m ∈ ws.map capitalize, ∃ c cs, m = c :: cs ∧ c.isUpper = true ∧
      ∀ d ∈ cs, d.isUpper = false := by
    intro m hm
    obtain ⟨v, hv, rfl⟩ := List.mem_map.1 hm
    obtain ⟨hlow, hletter⟩ := hws v hv
    obtain ⟨c, cs, rfl, hc⟩ := hlow.exists_letter hletter
    exact ⟨c.toUpper, cs, rfl, isUpper_toUpper hc,
      fun d hd => hlow.isUpper_eq (List.mem_cons_of_mem c hd)⟩
  have hflat : joinCamel (w :: ws) = (w :: ws.map capitalize).flatten := by
    rw [joinCamel, List.flatten_cons, List.flatMap_def]
  rw [hflat]
  refine List.splitBy_flatten ?_ ?_ (List.Pairwise.isChain (List.pairwise_cons.2 ⟨?_, ?_⟩))
  · intro hnil
    rcases List.mem_cons.1 hnil with hnil | hnil
    · exact hw.ne_nil hnil.symm
    · obtain ⟨c, cs, hm, -⟩ := hcapital _ hnil
      cases hm
  · intro m hm
    rcases List.mem_cons.1 hm with rfl | hm
    · obtain ⟨c, cs, rfl⟩ := List.exists_cons_of_ne_nil hw.ne_nil
      exact isChain_snd_iff.2 fun d hd => by simp [hw.isUpper_eq (List.mem_cons_of_mem c hd)]
    · obtain ⟨c, cs, rfl, -, hcs⟩ := hcapital m hm
      exact isChain_snd_iff.2 fun d hd => by simp [hcs d hd]
  · intro m hm
    obtain ⟨c, cs, rfl, hc, -⟩ := hcapital m hm
    exact ⟨hw.ne_nil, List.cons_ne_nil c cs, by simp [hc]⟩
  · refine List.pairwise_of_forall_mem_list fun a ha m hm => ?_
    obtain ⟨b, bs, rfl, -⟩ := hcapital a ha
    obtain ⟨c, cs, rfl, hc, -⟩ := hcapital m hm
    exact ⟨List.cons_ne_nil b bs, List.cons_ne_nil c cs, by simp [hc]⟩

/-- Words are read back from their camel case, if none but the first begins with a digit. -/
theorem humps_joinCamel (h : ∀ w ∈ ws, IsLowered w)
    (hbegin : ∀ w ∈ ws.tail, beginsWithDigit w = false) :
    humps (String.ofList (joinCamel ws)) = ws := by
  rw [humps, String.toList_ofList]
  cases ws with
  | nil => rfl
  | cons w ws =>
    have hw := h w List.mem_cons_self
    have hws : ∀ v ∈ ws, IsLowered v ∧ beginsWithDigit v = false :=
      fun v hv => ⟨h v (List.mem_cons_of_mem w hv), hbegin v hv⟩
    have hback : ∀ v ∈ ws, (capitalize v).map Char.toLower = v := by
      intro v hv
      obtain ⟨hlow, hletter⟩ := hws v hv
      obtain ⟨c, cs, rfl, hc⟩ := hlow.exists_letter hletter
      have hcs := hlow.map_toLower
      rw [List.map_cons] at hcs
      rw [capitalize, List.map_cons, toLower_toUpper hc, (List.cons.inj hcs).2]
    rw [splitBy_joinCamel hw hws, List.map_cons, hw.map_toLower, List.map_map]
    congr 1
    conv_rhs => rw [← List.map_id ws]
    exact List.map_congr_left hback

end Camel

/-! ### Keys -/

section Keys

theorem keyWords_eq (spelling : String) :
    keyWords spelling = joinDigits (spellingWords spelling.toList) := by
  rw [keyWords, spellingWords_eq]

theorem isLowered_of_mem_spellingWords {cs w : List Char} (h : w ∈ spellingWords cs) :
    IsLowered w :=
  isLowered_of_mem_runs (spellingWords_eq cs ▸ h)

/-- A key is the camel case of the key words. -/
theorem spellingKey_eq_joinCamel (spelling : String) :
    spellingKey spelling = String.ofList (joinCamel (keyWords spelling)) := by
  have hne : ∀ w ∈ spellingWords spelling.toList, w ≠ [] :=
    fun w hw => (isLowered_of_mem_spellingWords hw).ne_nil
  rw [keyWords_eq, joinCamel_joinDigits hne, spellingKey]

/-- Cutting a key before each capital gives the key words back. -/
theorem humps_spellingKey (spelling : String) :
    humps (spellingKey spelling) = keyWords spelling := by
  have hlow : ∀ w ∈ spellingWords spelling.toList, IsLowered w :=
    fun w hw => isLowered_of_mem_spellingWords hw
  rw [spellingKey_eq_joinCamel, keyWords_eq]
  exact humps_joinCamel (isLowered_of_mem_joinDigits hlow) (beginsWithDigit_of_mem_tail hlow)

/-- Two spellings have the same key exactly if they have the same key words. -/
theorem spellingKey_eq_iff {f g : String} :
    spellingKey f = spellingKey g ↔ keyWords f = keyWords g := by
  constructor
  · intro h
    rw [← humps_spellingKey f, h, humps_spellingKey]
  · intro h
    rw [spellingKey_eq_joinCamel, h, ← spellingKey_eq_joinCamel]

/-- A word that flags are made of: in lower case, and beginning with a letter. -/
def IsFlagWord (w : String) : Prop :=
  ∃ c cs, w.toList = c :: cs ∧ c.isLower = true ∧ ∀ d ∈ cs, d.isLower = true ∨ d.isDigit = true

/-- A flag made of words with single dashes in between. -/
def dashed (lead : String) (ws : List String) : String :=
  lead ++ String.intercalate "-" ws

theorem IsFlagWord.isLowered {w : String} (h : IsFlagWord w) : IsLowered w.toList := by
  obtain ⟨c, cs, hw, hc, hcs⟩ := h
  rw [hw]
  exact ⟨List.cons_ne_nil c cs, List.forall_mem_cons.2 ⟨.inl hc, hcs⟩⟩

theorem IsFlagWord.beginsWithDigit_eq {w : String} (h : IsFlagWord w) :
    beginsWithDigit w.toList = false := by
  obtain ⟨c, cs, hw, hc, -⟩ := h
  have hdigit : c.isDigit = false := by
    rw [Bool.eq_false_iff]
    intro hdigit
    exact absurd hc (by simp [(not_isCased_of_isDigit hdigit).2])
  rw [hw]
  exact hdigit

theorem spellingWords_intercalate {ws : List (List Char)} (h : ∀ w ∈ ws, IsLowered w) :
    spellingWords (['-'].intercalate ws) = ws := by
  induction ws with
  | nil => rfl
  | cons w ws ih =>
    have hw := h w List.mem_cons_self
    have hword : ∀ c ∈ w, isWordChar c = true := fun c hc => hw.isWordChar_eq hc
    have hrest := ih fun v hv => h v (List.mem_cons_of_mem w hv)
    cases ws with
    | nil =>
      have hone : spellingWords (w ++ []) = w.map Char.toLower :: spellingWords [] :=
        spellingWords_append_word hw.ne_nil hword (by simp)
      rw [List.append_nil, hw.map_toLower] at hone
      rw [List.intercalate_singleton, hone]
      rfl
    | cons v ws =>
      have hdash : ∀ c ∈ ['-'], isWordChar c = false := List.forall_mem_singleton.2 rfl
      rw [List.intercalate_cons_cons, List.append_assoc,
        spellingWords_append_word hw.ne_nil hword (by simpa using hdash),
        spellingWords_append_gap hdash, hrest, hw.map_toLower]

/-- A flag made of words has these words as its key words. -/
theorem keyWords_dashed {lead : String} {ws : List String}
    (hlead : ∀ c ∈ lead.toList, isWordChar c = false) (h : ∀ w ∈ ws, IsFlagWord w) :
    keyWords (dashed lead ws) = ws.map String.toList := by
  have hlow : ∀ w ∈ ws.map String.toList, IsLowered w := fun w hw => by
    obtain ⟨v, hv, rfl⟩ := List.mem_map.1 hw
    exact (h v hv).isLowered
  have hwords : spellingWords (dashed lead ws).toList = ws.map String.toList := by
    rw [dashed, String.toList_append, spellingWords_append_gap hlead, String.toList_intercalate]
    exact spellingWords_intercalate hlow
  rw [← humps_spellingKey, spellingKey, hwords]
  refine humps_joinCamel hlow fun w hw => ?_
  obtain ⟨v, hv, rfl⟩ := List.mem_map.1 (List.mem_of_mem_tail hw)
  exact (h v hv).beginsWithDigit_eq

end Keys

/-! ### Sets of flags -/

/-- Two flags share a key if their spellings have the same key words. -/
def Flag.SharesKey (f g : Flag) : Prop :=
  keyWords f.spelling = keyWords g.spelling

instance (f g : Flag) : Decidable (f.SharesKey g) :=
  inferInstanceAs (Decidable (_ = _))

theorem Flag.sharesKey_iff {f g : Flag} : f.SharesKey g ↔ f.settingKey = g.settingKey :=
  spellingKey_eq_iff.symm

namespace FlagSet

theorem nodup_settingKeys_iff {flags : List Flag} :
    (flags.map Flag.settingKey).Nodup ↔ flags.Pairwise fun f g => ¬ f.SharesKey g := by
  simp only [List.Nodup, List.pairwise_map, Flag.sharesKey_iff, ne_eq]

/-- The first flag that shares the key of an earlier one, or has one of some given keys. -/
theorem firstRepeat?_eq_some_iff {seen : List String} {flags : List Flag} {f : Flag} :
    firstRepeat? seen flags = some f ↔ ∃ before after, flags = before ++ f :: after ∧
      firstRepeat? seen before = none ∧
        (f.settingKey ∈ seen ∨ ∃ e ∈ before, e.settingKey = f.settingKey) := by
  induction flags generalizing seen with
  | nil => simp [firstRepeat?]
  | cons g rest ih =>
    by_cases hseen : g.settingKey ∈ seen
    · have hfirst : ∀ more, firstRepeat? seen (g :: more) = some g := fun more => by
        rw [firstRepeat?, if_pos hseen]
      constructor
      · intro h
        cases (hfirst rest).symm.trans h
        exact ⟨[], rest, rfl, rfl, .inl hseen⟩
      · rintro ⟨before, after, hflags, hbefore, -⟩
        cases before with
        | nil => rw [hfirst, (List.cons.inj hflags).1]
        | cons e before =>
          rw [← (List.cons.inj hflags).1, hfirst] at hbefore
          cases hbefore
    · have hlater : ∀ more, firstRepeat? seen (g :: more) =
          firstRepeat? (g.settingKey :: seen) more := fun more => by
        rw [firstRepeat?, if_neg hseen]
      rw [hlater, ih]
      constructor
      · rintro ⟨before, after, rfl, hbefore, hshared⟩
        refine ⟨g :: before, after, rfl, (hlater before).trans hbefore, ?_⟩
        rcases hshared with hkey | ⟨e, he, hkey⟩
        · rcases List.mem_cons.1 hkey with hkey | hkey
          · exact .inr ⟨g, List.mem_cons_self, hkey.symm⟩
          · exact .inl hkey
        · exact .inr ⟨e, List.mem_cons_of_mem g he, hkey⟩
      · rintro ⟨before, after, hflags, hbefore, hshared⟩
        cases before with
        | nil =>
          obtain rfl := (List.cons.inj hflags).1
          exact absurd (hshared.resolve_right (by simp)) hseen
        | cons e before =>
          obtain ⟨rfl, hrest⟩ := List.cons.inj hflags
          refine ⟨before, after, hrest, (hlater before).symm.trans hbefore, ?_⟩
          rcases hshared with hkey | ⟨e, he, hkey⟩
          · exact .inl (List.mem_cons_of_mem _ hkey)
          · rcases List.mem_cons.1 he with rfl | he
            · exact .inl (hkey ▸ List.mem_cons_self)
            · exact .inr ⟨e, he, hkey⟩

/-- A list of flags is refused for the first flag that shares the key of an earlier one. -/
theorem ofFlags_eq_error_iff {name version : String} {flags : List Flag} {fault : ConfigFault} :
    ofFlags name version flags = .error fault ↔
      ∃ f, firstRepeat? [] flags = some f ∧ fault = .repeatedFlag name f.spelling := by
  unfold ofFlags
  split
  · next f h => simp [h, eq_comm]
  · next h => simp [h]

end FlagSet

/-- Which flags share a setting key. The keys of two spellings are equal exactly if their key words
are. Flags made of words with dashes in between are known by their keys, which give the words back.
A list of flags is a set exactly if no two of them share a key; otherwise it is refused for the
first flag that shares the key of an earlier one. And in a set, every member is found by its
spelling. -/
theorem shared_keys (name version : String) (flags : List Flag) :
    (∀ f g : String, spellingKey f = spellingKey g ↔ keyWords f = keyWords g) ∧
    (∀ (lead : String) (ws : List String), (∀ c ∈ lead.toList, isWordChar c = false) →
      (∀ w ∈ ws, IsFlagWord w) →
        humps (spellingKey (dashed lead ws)) = ws.map String.toList ∧
        ∀ vs : List String, (∀ v ∈ vs, IsFlagWord v) →
          (spellingKey (dashed lead ws) = spellingKey (dashed lead vs) ↔ ws = vs)) ∧
    ((∃ s, FlagSet.ofFlags name version flags = .ok s) ↔
      flags.Pairwise fun f g => ¬ f.SharesKey g) ∧
    (∀ fault, FlagSet.ofFlags name version flags = .error fault ↔
      ∃ before f after, flags = before ++ f :: after ∧
        (before.Pairwise fun e g => ¬ e.SharesKey g) ∧ (∃ e ∈ before, e.SharesKey f) ∧
          fault = .repeatedFlag name f.spelling) ∧
    ∀ s, FlagSet.ofFlags name version flags = .ok s → s.name = name ∧ s.version = version ∧
      s.flags = flags ∧ ∀ f ∈ flags, s.find? f.spelling = some f := by
  refine ⟨fun f g => spellingKey_eq_iff, ?_, ?_, ?_, ?_⟩
  · intro lead ws hlead hws
    refine ⟨by rw [humps_spellingKey, keyWords_dashed hlead hws], fun vs hvs => ?_⟩
    rw [spellingKey_eq_iff, keyWords_dashed hlead hws, keyWords_dashed hlead hvs]
    exact (List.map_injective_iff.2 fun _ _ => String.toList_injective).eq_iff
  · rw [← FlagSet.nodup_settingKeys_iff]
    constructor
    · rintro ⟨s, hs⟩
      exact (FlagSet.ofFlags_eq_ok_iff.1 hs).1
    · intro hd
      exact ⟨⟨name, version, flags, hd⟩, FlagSet.ofFlags_eq_ok_iff.2 ⟨hd, rfl, rfl, rfl⟩⟩
  · intro fault
    rw [FlagSet.ofFlags_eq_error_iff]
    constructor
    · rintro ⟨f, hf, rfl⟩
      obtain ⟨before, after, hflags, hbefore, hshared⟩ := FlagSet.firstRepeat?_eq_some_iff.1 hf
      obtain ⟨e, he, hkey⟩ := hshared.resolve_left (by simp)
      exact ⟨before, f, after, hflags,
        FlagSet.nodup_settingKeys_iff.1 (FlagSet.firstRepeat?_eq_none.1 hbefore).1,
        ⟨e, he, Flag.sharesKey_iff.2 hkey⟩, rfl⟩
    · rintro ⟨before, f, after, hflags, hbefore, ⟨e, he, hkey⟩, rfl⟩
      have hnone : FlagSet.firstRepeat? [] before = none :=
        FlagSet.firstRepeat?_eq_none.2 ⟨FlagSet.nodup_settingKeys_iff.2 hbefore, by simp⟩
      exact ⟨f, FlagSet.firstRepeat?_eq_some_iff.2
        ⟨before, after, hflags, hnone, .inr ⟨e, he, Flag.sharesKey_iff.1 hkey⟩⟩, rfl⟩
  · intro s hs
    obtain ⟨-, hname, hversion, hflags⟩ := FlagSet.ofFlags_eq_ok_iff.1 hs
    exact ⟨hname, hversion, hflags, fun f hf => s.find?_spelling (hflags ▸ hf)⟩

/-- A flag that differs from another one in its dashes, its capitals and a cut before a digit has
the key of that flag, and is not admitted beside it. -/
theorem digits_hide_cuts :
    spellingKey "--es-2015_Modules" = spellingKey "ES2015-modules" ∧
      humps (spellingKey (dashed "--" ["use", "js2", "modules"])) =
        ["use".toList, "js2".toList, "modules".toList] ∧
      FlagSet.ofFlags "decaffeinate" "7"
          [⟨"--es2015", .toggle, none, "", none, none⟩, ⟨"--literate", .toggle, none, "", none, none⟩,
            ⟨"--ES-2015", .integer, none, "", none, none⟩] =
        .error (.repeatedFlag "decaffeinate" "--ES-2015") := by
  obtain ⟨hkeys, hdashed, -, hrefused, -⟩ := shared_keys "decaffeinate" "7"
    [⟨"--es2015", .toggle, none, "", none, none⟩, ⟨"--literate", .toggle, none, "", none, none⟩,
      ⟨"--ES-2015", .integer, none, "", none, none⟩]
  have hwords : ∀ w ∈ ["use", "js2", "modules"], IsFlagWord w := by
    simp only [List.forall_mem_cons]
    exact ⟨⟨'u', ['s', 'e'], rfl, rfl, by simp⟩, ⟨'j', ['s', '2'], rfl, rfl, by simp⟩,
      ⟨'m', ['o', 'd', 'u', 'l', 'e', 's'], rfl, rfl, by simp⟩, by simp⟩
  refine ⟨(hkeys _ _).2 (by decide +kernel), (hdashed "--" _ (by simp [isWordChar]) hwords).1,
    (hrefused _).2 ⟨[_, _], _, [], rfl, by decide +kernel, ⟨_, List.mem_cons_self, by decide +kernel⟩,
      rfl⟩⟩

end CjsxConversion
