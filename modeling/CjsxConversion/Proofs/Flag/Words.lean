import CjsxConversion.Proofs.Flag.Restating

/-!
# Words that are read back

The words that hand values on to a tool can be read again, from left to right, by what is declared
of the flags. A flag that takes a value is followed by it, so that a value is never taken for a
flag, even if it is spelled like one.

It rests on three facts: no two flags are spelled the same, a value is handed on exactly if its
flag takes one, and no toggle is false.

Main results:
* `FlagSet.readBack_wordsOf`: the words of one value are read as this value.
* `FlagValue.HasForm.eq_of_render_eq`: a flag's values are known by how they are written.
* `FlagSet.words_read_back`: the words of resolved flags are read back, and are the words of no
  other resolved flags of the set.
-/

namespace CjsxConversion

namespace FlagSet

/-- Reads words by the flags of a set. Each flag comes with the text that follows it, if it takes a
value, whatever this text is. A toggle is true by being there. -/
def readBack (s : FlagSet) : List String → Option (List (Flag × String))
  | [] => some []
  | word :: rest =>
    match s.find? word with
    | none => none
    | some f =>
      if f.takesValue then
        match rest with
        | [] => none
        | text :: rest => (s.readBack rest).map fun told => (f, text) :: told
      else (s.readBack rest).map fun told => (f, (FlagValue.bool true).render) :: told

end FlagSet

theorem Integer.render_injective : Function.Injective Integer.render := by
  intro m n h
  have hread := Integer.parse?_render m
  rw [h, Integer.parse?_render] at hread
  exact (Option.some.inj hread).symm

/-- A flag's values are known by how they are written. -/
theorem FlagValue.HasForm.eq_of_render_eq {k : FlagKind} {v w : FlagValue} (hv : v.HasForm k)
    (hw : w.HasForm k) (hvtrue : v ≠ .bool false) (hwtrue : w ≠ .bool false)
    (h : v.render = w.render) : v = w := by
  cases hv with
  | toggle b =>
    cases hw with
    | toggle c =>
      have hb : b = true := by simpa using hvtrue
      have hc : c = true := by simpa using hwtrue
      rw [hb, hc]
  | integer m =>
    cases hw with
    | integer n => rw [Integer.render_injective h]
  | choice words t =>
    cases hw with
    | choice words t' => exact congrArg FlagValue.text h
  | text t =>
    cases hw with
    | text t' => exact congrArg FlagValue.text h

namespace FlagSet

section Reading

variable {s : FlagSet} {f : Flag}

theorem readBack_toggle (hf : f ∈ s.flags) (harity : f.takesValue = false) (rest : List String) :
    s.readBack (f.spelling :: rest) =
      (s.readBack rest).map fun told => (f, (FlagValue.bool true).render) :: told := by
  rw [readBack, s.find?_spelling hf]
  simp [harity]

theorem readBack_valued (hf : f ∈ s.flags) (harity : f.takesValue = true) (text : String)
    (rest : List String) :
    s.readBack (f.spelling :: text :: rest) =
      (s.readBack rest).map fun told => (f, text) :: told := by
  rw [readBack, s.find?_spelling hf]
  simp [harity]

/-- The words of one value are read as this value, whatever comes after them. -/
theorem readBack_wordsOf (hf : f ∈ s.flags) {v : FlagValue} (hform : v.HasForm f.kind)
    (hfalse : v ≠ .bool false) (rest : List String) :
    s.readBack (ResolvedFlags.wordsOf f.spelling v ++ rest) =
      (s.readBack rest).map fun told => (f, v.render) :: told := by
  have harity := Flag.takesValue_of_hasForm hform
  cases v with
  | bool b =>
    cases b with
    | false => exact absurd rfl hfalse
    | true => exact readBack_toggle hf (by simpa using harity) rest
  | int n => exact readBack_valued hf (harity.2 (by simp)) _ rest
  | text t => exact readBack_valued hf (harity.2 (by simp)) _ rest

theorem readBack_flatMap {row : List (Flag × FlagValue)}
    (h : ∀ p ∈ row, p.1 ∈ s.flags ∧ p.2.HasForm p.1.kind ∧ p.2 ≠ .bool false) :
    s.readBack (row.flatMap fun p => ResolvedFlags.wordsOf p.1.spelling p.2) =
      some (row.map fun p => (p.1, p.2.render)) := by
  induction row with
  | nil => rfl
  | cons p row ih =>
    obtain ⟨hf, hform, hfalse⟩ := h p (by simp)
    rw [List.flatMap_cons, readBack_wordsOf hf hform hfalse, ih fun q hq => h q (by simp [hq])]
    rfl

end Reading

section Resolved

variable {s : FlagSet} {settings other : Settings} {r r' : ResolvedFlags}

/-- What is chosen has the form of its kind, and no toggle is false. -/
theorem hasForm_of_mem_chosen (h : s.resolve settings = .ok r) {p : Flag × FlagValue}
    (hp : p ∈ s.chosen settings) :
    p.1 ∈ s.flags ∧ p.2.HasForm p.1.kind ∧ p.2 ≠ .bool false := by
  obtain ⟨hf, hmeans⟩ := means_of_mem_chosen h hp
  exact ⟨hf, hmeans.hasForm, fun hv => hmeans.ne_false (by rw [hv])⟩

theorem readBack_words (h : s.resolve settings = .ok r) :
    s.readBack r.words = some ((s.chosen settings).map fun p => (p.1, p.2.render)) := by
  have hwords : r.words =
      (s.chosen settings).flatMap fun p => ResolvedFlags.wordsOf p.1.spelling p.2 := by
    rw [ResolvedFlags.words, given_of_resolve h, List.flatMap_map]
    rfl
  rw [hwords]
  exact readBack_flatMap fun p hp => hasForm_of_mem_chosen h hp

/-- What is written the same has been chosen the same. -/
theorem mem_chosen_of_render_eq (h : s.resolve settings = .ok r) (h' : s.resolve other = .ok r')
    (heq : ((s.chosen settings).map fun p => (p.1, p.2.render)) =
      (s.chosen other).map fun p => (p.1, p.2.render))
    {p : Flag × FlagValue} (hp : p ∈ s.chosen settings) : p ∈ s.chosen other := by
  have hwritten := List.mem_map_of_mem (f := fun p => (p.1, p.2.render)) hp
  rw [heq] at hwritten
  obtain ⟨q, hq, hqp⟩ := List.mem_map.1 hwritten
  obtain ⟨hflag, hrender⟩ := Prod.mk.inj hqp
  obtain ⟨-, hform, hfalse⟩ := hasForm_of_mem_chosen h hp
  obtain ⟨-, hform', hfalse'⟩ := hasForm_of_mem_chosen h' hq
  rw [hflag] at hform'
  have hvalue := hform'.eq_of_render_eq hform hfalse' hfalse hrender
  obtain rfl : q = p := Prod.ext hflag hvalue
  exact hq

theorem eq_of_words_eq (h : s.resolve settings = .ok r) (h' : s.resolve other = .ok r')
    (heq : r'.words = r.words) : r' = r := by
  have hread := readBack_words h
  rw [← heq, readBack_words h'] at hread
  have hwritten := Option.some.inj hread
  rw [eq_entriesAfter_of_resolve h, eq_entriesAfter_of_resolve h']
  have hentries : s.entriesAfter other s.flags = s.entriesAfter settings s.flags := by
    refine List.map_congr_left fun f hf => ?_
    have hvalue : s.valueAfter other s.flags f = s.valueAfter settings s.flags f := by
      refine Option.ext fun v => ⟨fun hv => ?_, fun hv => ?_⟩
      · have hmem := mem_chosen_of_render_eq h' h hwritten (mem_chosen_iff.2 ⟨hf, hv⟩)
        exact (mem_chosen_iff.1 hmem).2
      · have hmem := mem_chosen_of_render_eq h h' hwritten.symm (mem_chosen_iff.2 ⟨hf, hv⟩)
        exact (mem_chosen_iff.1 hmem).2
    rw [entryOf, entryOf, hvalue]
  rw [hentries]

/-- The words of resolved flags are read back. All of them are read, as the flags that have a
value, in the order in which they are declared and each once, with their values as they are
written. So no other resolved flags of the set have the same words. -/
theorem words_read_back (s : FlagSet) (settings : Settings) (r : ResolvedFlags)
    (h : s.resolve settings = .ok r) :
    (∃ told, s.readBack r.words = some told ∧ (told.map Prod.fst).Sublist s.flags ∧
      told.map (fun p => (p.1.spelling, p.1.ownKey.getD p.1.settingKey, p.2)) =
        r.given.map fun p => (p.1.spelling, p.1.key, p.2.render)) ∧
    ∀ other r', s.resolve other = .ok r' → r'.words = r.words → r' = r := by
  refine ⟨⟨_, readBack_words h, ?_, ?_⟩, fun other r' h' => eq_of_words_eq h h'⟩
  · rw [List.map_map]
    exact s.chosen_sublist settings
  · rw [given_of_resolve h, List.map_map, List.map_map]
    rfl

/-- A flag that takes any text, a toggle, and an integer. -/
def lookalikes : FlagSet where
  name := "demo"
  version := "1"
  flags := [{ spelling := "--title", kind := .text }, { spelling := "--wide", kind := .toggle },
    { spelling := "--depth", kind := .integer }]
  distinct := by decide

/-- A title that is spelled like a toggle is read as a title. -/
theorem lookalike_read_back :
    ∃ r, lookalikes.resolve (.ofList [("depth", .text " +7"), ("title", .text "--wide"),
        ("wide", .text "true")]) = .ok r ∧
      r.words = ["--title", "--wide", "--wide", "--depth", "7"] ∧
      (∃ told, lookalikes.readBack r.words = some told ∧
        told.map (fun p => (p.1.spelling, p.1.ownKey.getD p.1.settingKey, p.2)) =
          [("--title", "title", "--wide"), ("--wide", "wide", "true"),
            ("--depth", "depth", "7")]) ∧
      ∀ r', lookalikes.resolve (.ofList [("depth", .int 7), ("title", .text "--wide"),
        ("wide", .bool true)]) = .ok r' → r'.words = r.words → r' = r := by
  obtain ⟨r, hr, hwords, hgiven⟩ :
      ∃ r, lookalikes.resolve (.ofList [("depth", .text " +7"), ("title", .text "--wide"),
          ("wide", .text "true")]) = .ok r ∧
        r.words = ["--title", "--wide", "--wide", "--depth", "7"] ∧
        (r.given.map fun p => (p.1.spelling, p.1.key, p.2.render)) =
          [("--title", "title", "--wide"), ("--wide", "wide", "true"),
            ("--depth", "depth", "7")] := by
    decide +kernel
  obtain ⟨⟨told, hread, -, htold⟩, hunique⟩ := words_read_back lookalikes _ r hr
  exact ⟨r, hr, hwords, ⟨told, hread, htold.trans hgiven⟩, hunique _⟩

end Resolved
end FlagSet
end CjsxConversion
