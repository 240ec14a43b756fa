import CjsxConversion.Usage.Reading
import Mathlib.Data.List.Forall2

/-!
# Arguments made of phrases

A phrase is the words by which one parameter is given: the input by itself, a switch by its name,
and a switch by its name and a value that is no switch. Arguments made of phrases for distinct
parameters, the input among them, are read as what the phrases give, in this order.

The reading looks at a value only when the next parameter begins, or at the end. The invariant is
therefore about what would be there if it looked at the value now: `Holds`.

Main results:
* `Reading.run_phrase`: a phrase adds what it gives.
* `Reading.run_phrases`: phrases add what they give, one after the other.
* `Given.ofArguments_phrases`: arguments made of phrases are read as what these give.
-/

namespace CjsxConversion

/-- The words by which a parameter is given, and what it is given by them. -/
inductive Phrase (switches : List Switch) : List Octets → Given → Prop
  | input {text : String} (plain : Word.ofOctets (Utf8.encode text) = .plain) :
    Phrase switches [Utf8.encode text] ⟨.input, some text⟩
  | alone {word : Octets} {name : String} {s : Switch}
    (long : Word.ofOctets word = .long (Utf8.encode name) none)
    (named : Switch.named? switches name = some s)
    (informs : s.purpose ≠ .help ∧ s.purpose ≠ .version) (arity : s.takesValue = false) :
    Phrase switches [word] ⟨.switch s, none⟩
  | valued {word : Octets} {name text : String} {s : Switch}
    (long : Word.ofOctets word = .long (Utf8.encode name) none)
    (named : Switch.named? switches name = some s) (arity : s.takesValue = true)
    (plain : Word.ofOctets (Utf8.encode text) = .plain) :
    Phrase switches [word, Utf8.encode text] ⟨.switch s, some text⟩

namespace Reading

variable {switches : List Switch}

/-- What has been given, with the value that has come last but has not been looked at. -/
structure Holds (r : Reading) (gs : List Given) : Prop where
  settles : r.settle = .ok ⟨gs, none, false, r.hasInput⟩
  begun : ∀ p, r.begun ≠ some (p, none)
  divided : r.divided = false
  hasInput : r.hasInput = true ↔ .input ∈ gs.map Given.parameter

theorem holds_start : start.Holds [] where
  settles := rfl
  begun := by simp [start]
  divided := rfl
  hasInput := by simp [start]

theorem isSpent_of_not_mem {r : Reading} {p : Parameter}
    (h : p ∉ r.given.map Given.parameter) : r.isSpent p = false := by
  have hgiven : r.isGiven p = false := by
    simpa [isGiven] using h
  simp [isSpent, hgiven]

theorem record_text {r : Reading} {p : Parameter} (hp : p.takesValue = true)
    (h : p ∉ r.given.map Given.parameter) (text : String) :
    r.record p (some (Utf8.encode text)) = .ok (r.add p (some text)) := by
  simp [record, hp, isSpent_of_not_mem h, Utf8.decode?_encode]

theorem record_none {r : Reading} {p : Parameter} (hp : p.takesValue = false)
    (h : p ∉ r.given.map Given.parameter) : r.record p none = .ok (r.add p none) := by
  simp [record, hp, isSpent_of_not_mem h]

/-- A value that has not been looked at counts as given. -/
theorem holds_of_begun {gs : List Given} {p : Parameter} (hp : p.takesValue = true)
    (hnew : p ∉ gs.map Given.parameter) (text : String) {hasInput : Bool}
    (h : hasInput = true ↔ .input ∈ gs.map Given.parameter ∨ .input = p) :
    Holds ⟨gs, some (p, some (Utf8.encode text)), false, hasInput⟩ (gs ++ [⟨p, some text⟩]) where
  settles := record_text (r := ⟨gs, none, false, hasInput⟩) hp hnew text
  begun := by simp
  divided := rfl
  hasInput := by simpa using h

/-- That the input has come does not matter to what else has. -/
def inputCome (r : Reading) : Reading := { r with hasInput := true }

theorem settle_inputCome (r : Reading) : r.inputCome.settle = r.settle.map inputCome := by
  have hbegun : r.inputCome.begun = r.begun := rfl
  unfold settle
  rw [hbegun]
  cases r.begun with
  | none => rfl
  | some b =>
    obtain ⟨p, value⟩ := b
    have hspent : ({ r.inputCome with begun := none } : Reading).isSpent p =
        ({ r with begun := none } : Reading).isSpent p := rfl
    simp only [record, hspent]
    split
    · rfl
    · split
      · rfl
      · split <;> rfl
    · split <;> rfl

theorem run_singleton {r q : Reading} {word : Octets} (h : r.step switches word = .ok q) :
    r.run switches [word] = .ok q := by
  simp [run, h]

theorem Holds.step_input {r : Reading} {gs : List Given} (h : r.Holds gs)
    (hnew : .input ∉ gs.map Given.parameter) {text : String}
    (hplain : Word.ofOctets (Utf8.encode text) = .plain) :
    r.step switches (Utf8.encode text) =
      .ok ⟨gs, some (.input, some (Utf8.encode text)), false, true⟩ := by
  have hinput : r.hasInput = false := by
    simpa [hnew] using h.hasInput
  -- The switch that began last, if any, has its value already.
  have hlate : r.plain (Utf8.encode text) = r.input (Utf8.encode text) := by
    cases hb : r.begun with
    | none => simp [plain, hb]
    | some b =>
      obtain ⟨p, value⟩ := b
      cases value with
      | none => exact absurd hb (h.begun p)
      | some v => simp [plain, hb]
  have hsettle : r.inputCome.settle = .ok ⟨gs, none, false, true⟩ := by
    rw [settle_inputCome, h.settles]
    rfl
  have hbegin : r.inputCome.beginWith .input (some (Utf8.encode text)) =
      .ok ⟨gs, some (.input, some (Utf8.encode text)), false, true⟩ := by
    rw [beginWith, hsettle]
    rfl
  have hread : r.input (Utf8.encode text) =
      r.inputCome.beginWith .input (some (Utf8.encode text)) := by
    rw [input, hinput]
    rfl
  simp [step, h.divided, hplain, hlate, hread, hbegin]

theorem Holds.step_alone {r : Reading} {gs : List Given} (h : r.Holds gs) {word : Octets}
    {name : String} {s : Switch} (hlong : Word.ofOctets word = .long (Utf8.encode name) none)
    (hnamed : Switch.named? switches name = some s)
    (hinforms : s.purpose ≠ .help ∧ s.purpose ≠ .version) (harity : s.takesValue = false)
    (hnew : .switch s ∉ gs.map Given.parameter) :
    r.step switches word = .ok ⟨gs ++ [⟨.switch s, none⟩], none, false, r.hasInput⟩ := by
  have hgive : r.give s none = .ok ⟨gs ++ [⟨.switch s, none⟩], none, false, r.hasInput⟩ := by
    have hrecord := record_none (r := ⟨gs, none, false, r.hasInput⟩) (p := .switch s) harity hnew
    rw [give, h.settles]
    simp only [Except.bind]
    split
    · next hp => exact absurd hp hinforms.1
    · next hp => exact absurd hp hinforms.2
    · exact hrecord
  simp [step, h.divided, hlong, long, Utf8.decode?_encode, hnamed, harity, hgive]

theorem Holds.run_valued {r : Reading} {gs : List Given} (h : r.Holds gs) {word : Octets}
    {name text : String} {s : Switch}
    (hlong : Word.ofOctets word = .long (Utf8.encode name) none)
    (hnamed : Switch.named? switches name = some s) (harity : s.takesValue = true)
    (hplain : Word.ofOctets (Utf8.encode text) = .plain) :
    r.run switches [word, Utf8.encode text] =
      .ok ⟨gs, some (.switch s, some (Utf8.encode text)), false, r.hasInput⟩ := by
  have hbegin : r.step switches word = .ok ⟨gs, some (.switch s, none), false, r.hasInput⟩ := by
    have hwith : r.beginWith (.switch s) none =
        .ok ⟨gs, some (.switch s, none), false, r.hasInput⟩ := by
      rw [beginWith, h.settles]
      rfl
    simp [step, h.divided, hlong, long, Utf8.decode?_encode, hnamed, harity, hwith]
  have hvalue (hasInput : Bool) :
      step switches ⟨gs, some (.switch s, none), false, hasInput⟩ (Utf8.encode text) =
        .ok ⟨gs, some (.switch s, some (Utf8.encode text)), false, hasInput⟩ := by
    simp [step, hplain, plain]
  simp [run, hbegin, hvalue]

/-- A phrase adds what it gives, if it is for a parameter that has not been given yet. -/
theorem run_phrase {words : List Octets} {g : Given} (hg : Phrase switches words g)
    {r : Reading} {gs : List Given} (h : r.Holds gs)
    (hnew : g.parameter ∉ gs.map Given.parameter) :
    ∃ q : Reading, r.run switches words = .ok q ∧ q.Holds (gs ++ [g]) := by
  cases hg with
  | input plain =>
    refine ⟨_, run_singleton (h.step_input hnew plain), ?_⟩
    exact holds_of_begun rfl hnew _ (by simp)
  | alone long named informs arity =>
    refine ⟨_, run_singleton (h.step_alone long named informs arity hnew), ?_⟩
    exact ⟨rfl, by simp, rfl, by simpa using h.hasInput⟩
  | @valued word name text s long named arity plain =>
    refine ⟨_, h.run_valued long named arity plain, ?_⟩
    exact holds_of_begun (p := .switch s) arity hnew _ (by simpa using h.hasInput)

/-- Phrases for distinct parameters add what they give, one after the other. -/
theorem run_phrases {groups : List (List Octets)} {more : List Given}
    (h : List.Forall₂ (Phrase switches) groups more) {r : Reading} {gs : List Given}
    (hr : r.Holds gs) (hnew : ((gs ++ more).map Given.parameter).Nodup) :
    ∃ q : Reading, r.run switches groups.flatten = .ok q ∧ q.Holds (gs ++ more) := by
  induction h generalizing r gs with
  | nil => exact ⟨r, rfl, by simpa using hr⟩
  | @cons words g groups more hwords hmore ih =>
    have hg : g.parameter ∉ gs.map Given.parameter := by
      intro hmem
      rw [List.map_append, List.map_cons] at hnew
      exact (List.nodup_append.1 hnew).2.2 _ hmem _ List.mem_cons_self rfl
    obtain ⟨q, hq, hholds⟩ := run_phrase hwords hr hg
    obtain ⟨q', hq', hholds'⟩ := ih hholds (by simpa using hnew)
    refine ⟨q', ?_, by simpa using hholds'⟩
    rw [List.flatten_cons, run_append, hq]
    exact hq'

theorem Holds.finish_eq {r : Reading} {gs : List Given} (h : r.Holds gs)
    (hinput : .input ∈ gs.map Given.parameter) : r.finish = .ok gs := by
  simp [finish, h.settles, h.hasInput.2 hinput]

end Reading

/-- Arguments made of phrases are read as what these give, if they are for distinct parameters
and one of them is the input. -/
theorem Given.ofArguments_phrases {c : Catalog} {groups : List (List Octets)} {gs : List Given}
    (h : List.Forall₂ (Phrase (Switch.all c)) groups gs)
    (hdistinct : (gs.map Given.parameter).Nodup) (hinput : .input ∈ gs.map Given.parameter) :
    Given.ofArguments c groups.flatten = .ok gs := by
  obtain ⟨q, hq, hholds⟩ := Reading.run_phrases h Reading.holds_start hdistinct
  rw [Given.ofArguments, hq]
  exact hholds.finish_eq hinput

end CjsxConversion
