import CjsxConversion.Proofs.Text.Encoding
import CjsxConversion.Text.Narrow

/-!
# Splitting a text as a shell does

A shell splits a text into words before it does anything else with it, and takes quotes away. Here
this is said for texts that are nothing but words: whatever a shell would replace, whatever would
join commands or redirect them, and whatever it need not take for itself, is an obstacle.

Outside of quotes, blanks separate words and a backslash makes the next character stand
for itself. Between single quotes every character stands for itself. Between double quotes a
backslash does so before a dollar, a backquote, a double quote and a backslash, and stands for
itself before anything else. A backslash and the end of a line behind it vanish.

Main results:
* `split_narrow`: a text may as well be split octet by octet.
-/

namespace CjsxConversion

/-- Why a text is more than words to a shell. -/
inductive ShellObstacle where
  | expansion (c : Char)
  | operator (c : Char)
  | special (c : Char)
  | unfinished
  deriving DecidableEq, Repr

/-- How a shell takes the next character. -/
inductive QuoteMode where
  | bare
  | escaped
  | single
  | double
  | doubleEscaped
  deriving DecidableEq, Repr

namespace QuoteMode

/-- How characters are taken behind one that a backslash does not matter to. -/
def settled : QuoteMode → QuoteMode
  | .bare | .escaped => .bare
  | .single => .single
  | .double | .doubleEscaped => .double

/-- The backslash that stands for itself before a character that it does not matter to. -/
def kept : QuoteMode → List Char
  | .doubleEscaped => ['\\']
  | _ => []

end QuoteMode

/-- A text that is being split. -/
structure Splitting where
  complete : List (List Char) := []
  word : Option (List Char) := none
  mode : QuoteMode := .bare
  deriving DecidableEq, Repr

namespace Splitting

/-- Characters that separate words. -/
def blanks : List Char := [' ', '\t']

/-- Characters with which something begins that is replaced. -/
def expanding : List Char := ['$', '`']

/-- Characters that separate commands or redirect them. -/
def operating : List Char := ['|', '&', ';', '<', '>', '(', ')', '\n']

/-- Characters that stand for patterns, comments, home directories, assignments and the like in
some places. A closing bracket and a dash do so only behind an opening bracket. -/
def ambiguous : List Char := ['*', '?', '[', '^', '!', '#', '~', '=', '%', '{', ',', '}']

/-- Characters that a backslash between double quotes makes stand for themselves. -/
def escapable : List Char := ['$', '`', '"', '\\']

/-- Nothing has been read. -/
def start : Splitting := {}

/-- A word begins, unless one has begun. -/
def begin (s : Splitting) : Splitting := { s with word := some (s.word.getD []) }

/-- A character goes to the present word. -/
def take (s : Splitting) (c : Char) : Splitting :=
  { s with word := some (s.word.getD [] ++ [c]) }

/-- The present word is complete, if one has begun. -/
def endWord (s : Splitting) : Splitting :=
  { s with complete := s.complete ++ s.word.toList, word := none }

/-- Reads a character outside of quotes. -/
def stepBare (s : Splitting) (c : Char) : Except ShellObstacle Splitting :=
  if blanks.contains c then .ok s.endWord
  else if c = '\\' then .ok { s with mode := .escaped }
  else if c = '\x27' then .ok { s.begin with mode := .single }
  else if c = '"' then .ok { s.begin with mode := .double }
  else if expanding.contains c then .error (.expansion c)
  else if operating.contains c then .error (.operator c)
  else if ambiguous.contains c then .error (.special c)
  else .ok (s.take c)

/-- Reads a character between double quotes. -/
def stepDouble (s : Splitting) (c : Char) : Except ShellObstacle Splitting :=
  if c = '"' then .ok { s with mode := .bare }
  else if c = '\\' then .ok { s with mode := .doubleEscaped }
  else if expanding.contains c then .error (.expansion c)
  else .ok (s.take c)

/-- Reads a character. -/
def step (s : Splitting) (c : Char) : Except ShellObstacle Splitting :=
  match s.mode with
  | .bare => s.stepBare c
  | .escaped => .ok { (if c = '\n' then s else s.take c) with mode := .bare }
  | .single => .ok (if c = '\x27' then { s with mode := .bare } else s.take c)
  | .double => s.stepDouble c
  | .doubleEscaped =>
    .ok { (if c = '\n' then s
      else if escapable.contains c then s.take c
      else (s.take '\\').take c) with mode := .double }

/-- Reads characters. -/
def run (s : Splitting) (cs : List Char) : Except ShellObstacle Splitting :=
  cs.foldlM step s

/-- The words, at the end of the text. -/
def finish (s : Splitting) : Except ShellObstacle (List (List Char)) :=
  if s.mode = .bare then .ok s.endWord.complete else .error .unfinished

/-- The words of a text that is nothing but words. -/
def split (cs : List Char) : Except ShellObstacle (List (List Char)) :=
  (start.run cs).bind finish

@[simp] theorem run_nil (s : Splitting) : s.run [] = .ok s := rfl

theorem run_cons (s : Splitting) (c : Char) (cs : List Char) :
    s.run (c :: cs) = (s.step c).bind fun s => s.run cs := rfl

/-- A text may be read in two parts. -/
theorem run_append (s : Splitting) (cs ds : List Char) :
    s.run (cs ++ ds) = (s.run cs).bind fun s => s.run ds := by
  unfold run
  rw [List.foldlM_append]
  rfl

/-! ### Octets -/

/-- The octets of a character. -/
def octets (c : Char) : Narrow := Narrow.ofOctets (String.utf8EncodeChar c)

/-- A text octet by octet. -/
def narrow (cs : List Char) : Narrow := cs.flatMap octets

/-- What is being read, octet by octet. -/
def narrowed (s : Splitting) : Splitting :=
  ⟨s.complete.map narrow, s.word.map narrow, s.mode⟩

theorem ofString_eq_narrow (s : String) : Narrow.ofString s = narrow s.toList := by
  rw [Narrow.ofString, Utf8.encode_eq_flatMap, Narrow.ofOctets, narrow, List.map_flatMap]
  rfl

/-- An ASCII character is its own octet. -/
theorem octets_of_ascii {c : Char} (h : c.toNat < 128) : octets c = [c] := by
  have hbyte : (UInt8.ofNat c.toNat).toNat = c.toNat := by
    rw [UInt8.toNat_ofNat']
    exact Nat.mod_eq_of_lt (by omega)
  simp only [octets, Utf8.encodeChar_of_ascii h, Narrow.ofOctets, List.map_cons, List.map_nil,
    hbyte, Char.ofNat_toNat]

/-- The octets of any other character are no ASCII characters. -/
theorem octets_of_wide {c : Char} (h : 128 ≤ c.toNat) :
    octets c ≠ [] ∧ ∀ d ∈ octets c, 128 ≤ d.toNat := by
  obtain ⟨hne, hwide⟩ := Utf8.encodeChar_of_wide h
  refine ⟨fun hnil => hne (List.map_eq_nil_iff.1 hnil), fun d hd => ?_⟩
  obtain ⟨b, hb, rfl⟩ := List.mem_map.1 hd
  rw [Narrow.toNat_ofNat_of_lt _ (UInt8.toNat_lt _)]
  exact hwide b hb

theorem not_mem_of_wide {l : List Char} (hl : l.all (fun x => x.toNat < 128) = true) {c : Char}
    (h : 128 ≤ c.toNat) : c ∉ l := by
  intro hc
  have hascii : c.toNat < 128 := by simpa using List.all_eq_true.1 hl c hc
  omega

/-- What is no ASCII character is taken as it is, wherever it stands. -/
theorem step_of_wide (s : Splitting) {c : Char} (h : 128 ≤ c.toNat) :
    s.step c =
      .ok ⟨s.complete, some (s.word.getD [] ++ s.mode.kept ++ [c]), s.mode.settled⟩ := by
  have hblank : c ∉ blanks := not_mem_of_wide (by decide) h
  have hexpand : c ∉ expanding := not_mem_of_wide (by decide) h
  have hoperate : c ∉ operating := not_mem_of_wide (by decide) h
  have hambiguous : c ∉ ambiguous := not_mem_of_wide (by decide) h
  have hescape : c ∉ escapable := not_mem_of_wide (by decide) h
  have hquotes : c ∉ ['\\', '\x27', '"', '\n'] := not_mem_of_wide (by decide) h
  simp only [List.mem_cons, List.not_mem_nil, or_false, not_or] at hquotes
  obtain ⟨hbackslash, hsingle, hdouble, hline⟩ := hquotes
  cases hm : s.mode <;>
    simp [step, stepBare, stepDouble, take, QuoteMode.kept, QuoteMode.settled, hm, hblank,
      hexpand, hoperate, hambiguous, hescape, hbackslash, hsingle, hdouble, hline]

/-- Characters that are no ASCII characters are taken as they are into a word that has begun. -/
theorem run_of_wide {cs : List Char} (h : ∀ c ∈ cs, 128 ≤ c.toNat) (complete : List (List Char))
    (word : List Char) {mode : QuoteMode} (hmode : mode.settled = mode) :
    run ⟨complete, some word, mode⟩ cs = .ok ⟨complete, some (word ++ cs), mode⟩ := by
  have hkept : mode.kept = [] := by cases mode <;> simp_all [QuoteMode.settled, QuoteMode.kept]
  induction cs generalizing word with
  | nil => simp
  | cons c cs ih =>
    have hrest := ih (fun d hd => h d (by simp [hd])) (word ++ [c])
    rw [run_cons, step_of_wide _ (h c (by simp))]
    simp only [hkept, hmode, Option.getD_some, List.append_nil, Except.bind, hrest,
      List.append_assoc, List.singleton_append]

@[simp] theorem narrow_append (cs ds : List Char) : narrow (cs ++ ds) = narrow cs ++ narrow ds :=
  List.flatMap_append

theorem narrow_singleton (c : Char) : narrow [c] = octets c := by simp [narrow]

theorem narrow_getD (word : Option (List Char)) :
    (word.map narrow).getD [] = narrow (word.getD []) := by
  cases word <;> rfl

theorem narrowed_take (s : Splitting) {c : Char} (h : c.toNat < 128) :
    (s.take c).narrowed = s.narrowed.take c := by
  simp [take, narrowed, narrow_getD, narrow_singleton, octets_of_ascii h]

theorem narrowed_endWord (s : Splitting) : s.endWord.narrowed = s.narrowed.endWord := by
  cases hw : s.word <;> simp [endWord, narrowed, hw]

theorem narrowed_begin (s : Splitting) : s.begin.narrowed = s.narrowed.begin := by
  simp [begin, narrowed, narrow_getD]

theorem stepBare_narrowed (s : Splitting) {c : Char} (h : c.toNat < 128) :
    s.narrowed.stepBare c = (s.stepBare c).map narrowed := by
  simp only [stepBare, ← narrowed_endWord, ← narrowed_begin, ← narrowed_take s h]
  split
  · rfl
  · repeat (split; · rfl)
    rfl

theorem stepDouble_narrowed (s : Splitting) {c : Char} (h : c.toNat < 128) :
    s.narrowed.stepDouble c = (s.stepDouble c).map narrowed := by
  simp only [stepDouble, ← narrowed_take s h]
  repeat (split; · rfl)
  rfl

/-- An ASCII character does octet by octet what it does anyway. -/
theorem step_of_ascii (s : Splitting) {c : Char} (h : c.toNat < 128) :
    s.narrowed.step c = (s.step c).map narrowed := by
  have hmode : s.narrowed.mode = s.mode := rfl
  have hbackslash : (s.narrowed.take '\\').take c = ((s.take '\\').take c).narrowed := by
    rw [narrowed_take _ h, narrowed_take _ (by decide)]
  unfold step
  rw [hmode]
  cases s.mode with
  | bare => exact s.stepBare_narrowed h
  | double => exact s.stepDouble_narrowed h
  | escaped =>
    simp only [← narrowed_take s h]
    split <;> rfl
  | single =>
    simp only [← narrowed_take s h]
    split <;> rfl
  | doubleEscaped =>
    simp only [← narrowed_take s h, hbackslash]
    repeat (split; · rfl)
    rfl

/-- A character does octet by octet what it does anyway. -/
theorem run_octets (s : Splitting) (c : Char) :
    s.narrowed.run (octets c) = (s.step c).map narrowed := by
  by_cases h : c.toNat < 128
  · rw [octets_of_ascii h, run_cons, step_of_ascii s h]
    cases s.step c <;> rfl
  · have hwide : 128 ≤ c.toNat := Nat.not_lt.1 h
    obtain ⟨hne, hoctets⟩ := octets_of_wide hwide
    obtain ⟨d, ds, hds⟩ := List.exists_cons_of_ne_nil hne
    rw [hds] at hoctets
    have hsettled : s.mode.settled.settled = s.mode.settled := by cases s.mode <;> rfl
    have hkept : narrow s.mode.kept = s.mode.kept := by
      cases s.mode <;> rfl
    have hrest : ∀ e ∈ ds, 128 ≤ e.toNat := fun e he => hoctets e (by simp [he])
    have hmode : s.narrowed.mode = s.mode := rfl
    rw [hds, run_cons, step_of_wide _ (hoctets d (by simp)), step_of_wide _ hwide, hmode]
    simp only [Except.bind]
    rw [run_of_wide hrest _ _ hsettled]
    simp only [Except.map, narrowed, Option.map_some, narrow_append, narrow_singleton, hds,
      narrow_getD, hkept, List.append_assoc, List.singleton_append]

theorem run_narrow (s : Splitting) (cs : List Char) :
    s.narrowed.run (narrow cs) = (s.run cs).map narrowed := by
  induction cs generalizing s with
  | nil => rfl
  | cons c cs ih =>
    have hcons : narrow (c :: cs) = octets c ++ narrow cs := rfl
    rw [hcons, run_append, run_octets, run_cons]
    cases s.step c with
    | error obstacle => rfl
    | ok next => exact ih next

/-- A text may as well be split octet by octet. -/
theorem split_narrow (cs : List Char) :
    split (narrow cs) = (split cs).map fun words => words.map narrow := by
  have hstart : start.narrowed = start := rfl
  unfold split
  rw [← hstart, run_narrow, hstart]
  cases start.run cs with
  | error obstacle => rfl
  | ok s =>
    have hmode : s.narrowed.mode = s.mode := rfl
    simp only [Except.map, Except.bind, finish, hmode, ← narrowed_endWord]
    split <;> rfl

end Splitting
end CjsxConversion
