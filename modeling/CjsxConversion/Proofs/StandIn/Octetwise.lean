import CjsxConversion.Proofs.StandIn.Expanding
import CjsxConversion.Proofs.Text.Boundaries

/-!
# Macros expanded octet by octet

The same expansion can be done on the octets of a text: brackets and ends are looked for among
octets, the text is cut at the offsets that are found, and the offset of a fault is that of what is
left plus how far the bracket is into it. Cutting inside a character is refused, so an answer means
that it never happens.

A text consists of what reaches up to its last end of an element and of a tail without
such an end. An element without its end is one that begins in the tail.

Main results:
* `expandOctets_ofChars`: both expansions agree, and no text is cut inside a character.
* `macroStrip_faults`: when and where an element without its end is found.
-/

namespace CjsxConversion
namespace StandIn

/-- What one turn of the loop over octets comes to. -/
inductive Turn where
  | finished
  | broken (offset : Nat)
  | went (written rest : Octets)

/-- One turn, with what is left of so many octets; nothing if it cuts inside a character. -/
def turn? (total : Nat) (left : Octets) : Option Turn :=
  match Utf8.find? (Utf8.ofChars ['<']) left with
  | none => some .finished
  | some start => do
    let before ← Utf8.upTo? left start
    let after ← Utf8.from? left (start + 1)
    match Utf8.find? (Utf8.ofChars closing) after with
    | none => return .broken (total - left.length + start)
    | some stop =>
      let inner ← Utf8.upTo? after stop
      let rest ← Utf8.from? after (stop + 2)
      let element ← Utf8.decode? inner
      return .went (before ++ Utf8.ofChars (call element.toList)) rest

theorem length_lt_of_turn? {total : Nat} {left written rest : Octets}
    (h : turn? total left = some (.went written rest)) : rest.length < left.length := by
  unfold turn? at h
  split at h
  · cases h
  · next start _ =>
    simp only [Option.bind_eq_bind, Option.bind_eq_some_iff] at h
    obtain ⟨before, -, after, hafter, h⟩ := h
    have hle := Utf8.length_of_from? hafter
    split at h
    · cases h
    · simp only [Option.bind_eq_some_iff] at h
      obtain ⟨inner, -, rest', hrest, element, -, h⟩ := h
      cases h
      have hrest' := Utf8.length_of_from? hrest
      omega

/-- Expands macros octet by octet, given how many octets there were and those that are left. -/
def expandOctets (total : Nat) (left : Octets) : Option (Except String Octets) :=
  match _h : turn? total left with
  | none => none
  | some .finished => some (.ok left)
  | some (.broken offset) => some (.error (unterminated offset))
  | some (.went written rest) => (expandOctets total rest).map (Except.map (written ++ ·))
termination_by left.length
decreasing_by exact length_lt_of_turn? _h

/-! ### Agreement with characters -/

variable {before inner after cs : List Char}

theorem octets_eq_length (cs : List Char) : octets cs = (Utf8.ofChars cs).length := by
  induction cs with
  | nil => rfl
  | cons c cs ih =>
    rw [octets_cons, Utf8.ofChars_cons, List.length_append, String.length_utf8EncodeChar, ih]

theorem find?_opening (cs : List Char) :
    Utf8.find? (Utf8.ofChars ['<']) (Utf8.ofChars cs) =
      (Search.cut? ['<'] cs).map fun q => (Utf8.ofChars q.1).length :=
  Utf8.find?_ofChars (by decide) (by simp) cs

theorem find?_closing (cs : List Char) :
    Utf8.find? (Utf8.ofChars closing) (Utf8.ofChars cs) =
      (Search.cut? closing cs).map fun q => (Utf8.ofChars q.1).length :=
  Utf8.find?_ofChars (by decide) (by simp [closing]) cs

theorem length_ofChars_opening (before : List Char) :
    (Utf8.ofChars before).length + 1 = (Utf8.ofChars (before ++ ['<'])).length := by
  rw [Utf8.ofChars_append, List.length_append]
  rfl

theorem length_ofChars_closing (inner : List Char) :
    (Utf8.ofChars inner).length + 2 = (Utf8.ofChars (inner ++ closing)).length := by
  rw [Utf8.ofChars_append, List.length_append]
  rfl

theorem turn?_finished (h : '<' ∉ cs) (total : Nat) :
    turn? total (Utf8.ofChars cs) = some .finished := by
  have hin : ¬ ['<'] <:+: cs := fun hin => h (hin.subset List.mem_cons_self)
  rw [turn?, find?_opening, Search.cut?_eq_none_iff.2 hin]
  rfl

theorem turn?_broken (hbefore : '<' ∉ before) (hafter : ¬ closing <:+: after) (n : Nat) :
    turn? (n + (Utf8.ofChars (before ++ '<' :: after)).length)
        (Utf8.ofChars (before ++ '<' :: after)) = some (.broken (n + octets before)) := by
  have hfrom := Utf8.from?_ofChars (before ++ ['<']) after
  rw [List.append_assoc, List.singleton_append, ← length_ofChars_opening] at hfrom
  rw [turn?, find?_opening, Search.cut?_singleton hbefore]
  simp only [Option.map_some, Utf8.upTo?_ofChars, hfrom, find?_closing,
    Search.cut?_eq_none_iff.2 hafter, Option.map_none, Option.bind_eq_bind, Option.bind_some,
    Nat.add_sub_cancel, octets_eq_length]
  rfl

theorem turn?_went (hbefore : '<' ∉ before) (hinner : ¬ closing <:+: inner) (total : Nat)
    (rest : List Char) :
    turn? total (Utf8.ofChars (before ++ '<' :: (inner ++ (closing ++ rest)))) =
      some (.went (Utf8.ofChars (before ++ call inner)) (Utf8.ofChars rest)) := by
  have hfrom := Utf8.from?_ofChars (before ++ ['<']) (inner ++ (closing ++ rest))
  rw [List.append_assoc, List.singleton_append, ← length_ofChars_opening] at hfrom
  have hrest := Utf8.from?_ofChars (inner ++ closing) rest
  rw [List.append_assoc, ← length_ofChars_closing] at hrest
  have hcut : Search.cut? closing (inner ++ (closing ++ rest)) = some (inner, rest) :=
    Search.cut?_of_first (by decide) hinner rest
  rw [turn?, find?_opening, Search.cut?_singleton hbefore, Utf8.ofChars_append before (call inner)]
  simp only [Option.map_some, Utf8.upTo?_ofChars, hfrom, find?_closing, hcut, hrest,
    Option.bind_eq_bind, Option.bind_some, Utf8.decode?_ofChars, String.toList_ofList]
  rfl

/-- Both expansions agree, and no text is cut inside a character. -/
theorem expandOctets_ofChars (n : Nat) (cs : List Char) :
    expandOctets (n + (Utf8.ofChars cs).length) (Utf8.ofChars cs) =
      some ((expandFrom n none cs).map Utf8.ofChars) := by
  induction cs using scan_induction generalizing n with
  | finished cs h =>
    rw [expandOctets, turn?_finished h, expandFrom_finished h]
    rfl
  | broken before after hbefore hafter =>
    rw [expandOctets, turn?_broken hbefore hafter, expandFrom_broken hbefore hafter]
    rfl
  | element before inner rest hbefore hinner ih =>
    have htotal : n + (Utf8.ofChars (before ++ '<' :: (inner ++ (closing ++ rest)))).length =
        n + octets (before ++ '<' :: (inner ++ closing)) + (Utf8.ofChars rest).length := by
      simp only [octets_eq_length, Utf8.ofChars_append, Utf8.ofChars_cons, List.length_append]
      omega
    rw [expandOctets, turn?_went hbefore hinner, expandFrom_element hbefore hinner, htotal]
    simp only
    rw [ih, Option.map_some]
    cases expandFrom (n + octets (before ++ '<' :: (inner ++ closing))) none rest with
    | error message => rfl
    | ok out => simp [Except.map]

/-! ### Elements without their end -/

/-- A text with what reaches up to its last end of an element, and the tail after that. Without such
an end all of the text is the tail. -/
structure LastEnd (cs front tail : List Char) : Prop where
  whole : cs = front ++ tail
  ends : front = [] ∨ closing <:+ front
  last : ¬ closing <:+: tail

theorem LastEnd.prepend {front tail : List Char} (h : LastEnd cs front tail)
    (before : List Char) :
    LastEnd (before ++ (closing ++ cs)) (before ++ (closing ++ front)) tail where
  whole := by rw [h.whole, List.append_assoc, List.append_assoc]
  ends := by
    right
    rcases h.ends with rfl | ⟨front', rfl⟩
    · exact ⟨before, by rw [List.append_nil]⟩
    · exact ⟨before ++ (closing ++ front'), by simp only [List.append_assoc]⟩
  last := h.last

theorem exists_lastEnd (cs : List Char) : ∃ front tail, LastEnd cs front tail := by
  induction cs using Search.match_induction '/' ['>'] with
  | nil => exact ⟨[], [], rfl, .inl rfl, by decide⟩
  | found cs ih =>
    obtain ⟨front, tail, h⟩ := ih
    exact ⟨_, tail, h.prepend []⟩
  | plain c cs hstart ih =>
    obtain ⟨front, tail, h⟩ := ih
    rcases h.ends with rfl | ⟨front', rfl⟩
    · have hnone : ¬ closing <:+: c :: cs := by
        rw [List.infix_cons_iff, not_or, h.whole]
        exact ⟨h.whole ▸ hstart, h.last⟩
      exact ⟨[], c :: cs, rfl, .inl rfl, hnone⟩
    · exact ⟨c :: (front' ++ closing), tail, by rw [h.whole, List.cons_append],
        .inr ⟨c :: front', rfl⟩, h.last⟩

/-- The first bracket in a tail is the one that has no end. -/
theorem expandFrom_settled (n : Nat) (cs : List Char) :
    ∃ front tail, LastEnd cs front tail ∧
      ('<' ∉ tail → ∃ out, expandFrom n none cs = .ok out) ∧
      ∀ plain rest, tail = plain ++ '<' :: rest → '<' ∉ plain →
        expandFrom n none cs = .error (unterminated (n + octets (front ++ plain))) := by
  induction cs using scan_induction generalizing n with
  | finished cs h =>
    obtain ⟨front, tail, hlast⟩ := exists_lastEnd cs
    refine ⟨front, tail, hlast, fun _ => ⟨cs, expandFrom_finished h n⟩, ?_⟩
    rintro plain rest rfl -
    simp [hlast.whole] at h
  | broken before after hbefore hafter =>
    obtain ⟨front, plain, hlast⟩ := exists_lastEnd before
    have hplain : '<' ∉ plain := fun hmem => hbefore (by simp [hlast.whole, hmem])
    have hnone := not_closing_infix_append_cons (x := '<') (by decide) hlast.last hafter
    refine ⟨front, plain ++ '<' :: after, ⟨by simp [hlast.whole], hlast.ends, hnone⟩,
      fun h => absurd h (by simp), ?_⟩
    intro plain' rest heq hplain'
    -- the first bracket of the tail is the one at which the loop stops
    have hcut := Search.cut?_singleton hplain after
    rw [heq, Search.cut?_singleton hplain'] at hcut
    cases hcut
    rw [expandFrom_broken hbefore hafter, ← hlast.whole]
  | element before inner rest hbefore hinner ih =>
    obtain ⟨front, tail, hlast, hok, herror⟩ :=
      ih (n + octets (before ++ '<' :: (inner ++ closing)))
    have hwhole := hlast.prepend (before ++ '<' :: inner)
    rw [List.append_assoc, List.cons_append] at hwhole
    refine ⟨_, tail, hwhole, fun h => ?_, fun plain rest' heq hplain => ?_⟩
    · obtain ⟨out, hout⟩ := hok h
      exact ⟨_, by rw [expandFrom_element hbefore hinner, hout]; rfl⟩
    · rw [expandFrom_element hbefore hinner, herror plain rest' heq hplain, Except.map]
      simp only [octets_append, octets_cons, Nat.add_assoc]

/-- Where an element without its end is found: expansion is the same octet by octet, without a cut
inside a character, and it fails exactly if an element begins after the last end of one, with the
offset of the first of these in octets. -/
theorem macroStrip_faults (r : Request) :
    expandOctets (Utf8.size r.text) (Utf8.encode r.text) =
        some ((macroStrip r).map Utf8.encode) ∧
      ∃ front tail, LastEnd r.text.toList front tail ∧
        ((∃ message, macroStrip r = .error message) ↔ '<' ∈ tail) ∧
        ∀ message, macroStrip r = .error message ↔
          ∃ plain rest, tail = plain ++ '<' :: rest ∧ '<' ∉ plain ∧
            message = "Parse error at offset " ++
              toString (Utf8.encode (String.ofList (front ++ plain))).length ++
              ": unterminated element" := by
  constructor
  · have hagree := expandOctets_ofChars 0 r.text.toList
    rw [Nat.zero_add, ← Utf8.size_ofList, String.ofList_toList, ← Utf8.encode_toList] at hagree
    rw [hagree, macroStrip]
    cases expandFrom 0 none r.text.toList with
    | error message => rfl
    | ok out => simp [Except.map, Utf8.encode_ofList]
  · obtain ⟨front, tail, hlast, hok, herror⟩ := expandFrom_settled 0 r.text.toList
    have hfault : ∀ plain rest, tail = plain ++ '<' :: rest → '<' ∉ plain →
        macroStrip r = .error ("Parse error at offset " ++
          toString (Utf8.encode (String.ofList (front ++ plain))).length ++
          ": unterminated element") := by
      intro plain rest heq hplain
      rw [macroStrip, herror plain rest heq hplain, Nat.zero_add, octets_eq_length,
        Utf8.encode_ofList]
      rfl
    refine ⟨front, tail, hlast, ?_⟩
    by_cases hopening : '<' ∈ tail
    · obtain ⟨plain, rest, rfl, hplain⟩ := List.eq_append_cons_of_mem hopening
      have hfirst := hfault plain rest rfl hplain
      refine ⟨⟨fun _ => hopening, fun _ => ⟨_, hfirst⟩⟩, fun message => ⟨fun h => ?_, ?_⟩⟩
      · rw [hfirst] at h
        exact ⟨plain, rest, rfl, hplain, (Except.error.inj h).symm⟩
      · rintro ⟨plain', rest', heq, hplain', rfl⟩
        exact hfault plain' rest' heq hplain'
    · obtain ⟨out, hout⟩ := hok hopening
      have hdone : macroStrip r = .ok (String.ofList out) := by
        rw [macroStrip, hout]
        rfl
      simp only [hdone, reduceCtorEq, exists_false, hopening, false_iff, true_and]
      rintro message ⟨plain, rest, rfl, -⟩
      exact hopening (by simp)

end StandIn
end CjsxConversion
