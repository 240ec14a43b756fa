import CjsxConversion.Proofs.StandIn.Expanding
import CjsxConversion.Proofs.Text.Lines

/-!
# Elements that are expanded and restored

A source is made of pieces, plain text and elements in their canonical spelling, one after the
other. Expanding its macros turns each element into a call, and turning calls back into elements
restores it, unless what is plain in it spells the beginning of a call.

Plain text reaches from one element to the next. Pieces of plain text that stand
side by side make up one stretch, which can spell what none of them spells by itself.

Main results:
* `call_inner`: what an element is expanded to.
* `element_arguments`: what a call is turned into.
* `withElements_call`, `withElements_ne`: how calls are found.
* `elements_restored`: when a source is restored.
-/

namespace CjsxConversion
namespace StandIn

open Blank

/-! ### Canonical sources -/

/-- A name of ASCII letters and digits. -/
structure Label where
  chars : List Char
  ne_nil : chars ≠ []
  alphanumeric : ∀ c ∈ chars, c.isAlphanum = true

/-- An attribute with what stands between the quotes of its value. -/
structure Attribute where
  key : Label
  content : List Char
  unblank : ∀ c ∈ content, isBlank c = false
  no_comma : ',' ∉ content
  no_paren : ')' ∉ content
  no_closing : ¬ closing <:+: content

/-- An element without children. -/
structure Element where
  tag : Label
  attributes : List Attribute

namespace Attribute

/-- The value in its quotes. -/
def value (a : Attribute) : List Char := '"' :: (a.content ++ ['"'])

/-- The attribute in an element. -/
def spelled (a : Attribute) : List Char := a.key.chars ++ '=' :: a.value

/-- The attribute as a property in a call. -/
def property (a : Attribute) : List Char := a.key.chars ++ ':' :: ' ' :: a.value

end Attribute

namespace Element

/-- Attributes, each behind a space. -/
def spaced (as : List Attribute) : List Char :=
  as.flatMap fun a => ' ' :: a.spelled

/-- What stands between the bracket and the end of an element. -/
def inner (e : Element) : List Char := e.tag.chars ++ spaced e.attributes ++ [' ']

/-- The canonical spelling of an element. -/
def spelled (e : Element) : List Char := '<' :: (e.inner ++ closing)

/-- What stands between the parentheses of the call. -/
def arguments (e : Element) : List Char :=
  match e.attributes with
  | [] => e.tag.chars
  | as => e.tag.chars ++ ", \x7b".toList ++ joined ", " (as.map Attribute.property) ++ ['\x7d']

/-- The call that makes an element. -/
def asCall (e : Element) : List Char := elementCall ++ (e.arguments ++ [')'])

end Element

/-- A piece of a source. -/
inductive Piece where
  | plain (cs : List Char) (h : '<' ∉ cs)
  | element (e : Element)

/-- How a piece is spelled. -/
def Piece.spelled : Piece → List Char
  | .plain cs _ => cs
  | .element e => e.spelled

/-- A piece with its macro expanded. -/
def Piece.expanded : Piece → List Char
  | .plain cs _ => cs
  | .element e => e.asCall

/-- The source that pieces make up. -/
def source (ps : List Piece) : List Char :=
  ps.flatMap Piece.spelled

/-- The source that pieces make up when macros are expanded. -/
def expandedSource (ps : List Piece) : List Char :=
  ps.flatMap Piece.expanded

/-- The stretches of plain text between elements, given the beginning of the first one. -/
def stretchesFrom (present : List Char) : List Piece → List (List Char)
  | [] => [present]
  | .plain cs _ :: ps => stretchesFrom (present ++ cs) ps
  | .element _ :: ps => present :: stretchesFrom [] ps

/-- The stretches of plain text between elements. -/
def stretches (ps : List Piece) : List (List Char) :=
  stretchesFrom [] ps

/-! ### Labels and values -/

theorem Label.not_mem (l : Label) {c : Char} (h : c.isAlphanum = false) : c ∉ l.chars := by
  intro hc
  rw [l.alphanumeric c hc] at h
  cases h

theorem Label.unblank (l : Label) : ∀ c ∈ l.chars, isBlank c = false :=
  fun c hc => isBlank_of_isAlphanum (l.alphanumeric c hc)

namespace Attribute

variable (a : Attribute)

theorem unblank_value : ∀ c ∈ a.value, isBlank c = false := by
  intro c hc
  simp only [value, List.mem_cons, List.mem_append, List.not_mem_nil, or_false] at hc
  rcases hc with rfl | hc | rfl
  · decide
  · exact a.unblank c hc
  · decide

theorem getLast?_value : a.value.getLast? = some '"' := by
  rw [value, ← List.cons_append, List.getLast?_concat]

theorem unblank_spelled : ∀ c ∈ a.spelled, isBlank c = false := by
  intro c hc
  simp only [spelled, List.mem_append, List.mem_cons] at hc
  rcases hc with hc | rfl | hc
  · exact a.key.unblank c hc
  · decide
  · exact a.unblank_value c hc

theorem spelled_ne_nil : a.spelled ≠ [] := by
  simp [spelled]

theorem property?_spelled : property? a.spelled = some a.property := by
  rw [property?, spelled, Search.cut?_singleton (a.key.not_mem (by decide)), Option.map_some,
    property, List.append_assoc]
  rfl

theorem comma_not_mem_property : ',' ∉ a.property := by
  have hkey : ',' ∉ a.key.chars := a.key.not_mem (by decide)
  simp [property, value, hkey, a.no_comma]

theorem paren_not_mem_property : ')' ∉ a.property := by
  have hkey : ')' ∉ a.key.chars := a.key.not_mem (by decide)
  simp [property, value, hkey, a.no_paren]

end Attribute

/-! ### What an element is expanded to -/

namespace Element

@[simp] theorem spaced_nil : spaced [] = [] := rfl

@[simp] theorem spaced_cons (a : Attribute) (as : List Attribute) :
    spaced (a :: as) = ' ' :: (a.spelled ++ spaced as) := by
  simp [spaced]

theorem words_spaced (a : Attribute) (as : List Attribute) :
    Lines.words (a.spelled ++ spaced as) = (a :: as).map Attribute.spelled := by
  induction as generalizing a with
  | nil =>
    rw [spaced_nil, List.append_nil, Lines.words_of_no_blank a.spelled_ne_nil a.unblank_spelled]
    rfl
  | cons b as ih =>
    rw [spaced_cons, Lines.words_append a.spelled_ne_nil a.unblank_spelled (by decide), ih]
    rfl

/-- What stands in an element ends with its tag or with a quote. -/
theorem unblank_getLast? (l : Label) (as : List Attribute) :
    ∀ c ∈ (l.chars ++ spaced as).getLast?, isBlank c = false := by
  intro c hc
  rcases List.eq_nil_or_concat as with rfl | ⟨front, a, rfl⟩
  · rw [spaced_nil, List.append_nil] at hc
    exact l.unblank c (List.mem_of_mem_getLast? hc)
  · rw [List.concat_eq_append] at hc
    have hend : l.chars ++ spaced (front ++ [a]) =
        (l.chars ++ spaced front ++ ' ' :: (a.key.chars ++ ['='])) ++ a.value := by
      simp [spaced, Attribute.spelled]
    rw [hend, List.getLast?_append, a.getLast?_value] at hc
    cases hc
    decide

theorem trim_inner (e : Element) : trim e.inner = e.tag.chars ++ spaced e.attributes := by
  have htrim : trim ([] ++ (e.tag.chars ++ spaced e.attributes) ++ [' ']) =
      e.tag.chars ++ spaced e.attributes := by
    refine trim_of_bounded (by simp) (fun c hc => ?_) (unblank_getLast? _ _)
      (List.forall_mem_singleton.2 (by decide))
    obtain ⟨t, ts, hts⟩ := List.exists_cons_of_ne_nil e.tag.ne_nil
    rw [hts] at hc
    cases hc
    exact e.tag.unblank c (by simp [hts])
  rwa [List.nil_append] at htrim

theorem filterMap_property? (as : List Attribute) :
    (as.map Attribute.spelled).filterMap property? = as.map Attribute.property := by
  have heach : property? ∘ Attribute.spelled = some ∘ Attribute.property :=
    funext Attribute.property?_spelled
  rw [List.filterMap_map, heach, List.filterMap_eq_map]

/-- An element is expanded to its call. -/
theorem call_inner (e : Element) : call e.inner = e.asCall := by
  rw [call, e.trim_inner, asCall, arguments]
  cases e.attributes with
  | nil =>
    rw [spaced_nil, List.append_nil, Lines.cutAtBlank_of_no_blank e.tag.unblank]
    simp [Lines.words]
  | cons a as =>
    have hproperties : (Lines.words (a.spelled ++ spaced as)).filterMap property? =
        (a :: as).map Attribute.property := by
      rw [words_spaced, filterMap_property?]
    rw [spaced_cons, Lines.cutAtBlank_append e.tag.unblank (by decide)]
    simp only [hproperties, List.map_cons, List.append_assoc]
    rfl

theorem not_closing_infix_spaced {front : List Char} (h : ¬ closing <:+: front)
    (as : List Attribute) : ¬ closing <:+: front ++ (spaced as ++ [' ']) := by
  induction as generalizing front with
  | nil => exact not_closing_infix_append_cons (by decide) h (by decide)
  | cons a as ih =>
    have hnil : ¬ closing <:+: [] := by decide
    have hkey : ¬ closing <:+: a.key.chars := fun h =>
      a.key.not_mem (by decide) (h.subset List.mem_cons_self)
    have hcontent := not_closing_infix_append_cons (x := '"') (by decide) a.no_closing (ih hnil)
    have hvalue := not_closing_infix_append_cons (x := '"') (by decide) hnil hcontent
    have hspelled := not_closing_infix_append_cons (x := '=') (by decide) hkey hvalue
    have hall := not_closing_infix_append_cons (x := ' ') (by decide) h hspelled
    simpa [Attribute.spelled, Attribute.value] using hall

/-- An element does not end before its end. -/
theorem not_closing_infix_inner (e : Element) : ¬ closing <:+: e.inner := by
  have htag : ¬ closing <:+: e.tag.chars := fun h =>
    e.tag.not_mem (by decide) (h.subset List.mem_cons_self)
  rw [inner, List.append_assoc]
  exact not_closing_infix_spaced htag e.attributes

end Element

/-! ### What a call is turned into -/

theorem joined_cons (p : List Char) (ps : List (List Char)) :
    joined ", " (p :: ps) = p ++ ps.flatMap fun q => ',' :: ' ' :: q := by
  induction ps generalizing p with
  | nil => simp [joined]
  | cons q ps ih =>
    rw [joined_cons_cons, ih, List.flatMap_cons]
    rfl

/-- Joined parts are found again, all but the first one with the space of their separator. -/
theorem splitOn_joined {p : List Char} {ps : List (List Char)} (hp : ',' ∉ p)
    (hps : ∀ q ∈ ps, ',' ∉ q) : (joined ", " (p :: ps)).splitOn ',' = p :: ps.map (' ' :: ·) := by
  rw [joined_cons]
  induction ps generalizing p with
  | nil => simp [List.splitOn_eq_singleton hp]
  | cons q ps ih =>
    rw [List.forall_mem_cons] at hps
    have hq : ',' ∉ ' ' :: q := by simp [hps.1]
    rw [List.flatMap_cons, List.cons_append, List.splitOn_append_cons_self_of_not_mem hp,
      ih hq hps.2, List.map_cons]

theorem getLast?_joined {ps : List (List Char)} {c : Char} (hne : ps ≠ [])
    (h : ∀ q ∈ ps, q.getLast? = some c) : (joined ", " ps).getLast? = some c := by
  rcases List.eq_nil_or_concat ps with rfl | ⟨front, q, rfl⟩
  · exact absurd rfl hne
  · rw [List.concat_eq_append] at h ⊢
    obtain ⟨text, htext⟩ := exists_joined_concat ", " front q
    rw [htext, List.getLast?_append, h q (by simp)]
    rfl

theorem withoutBraces_braced {cs : List Char} (hhead : cs.head? ≠ some '\x7b')
    (hlast : cs.getLast? ≠ some '\x7d') : withoutBraces ('\x7b' :: (cs ++ ['\x7d'])) = cs := by
  have hfront : (cs ++ ['\x7d']).dropWhile (· = '\x7b') = cs ++ ['\x7d'] := by
    cases cs with
    | nil => rfl
    | cons c cs => exact List.dropWhile_cons_of_neg (by simpa using hhead)
  have hback : cs.reverse.dropWhile (· = '\x7d') = cs.reverse := by
    rw [← List.head?_reverse] at hlast
    cases hcs : cs.reverse with
    | nil => rfl
    | cons c rest =>
      rw [hcs] at hlast
      exact List.dropWhile_cons_of_neg (by simpa using hlast)
  rw [withoutBraces, List.dropWhile_cons_of_pos (by decide), hfront, List.reverse_append,
    List.reverse_singleton, List.singleton_append, List.dropWhile_cons_of_pos (by decide), hback,
    List.reverse_reverse]

namespace Attribute

variable (a : Attribute)

theorem getLast?_property : a.property.getLast? = some '"' := by
  simp [property, List.getLast?_append, List.getLast?_cons, a.getLast?_value]

theorem head?_property : a.property.head? ≠ some '\x7b' := by
  obtain ⟨k, ks, hks⟩ := List.exists_cons_of_ne_nil a.key.ne_nil
  rw [property, hks, List.cons_append, List.head?_cons]
  intro h
  have hbrace : '\x7b' ∉ a.key.chars := a.key.not_mem (by decide)
  exact hbrace (by simp [hks, Option.some.inj h])

/-- A property becomes an attribute, whatever spaces there are in front of it. -/
theorem attribute?_property {before : List Char} (h : ∀ c ∈ before, c = ' ') :
    attribute? (before ++ a.property) = some (' ' :: a.spelled) := by
  have hblank : ∀ c ∈ before, isBlank c = true := fun c hc => by rw [h c hc]; decide
  have hcolon : ':' ∉ before ++ a.key.chars := by
    rw [List.mem_append, not_or]
    exact ⟨fun hc => absurd (h ':' hc) (by decide), a.key.not_mem (by decide)⟩
  have hkey : trim (before ++ a.key.chars ++ []) = a.key.chars :=
    trim_of_surrounded hblank a.key.unblank (by simp)
  have hvalue : trim ([' '] ++ a.value ++ []) = a.value :=
    trim_of_surrounded (List.forall_mem_singleton.2 (by decide)) a.unblank_value (by simp)
  rw [List.append_nil] at hkey hvalue
  rw [List.singleton_append] at hvalue
  rw [attribute?, property, ← List.append_assoc, Search.cut?_singleton hcolon, Option.map_some]
  simp only [hkey, hvalue]
  rfl

end Attribute

namespace Element

theorem flatMap_attribute? (as : List Attribute) :
    ((as.map Attribute.property).map (' ' :: ·)).flatMap (fun p => (attribute? p).getD []) =
      spaced as := by
  induction as with
  | nil => rfl
  | cons a as ih =>
    have hfirst : attribute? ([' '] ++ a.property) = some (' ' :: a.spelled) :=
      a.attribute?_property (by simp)
    rw [List.singleton_append] at hfirst
    rw [List.map_cons, List.map_cons, List.flatMap_cons, hfirst, ih, Option.getD_some,
      spaced_cons, List.cons_append]

/-- The properties of a call are found in its second argument. -/
theorem properties_found (a : Attribute) (as : List Attribute) :
    (withoutBraces (trim (' ' :: '\x7b' ::
        (joined ", " (a.property :: as.map Attribute.property) ++ ['\x7d'])))).splitOn ',' =
      a.property :: (as.map Attribute.property).map (' ' :: ·) := by
  have hcomma : ∀ q ∈ as.map Attribute.property, ',' ∉ q := by
    intro q hq
    obtain ⟨b, -, rfl⟩ := List.mem_map.1 hq
    exact b.comma_not_mem_property
  have hquote : ∀ q ∈ (a :: as).map Attribute.property, q.getLast? = some '"' := by
    intro q hq
    obtain ⟨b, -, rfl⟩ := List.mem_map.1 hq
    exact b.getLast?_property
  have hsplit := splitOn_joined a.comma_not_mem_property hcomma
  have hlast := getLast?_joined (by simp) hquote
  rw [List.map_cons] at hlast
  have hhead : (joined ", " (a.property :: as.map Attribute.property)).head? ≠ some '\x7b' := by
    have hfirst := a.head?_property
    rw [joined_cons, List.head?_append]
    cases hproperty : a.property.head? with
    | none => simp [Attribute.property] at hproperty
    | some c => rwa [hproperty] at hfirst
  generalize joined ", " (a.property :: as.map Attribute.property) = list at hsplit hlast hhead ⊢
  have hbraced : trim ([' '] ++ '\x7b' :: (list ++ ['\x7d']) ++ []) =
      '\x7b' :: (list ++ ['\x7d']) := by
    refine trim_of_bounded (List.forall_mem_singleton.2 (by decide)) (fun c hc => ?_)
      (fun c hc => ?_) (by simp)
    · cases hc
      decide
    · rw [← List.cons_append, List.getLast?_concat] at hc
      cases hc
      decide
  rw [List.append_nil, List.singleton_append] at hbraced
  rw [hbraced, withoutBraces_braced hhead (by rw [hlast]; decide), hsplit]

/-- A call is turned back into its element. -/
theorem element_arguments (e : Element) : element e.arguments = e.spelled := by
  have htag : trim e.tag.chars = e.tag.chars := trim_of_no_blank e.tag.unblank
  have hcomma : ',' ∉ e.tag.chars := e.tag.not_mem (by decide)
  rw [element, arguments, spelled, inner]
  cases e.attributes with
  | nil =>
    have hcut : Search.cut? [','] e.tag.chars = none :=
      Search.cut?_eq_none_iff.2 fun h => hcomma (h.subset List.mem_cons_self)
    simp only [hcut, Option.getD_none, htag]
    simp [trim, trimStart, trimEnd, withoutBraces, attribute?, Search.cut?]
  | cons a as =>
    have htext : e.tag.chars ++ ", \x7b".toList ++
          joined ", " ((a :: as).map Attribute.property) ++ ['\x7d'] =
        e.tag.chars ++ ',' :: ' ' :: '\x7b' ::
          (joined ", " (a.property :: as.map Attribute.property) ++ ['\x7d']) := by
      simp
    have hfirst : attribute? ([] ++ a.property) = some (' ' :: a.spelled) :=
      a.attribute?_property (by simp)
    rw [List.nil_append] at hfirst
    simp only [htext, Search.cut?_singleton hcomma, Option.getD_some, htag, properties_found,
      List.flatMap_cons, flatMap_attribute?, hfirst, spaced_cons]
    simp

end Element

/-! ### How calls are found -/

section Calls

variable {before arguments after cs : List Char}

/-- The characters of a call after its first one. -/
abbrev callRest : List Char := "eact.createElement(".toList

theorem elementCall_eq : elementCall = 'R' :: callRest := by decide

theorem elementCall_ne_nil : elementCall ≠ [] := by decide

/-- A text without calls is kept. -/
theorem withElements_finished (h : ¬ elementCall <:+: cs) : withElements cs = .ok cs := by
  have hcut := Search.cut?_eq_none_iff.2 h
  rw [withElements]
  split
  · rfl
  · next hsome => rw [hcut] at hsome; cases hsome

/-- Behind the first call that begins, its end is looked for. -/
theorem withElements_of_cut (h : Search.cut? elementCall cs = some (before, after)) :
    withElements cs =
      match Search.cut? [')'] after with
      | none => .error "SyntaxError: Unexpected token, expected \")\""
      | some (arguments, rest) => (withElements rest).map (before ++ element arguments ++ ·) := by
  rw [withElements]
  split
  · next hnone => rw [h] at hnone; cases hnone
  · next b a hsome =>
    rw [h] at hsome
    cases hsome
    split
    · next hend => rw [hend]
    · next hend => rw [hend]

/-- The first call is turned into an element, and then what follows it. -/
theorem withElements_call (hbefore : ¬ elementCall <:+: before) (harguments : ')' ∉ arguments)
    (rest : List Char) :
    withElements (before ++ (elementCall ++ (arguments ++ ')' :: rest))) =
      (withElements rest).map (before ++ element arguments ++ ·) := by
  have honce : 'R' ∉ callRest := by decide
  have hcut : Search.cut? elementCall (before ++ (elementCall ++ (arguments ++ ')' :: rest))) =
      some (before, arguments ++ ')' :: rest) :=
    Search.cut?_of_first honce hbefore _
  rw [withElements_of_cut hcut, Search.cut?_singleton harguments]

/-- Where plain text spells the beginning of a call, it is not kept. -/
theorem withElements_ne (h : elementCall <:+: before) (rest kept : List Char) :
    withElements (before ++ rest) ≠ .ok (before ++ kept) := by
  cases hcut : Search.cut? elementCall before with
  | none => exact absurd h (Search.cut?_eq_none_iff.1 hcut)
  | some found =>
    obtain ⟨front, after⟩ := found
    rw [withElements_of_cut (Search.cut?_append elementCall_ne_nil hcut rest)]
    split
    · nofun
    · next arguments rest' _ =>
      rw [Search.eq_append_of_cut? hcut]
      cases withElements rest' with
      | error message => nofun
      | ok out =>
        -- an element stands where the text has the first character of a call
        intro h
        have hsame := Except.ok.inj h
        simp [element, elementCall_eq] at hsame

end Calls

/-! ### Sources -/

theorem Element.paren_not_mem_arguments (e : Element) : ')' ∉ e.arguments := by
  have htag : ')' ∉ e.tag.chars := e.tag.not_mem (by decide)
  rw [arguments]
  cases e.attributes with
  | nil => exact htag
  | cons a as =>
    have hall : ∀ b ∈ as, ')' ∉ b.property := fun b _ => b.paren_not_mem_property
    simp only [List.map_cons, joined_cons]
    simpa [htag, a.paren_not_mem_property] using hall

/-- Macros in a source are expanded, whatever its plain text is. -/
theorem expandFrom_source (n : Nat) (ps : List Piece) :
    expandFrom n none (source ps) = .ok (expandedSource ps) := by
  induction ps generalizing n with
  | nil => rfl
  | cons p ps ih =>
    cases p with
    | plain cs h =>
      rw [source, List.flatMap_cons, Piece.spelled, expandFrom_append h, ← source, ih]
      rfl
    | element e =>
      have hspelled : source (.element e :: ps) =
          [] ++ '<' :: (e.inner ++ (closing ++ source ps)) := by
        simp [source, Piece.spelled, Element.spelled]
      rw [hspelled, expandFrom_element List.not_mem_nil e.not_closing_infix_inner, ih,
        e.call_inner]
      rfl

/-- Calls in an expanded source are turned back exactly if no stretch spells one by itself. -/
theorem withElements_source (present : List Char) (ps : List Piece) :
    withElements (present ++ expandedSource ps) = .ok (present ++ source ps) ↔
      ∀ stretch ∈ stretchesFrom present ps, ¬ elementCall <:+: stretch := by
  induction ps generalizing present with
  | nil =>
    simp only [stretchesFrom, List.mem_singleton, forall_eq]
    refine ⟨fun h hcall => withElements_ne hcall _ _ h, fun h => ?_⟩
    have hkept := withElements_finished h
    simpa [expandedSource, source] using hkept
  | cons p ps ih =>
    cases p with
    | plain cs h =>
      have hstep := ih (present ++ cs)
      rw [List.append_assoc, List.append_assoc] at hstep
      exact hstep
    | element e =>
      simp only [stretchesFrom, List.forall_mem_cons]
      by_cases hcall : elementCall <:+: present
      · exact iff_of_false (withElements_ne hcall _ _) fun h => h.1 hcall
      · have hexpanded : present ++ expandedSource (.element e :: ps) =
            present ++ (elementCall ++ (e.arguments ++ ')' :: expandedSource ps)) := by
          simp [expandedSource, Piece.expanded, Element.asCall]
        have hsource : present ++ source (.element e :: ps) =
            present ++ e.spelled ++ source ps := by
          simp [source, Piece.spelled]
        have hnext := ih []
        rw [hexpanded, withElements_call hcall e.paren_not_mem_arguments, e.element_arguments,
          hsource]
        simp only [List.nil_append] at hnext
        rw [← hnext]
        simp only [hcall, not_false_eq_true, true_and]
        cases withElements (expandedSource ps) with
        | error message => simp [Except.map]
        | ok out => simp [Except.map]

theorem macroStrip_source (r : Request) (ps : List Piece) :
    macroStrip { r with text := String.ofList (source ps) } =
      .ok (String.ofList (expandedSource ps)) := by
  rw [macroStrip, String.toList_ofList, expandFrom_source]
  rfl

theorem elementSyntax_source_iff (r : Request) (ps : List Piece) :
    elementSyntax { r with text := String.ofList (expandedSource ps) } =
        .ok (String.ofList (source ps)) ↔
      ∀ stretch ∈ stretches ps, ¬ elementCall <:+: stretch := by
  have hsource := withElements_source [] ps
  rw [List.nil_append, List.nil_append] at hsource
  rw [stretches, ← hsource, elementSyntax, String.toList_ofList]
  cases withElements (expandedSource ps) with
  | error message => simp [Except.map]
  | ok out => simp [Except.map, String.ofList_inj]

/-- When a source is restored. Macros of a source are always expanded, and turning calls back
into elements restores it exactly if no stretch of its plain text spells the beginning of a
call. -/
theorem elements_restored (r s : Request) (ps : List Piece) :
    ∃ calls, macroStrip { r with text := String.ofList (source ps) } = .ok calls ∧
      (elementSyntax { s with text := calls } = .ok (String.ofList (source ps)) ↔
        ∀ stretch ∈ stretches ps, ¬ elementCall <:+: stretch) :=
  ⟨_, macroStrip_source r ps, elementSyntax_source_iff s ps⟩

/-- An element whose values hold what separates its parts. -/
def card : Element where
  tag := ⟨"Card".toList, by simp, by simp⟩
  attributes :=
    [{ key := ⟨"title".toList, by simp, by simp⟩
       content := "a<b=\x7b:\x7d".toList
       unblank := by simp; decide
       no_comma := by simp
       no_paren := by simp
       no_closing := by decide +kernel },
     { key := ⟨"w2".toList, by simp, by simp⟩
       content := []
       unblank := by simp
       no_comma := by simp
       no_paren := by simp
       no_closing := by decide }]

/-- An element with attributes is restored between plain texts. -/
theorem card_restored :
    ∃ calls, macroStrip
        { text := "const x = <Card title=\"a<b=\x7b:\x7d\" w2=\"\" />; // done\n" } = .ok calls ∧
      elementSyntax { text := calls } =
        .ok "const x = <Card title=\"a<b=\x7b:\x7d\" w2=\"\" />; // done\n" := by
  obtain ⟨calls, hcalls, hrestored⟩ := elements_restored { text := "" } { text := "" }
    [.plain "const x = ".toList (by decide), .element card, .plain "; // done\n".toList (by decide)]
  refine ⟨calls, hcalls, hrestored.2 ?_⟩
  intro stretch hstretch hcall
  have hlong := hcall.length_le
  rcases (by simpa [stretches, stretchesFrom] using hstretch :
    stretch = "const x = ".toList ∨ stretch = "; // done\n".toList) with rfl | rfl
  · exact absurd hlong (by decide)
  · exact absurd hlong (by decide)

/-- Two pieces of plain text can spell a call together, which is then taken for one. -/
theorem call_in_two_halves :
    ¬ ∀ ps : List Piece, (∀ cs h, .plain cs h ∈ ps → ¬ elementCall <:+: cs) →
      ∃ calls, macroStrip { text := String.ofList (source ps) } = .ok calls ∧
        elementSyntax { text := calls } = .ok (String.ofList (source ps)) := by
  intro h
  have hplain : ∀ cs h, Piece.plain cs h ∈
      [Piece.plain "React.create".toList (by decide), .plain "Element(Foo)".toList (by decide)] →
      ¬ elementCall <:+: cs := by
    intro cs hcs hmem hcall
    have hlong := hcall.length_le
    simp only [List.mem_cons, Piece.plain.injEq, List.not_mem_nil, or_false] at hmem
    rcases hmem with rfl | rfl
    · exact absurd hlong (by decide)
    · exact absurd hlong (by decide)
  obtain ⟨calls, hcalls, hrestored⟩ := h _ hplain
  rw [macroStrip_source { text := "" }] at hcalls
  rw [← Except.ok.inj hcalls] at hrestored
  have hstretch := (elementSyntax_source_iff { text := "" } _).1 hrestored
  exact hstretch _ List.mem_cons_self ⟨[], "Foo)".toList, by decide⟩

end StandIn
end CjsxConversion
