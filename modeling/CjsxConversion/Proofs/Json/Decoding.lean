import CjsxConversion.Json.Decode
import CjsxConversion.Proofs.Json.Reading
import CjsxConversion.Proofs.Traversal

/-!
# Decoders that undo an encoding

A decoder undoes an encoding if it takes the draft of every encoded value for the value again.
What it has to be given is room: in a text it must not be called too deep within collections.

`Decoder.Reads` says that a decoder takes a value of JSON for something, given how many
collections are nested in the value. `Record.Fills` says that a record is filled by a row of
members, one after the other, each of which has not been there before.

Main results:
* `list_reads`, `members_reads`: decoders of collections undo what decoders of their parts undo.
* `record_reads`: a record is read from members that fill it.
* `choice_reads`: a choice is read from its name with its content.
* `Reads.decode_render`: a decoder that undoes an encoding reads the text of what is encoded.
-/

namespace CjsxConversion
namespace Json

/-- A decoder takes a value of JSON, in which so many collections are nested, for something. -/
structure Decoder.Reads {α : Type} (decoder : Decoder α) (height : Nat) (v : Json) (a : α) :
    Prop where
  fits : v.Fits
  decode_eq : ∀ form depth, depth + height ≤ 127 → decoder form depth v.toDraft = .ok a

namespace Decoder

variable {α β σ : Type} {height : Nat} {v : Json} {a : α}

theorem Reads.mono {decoder : Decoder α} (h : decoder.Reads height v a) {higher : Nat}
    (hle : height ≤ higher) : decoder.Reads higher v a :=
  ⟨h.fits, fun form depth hroom => h.decode_eq form depth (by omega)⟩

theorem Reads.map {decoder : Decoder α} (h : decoder.Reads height v a) (f : α → β) :
    Decoder.Reads (fun form depth d => (decoder form depth d).map f) height v (f a) :=
  ⟨h.fits, fun form depth hroom => by rw [h.decode_eq form depth hroom]; rfl⟩

theorem enter_eq_ok {form : Form} {depth : Nat} (h : depth < 127) : enter form depth = .ok () := by
  have hroom : ¬ (form = .text ∧ 127 ≤ depth) := fun ⟨_, hle⟩ => by omega
  rw [enter, if_neg hroom]

/-! ### Plain values -/

theorem string_reads (s : String) : string.Reads 0 (.str s) s :=
  ⟨trivial, fun _ _ _ => rfl⟩

theorem bool_reads (b : Bool) : bool.Reads 0 (.bool b) b :=
  ⟨trivial, fun _ _ _ => rfl⟩

/-- What is there is read as what is there, if it is not the word for nothing. -/
theorem optional_reads {item : Decoder α} (h : item.Reads height v a) (hv : v.toDraft ≠ .null) :
    (optional item).Reads height v (some a) := by
  refine ⟨h.fits, fun form depth hroom => ?_⟩
  rw [optional.eq_def]
  split
  · next hnull => exact absurd hnull hv
  · rw [h.decode_eq form depth hroom]
    rfl

/-! ### Collections -/

/-- An array is read if its elements are. -/
theorem list_reads {item : Decoder α} {encode : α → Json} {as : List α}
    (h : ∀ a ∈ as, item.Reads height (encode a) a) :
    (list item).Reads (height + 1) (.arr (as.map encode)) as := by
  refine ⟨fitAll_iff.2 fun v hv => ?_, fun form depth hroom => ?_⟩
  · obtain ⟨a, ha, rfl⟩ := List.mem_map.1 hv
    exact (h a ha).fits
  · have hitems : ((as.map encode).map toDraft).mapM (item form (depth + 1)) = .ok as := by
      refine Traversal.mapM_eq_ok_iff.2 ?_
      rw [List.map_map, List.forall₂_map_left_iff, List.forall₂_same]
      exact fun a ha => (h a ha).decode_eq form (depth + 1) (by omega)
    simp only [toDraft, toDrafts_eq_map, list, enter_eq_ok (show depth < 127 by omega), hitems]
    rfl

/-- An object is read as keys with values if its values are. -/
theorem members_reads {item : Decoder α} {encode : α → Json} {es : List (String × α)}
    (h : ∀ e ∈ es, item.Reads height (encode e.2) e.2) :
    (members item).Reads (height + 1) (.obj (es.map fun e => (e.1, encode e.2))) es := by
  refine ⟨fitMembers_iff.2 fun m hm => ?_, fun form depth hroom => ?_⟩
  · obtain ⟨e, he, rfl⟩ := List.mem_map.1 hm
    exact (h e he).fits
  · simp only [toDraft, toMembers_eq_map, members, enter_eq_ok (show depth < 127 by omega)]
    rw [Traversal.mapM_eq_ok_iff.2]
    · rfl
    · rw [List.map_map, List.forall₂_map_left_iff, List.forall₂_same]
      intro e he
      simp only [Function.comp_apply, key, bind, Except.bind, pure, Except.pure,
        (h e he).decode_eq form (depth + 1) (by omega)]

/-! ### Records -/

/-- A record is filled by a row of members: each has the name of a field that has not been filled
yet, and a value that the field reads. -/
inductive Record.Fills (r : Record σ) (height : Nat) : σ → List (String × Json) → σ → Prop
  | done (s : σ) : Fills r height s [] s
  | step {s t u : σ} {f : Field σ} {name : String} {v : Json} {ms : List (String × Json)}
      (named : r.fields.find? (fun f => f.name == name) = some f) (fresh : f.isSet s = false)
      (reads : (f.read s).Reads height v t) (rest : Fills r height t ms u) :
      Fills r height s ((name, v) :: ms) u

namespace Record

variable {r : Record σ} {s t u : σ} {name : String} {ms : List (String × Json)}

/-- A member fills the slot that it is for. -/
theorem Fills.slot {required : Bool} {get : σ → Option α} {set : σ → α → σ} {item : Decoder α}
    (named : r.fields.find? (fun f => f.name == name) =
      some (Decoder.slot name required get set item))
    (fresh : get s = none) (reads : item.Reads height v a)
    (rest : Fills r height (set s a) ms u) : Fills r height s ((name, v) :: ms) u :=
  .step named (by simp [Decoder.slot, fresh]) (reads.map (set s)) rest

theorem Fills.fits (h : Fills r height s ms t) : FitMembers ms := by
  induction h with
  | done s => exact trivial
  | step named fresh reads rest ih => exact ⟨reads.fits, ih⟩

/-- Members that fill a record are read into it. -/
theorem readMembers_of_fills (h : Fills r height s ms t) (form : Form) {depth : Nat}
    (hroom : depth + height ≤ 127) :
    r.readMembers form depth s (toMembers ms) = .ok t := by
  induction h with
  | done s => rfl
  | step named fresh reads rest ih =>
    simp only [toMembers, readMembers, key, bind, Except.bind, named, fresh,
      reads.decode_eq form depth hroom]
    exact ih

/-- A record is read from members that fill it, if none is missing. -/
theorem record_reads (h : Fills r height r.start ms s)
    (hmissing : checkMissing s r.fields = .ok s) : r.decode.Reads (height + 1) (.obj ms) s := by
  refine ⟨h.fits, fun form depth hroom => ?_⟩
  have henter : enter form depth = .ok () := enter_eq_ok (by omega)
  have hread := readMembers_of_fills h form (show depth + 1 + height ≤ 127 by omega)
  simp only [toDraft, decode, henter, hread, bind, Except.bind, finish]
  exact hmissing

end Record

/-! ### Choices -/

theorem toDraft_ne_bad (v : Json) (flaw : Flaw) : v.toDraft ≠ .bad flaw := by
  cases v <;> simp [toDraft]

/-- A choice is read from its name with its content. -/
theorem choice_reads {names : List String} {bare : Nat → Except Problem α}
    {full : Nat → Decoder α} {name : String} {i : Nat}
    (hname : names.findIdx? (· == name) = some i) (h : (full i).Reads height v a) :
    (choice names bare full).Reads (height + 1) (.obj [(name, v)]) a := by
  refine ⟨⟨h.fits, trivial⟩, fun form depth hroom => ?_⟩
  have hfull := h.decode_eq form (depth + 1) (by omega)
  cases form with
  | text =>
    have henter : enter .text depth = .ok () := enter_eq_ok (by omega)
    simp only [toDraft, toMembers, choice, henter, key, choiceIndex, hname, bind, Except.bind]
    split
    · next hbad => exact absurd hbad (toDraft_ne_bad v _)
    · simp [hfull, choiceEnd, pure, Except.pure]
  | inline =>
    simp only [toDraft, toMembers, choice, key, choiceIndex, hname, bind, Except.bind]
    exact hfull

/-! ### Texts -/

/-- A decoder that undoes an encoding reads the text of what is encoded. -/
theorem Reads.decode_render {decoder : Decoder α} (h : decoder.Reads height v a)
    (hheight : height ≤ 127) : (Document.ofText v.render).decode decoder = .ok a := by
  rw [Document.ofText_render h.fits]
  simp [Document.decode, h.decode_eq .text 0 (by omega), bind, Except.bind, pure, Except.pure]

end Decoder
end Json
end CjsxConversion
