import CjsxConversion.Flag.Json
import CjsxConversion.Proofs.Json.Decoding

/-!
# Flags and settings survive being written as JSON

What is written of a value, of settings, of a flag or of a set of flags is read as just that. No
kind of value is taken for another one: a truth value, an integer and a string look different. A
part of a flag that is missing is not written, and what is not written is missing.

Main results:
* `Settings.reads`: settings with any keys and values are read as themselves.
* `Flag.reads`: so is a flag, whatever it takes and whichever of its parts are missing.
* `FlagSet.reads`: so is a set of flags, which is accepted again.
-/

namespace CjsxConversion

open Json

/-! ### Values -/

theorem FlagValue.toDraft_toJson_ne_null (v : FlagValue) : v.toJson.toDraft ≠ .null := by
  cases v <;> simp [toJson, toDraft]

/-- A value is read as a value of its kind, an integer up to the limits of 64 bits. -/
theorem FlagValue.reads (v : FlagValue) : decoder.Reads 0 v.toJson v := by
  cases v with
  | bool b => exact ⟨trivial, fun _ _ _ => rfl⟩
  | int n =>
    have hfits : (toJson (.int n)).Fits := by
      have hrange := Integer.mem_range n
      simp only [Integer.InRange] at hrange
      simp only [toJson, Fits, Numeral.negativeMax, Numeral.significandMax]
      omega
    refine ⟨hfits, fun form depth _ => ?_⟩
    simp only [toJson, toDraft, decoder, Decoder.consume, bind, Except.bind,
      Integer.narrow?_toInt]
    rfl
  | text s => exact ⟨trivial, fun _ _ _ => rfl⟩

/-! ### Settings -/

namespace Settings

/-- A key above all others is put last. -/
theorem place_eq_append {k : String} {v : FlagValue} :
    ∀ {es : List (String × FlagValue)}, (∀ e ∈ es, e.1 < k) → place k v es = es ++ [(k, v)]
  | [], _ => rfl
  | d :: rest, h => by
    have hd : d.1 < k := h d List.mem_cons_self
    have hnlt : ¬ k < d.1 := fun h' => String.lt_irrefl k (String.lt_trans h' hd)
    have hne : ¬ k = d.1 := fun h' => String.lt_irrefl k (h' ▸ hd)
    rw [place, if_neg hnlt, if_neg hne,
      place_eq_append fun e he => h e (List.mem_cons_of_mem d he), List.cons_append]

/-- A row of ascending keys is written as it is behind smaller keys. -/
theorem entries_insertAll :
    ∀ {row : List (String × FlagValue)} {s : Settings},
      (s.entries ++ row).Pairwise (fun a b => a.1 < b.1) →
        (s.insertAll row).entries = s.entries ++ row
  | [], s, _ => by simp [insertAll]
  | e :: row, s, h => by
    have hlast : (s.insert e.1 e.2).entries = s.entries ++ [e] :=
      place_eq_append fun d hd => (List.pairwise_append.1 h).2.2 d hd e List.mem_cons_self
    rw [insertAll_cons, entries_insertAll (by simpa [hlast] using h), hlast, List.append_assoc,
      List.singleton_append]

theorem ofList_entries (s : Settings) : ofList s.entries = s := by
  have h : (ofList s.entries).entries = s.entries := entries_insertAll s.ascending
  cases s
  cases hs : ofList _
  simpa [hs] using h

/-- Settings with any keys and values are read as themselves. -/
theorem reads (s : Settings) : decoder.Reads 1 s.toJson s := by
  have hentries : (Decoder.members FlagValue.decoder).Reads 1 s.toJson s.entries :=
    Decoder.members_reads fun e _ => e.2.reads
  have hread := hentries.map ofList
  rw [ofList_entries] at hread
  exact hread

end Settings

/-! ### Kinds -/

namespace FlagKind

/-- What the members of a kind say is what their object says. -/
theorem reads_of_fromMembers {ms : List (String × Json)} {k : FlagKind} (hfits : FitMembers ms)
    (h : ∀ form depth, depth + 1 ≤ 127 → fromMembers form depth (toMembers ms) none = .ok k) :
    decoder.Reads 2 (.obj ms) k := by
  refine ⟨hfits, fun form depth hroom => ?_⟩
  have henter : Decoder.enter form depth = .ok () := Decoder.enter_eq_ok (by omega)
  rw [toDraft, decoder, henter]
  exact h form (depth + 1) (by omega)

/-- A kind is read from its name, together with its words if it has any. -/
theorem reads (k : FlagKind) : decoder.Reads 2 k.toJson k := by
  cases k with
  | toggle => exact reads_of_fromMembers ⟨trivial, trivial⟩ fun _ _ _ => rfl
  | integer => exact reads_of_fromMembers ⟨trivial, trivial⟩ fun _ _ _ => rfl
  | text => exact reads_of_fromMembers ⟨trivial, trivial⟩ fun _ _ _ => rfl
  | choice words =>
    have hwords : (Decoder.list Decoder.string).Reads 1 (.ofStrings words) words :=
      Decoder.list_reads fun w _ => Decoder.string_reads w
    refine reads_of_fromMembers ⟨trivial, hwords.fits, trivial⟩ fun form depth hroom => ?_
    calc fromMembers form depth
          [(.str "kind", .str "enum"), (.str "choices", (ofStrings words).toDraft)] none
        = ((Decoder.list Decoder.string form depth (ofStrings words).toDraft).map choice).bind
            .ok := rfl
      _ = .ok (choice words) := by
        rw [hwords.decode_eq form depth hroom]
        rfl

end FlagKind

/-! ### Flags -/

open Decoder.Record

theorem TruthWords.reads (w : TruthWords) : decoder.Reads 1 w.toJson w := by
  have hon : layout.Fills 0 ⟨some w.on, none⟩ [("off", .str w.off)] ⟨some w.on, some w.off⟩ :=
    Fills.slot rfl rfl (Decoder.string_reads w.off) (.done _)
  have hboth : layout.Fills 0 {} [("on", .str w.on), ("off", .str w.off)]
      ⟨some w.on, some w.off⟩ :=
    Fills.slot rfl rfl (Decoder.string_reads w.on) hon
  exact (record_reads hboth rfl).map _

namespace Flag

/-- A part that may be missing fills its member, or leaves it out. -/
theorem fills_member {α : Type} {x : Option α} {name : String} {get : Slots → Option (Option α)}
    {set : Slots → Option α → Slots} {item : Decoder α} {encode : α → Json} {height : Nat}
    {s t u : Slots} {ms : List (String × Json)}
    (named : layout.fields.find? (fun f => f.name == name) =
      some (Decoder.slot name false get set (Decoder.optional item)))
    (fresh : get s = none) (reads : ∀ a, item.Reads height (encode a) a)
    (there : ∀ a, (encode a).toDraft ≠ .null) (rest : layout.Fills height t ms u)
    (filled : t = x.elim s fun a => set s (some a)) :
    layout.Fills height s (member name (x.map encode) ++ ms) u := by
  subst filled
  cases x with
  | none => exact rest
  | some a => exact Fills.slot named fresh (Decoder.optional_reads (reads a) (there a)) rest

/-- The parts of a flag as they are read. A part that is missing is not there. -/
def toSlots (f : Flag) : Slots where
  spelling := some f.spelling
  kind := some f.kind
  assumed := f.assumed.map some
  description := some f.description
  ownKey := f.ownKey.map some
  truthWords := f.truthWords.map some

theorem ofSlots_toSlots (f : Flag) : ofSlots f.toSlots = f := by
  obtain ⟨spelling, kind, assumed, description, ownKey, truthWords⟩ := f
  cases assumed <;> cases ownKey <;> cases truthWords <;> rfl

/-- What is written of a flag fills its parts. -/
theorem fills (f : Flag) : ∃ ms, f.toJson = .obj ms ∧ layout.Fills 2 {} ms f.toSlots := by
  refine ⟨("flag", .str f.spelling) :: ("value_kind", f.kind.toJson)
    :: (member "default_value" (f.assumed.map FlagValue.toJson)
      ++ ("description", .str f.description)
      :: (member "key_override" (f.ownKey.map .str)
        ++ (member "bool_aliases" (f.truthWords.map TruthWords.toJson) ++ []))), ?_, ?_⟩
  · simp [toJson]
  refine Fills.slot rfl rfl ((Decoder.string_reads _).mono (by omega)) ?_
  refine Fills.slot rfl rfl f.kind.reads ?_
  -- what is filled after a member that may be left out is all but what is written behind it
  refine fills_member
    (t := { f.toSlots with description := none, ownKey := none, truthWords := none })
    rfl rfl (fun v => v.reads.mono (by omega)) FlagValue.toDraft_toJson_ne_null ?_
    (by cases h : f.assumed <;> simp [toSlots, h])
  refine Fills.slot rfl rfl ((Decoder.string_reads _).mono (by omega)) ?_
  refine fills_member (t := { f.toSlots with truthWords := none })
    rfl rfl (fun v => (Decoder.string_reads v).mono (by omega)) (fun _ => nofun) ?_
    (by cases h : f.ownKey <;> simp [toSlots, h])
  exact fills_member rfl rfl (fun w => w.reads.mono (by omega)) (fun _ => nofun) (.done _)
    (by cases h : f.truthWords <;> simp [toSlots, h])

/-- A flag is read as itself, whatever it takes and whichever of its parts are missing. -/
theorem reads (f : Flag) : decoder.Reads 3 f.toJson f := by
  obtain ⟨ms, hjson, hfills⟩ := f.fills
  have hread := (record_reads hfills rfl).map ofSlots
  rw [ofSlots_toSlots] at hread
  rw [hjson]
  exact hread

end Flag

/-! ### Sets of flags -/

namespace FlagSet

/-- A set of flags is read as itself: its keys are distinct, so it is accepted again. -/
theorem reads (s : FlagSet) : decoder.Reads 5 s.toJson s := by
  have hflags : (Decoder.list Flag.decoder).Reads 4 (.arr (s.flags.map Flag.toJson)) s.flags :=
    Decoder.list_reads fun f _ => f.reads
  have hfills : layout.Fills 4 {} [("name", .str s.name), ("version", .str s.version),
      ("decls", .arr (s.flags.map Flag.toJson))] ⟨some s.name, some s.version, some s.flags⟩ := by
    refine Fills.slot rfl rfl ((Decoder.string_reads _).mono (by omega)) ?_
    refine Fills.slot rfl rfl ((Decoder.string_reads _).mono (by omega)) ?_
    exact Fills.slot rfl rfl hflags (.done _)
  have hread := record_reads hfills rfl
  have hset : ofFlags s.name s.version s.flags = .ok s :=
    ofFlags_eq_ok_iff.2 ⟨s.distinct, rfl, rfl, rfl⟩
  refine ⟨hread.fits, fun form depth hroom => ?_⟩
  simp only [toJson, decoder, hread.decode_eq form depth hroom, bind, Except.bind,
    Option.getD_some, hset]
  rfl

end FlagSet
end CjsxConversion
