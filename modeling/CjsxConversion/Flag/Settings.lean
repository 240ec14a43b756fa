import CjsxConversion.Flag.Value

/-!
# Settings

A record of values by key, kept in ascending order of keys. Texts are ordered by code point,
which is also the order of their UTF-8 encodings.

Main results:
* `get?_insert`: a key that was written holds what was written last, every other key is untouched.
-/

namespace CjsxConversion

/-- Values by key. The keys ascend, so none repeats. -/
structure Settings where
  entries : List (String × FlagValue)
  ascending : entries.Pairwise fun a b => a.1 < b.1
  deriving DecidableEq

namespace Settings

def empty : Settings := ⟨[], .nil⟩

instance : Inhabited Settings := ⟨empty⟩

/-- Puts a value into its place among ascending keys. -/
def place (k : String) (v : FlagValue) : List (String × FlagValue) → List (String × FlagValue)
  | [] => [(k, v)]
  | e :: rest =>
    if k < e.1 then (k, v) :: e :: rest
    else if k = e.1 then (k, v) :: rest
    else e :: place k v rest

theorem mem_place {k : String} {v : FlagValue} {e : String × FlagValue} :
    ∀ {es : List (String × FlagValue)}, e ∈ place k v es → e = (k, v) ∨ e ∈ es
  | [], h => by simpa [place] using h
  | d :: rest, h => by
    unfold place at h
    split at h
    · simpa using h
    · split at h
      · rcases List.mem_cons.1 h with h | h
        · exact .inl h
        · exact .inr (List.mem_cons_of_mem _ h)
      · rcases List.mem_cons.1 h with h | h
        · exact .inr (h ▸ List.mem_cons_self)
        · exact (mem_place h).imp_right (List.mem_cons_of_mem _)

theorem lt_of_not_lt_of_ne {a b : String} (h : ¬a < b) (hne : ¬a = b) : b < a :=
  Decidable.byContradiction fun h' =>
    hne (String.le_antisymm (String.not_lt.1 h') (String.not_lt.1 h))

theorem pairwise_place (k : String) (v : FlagValue) :
    ∀ {es : List (String × FlagValue)}, es.Pairwise (fun a b => a.1 < b.1) →
      (place k v es).Pairwise (fun a b => a.1 < b.1)
  | [], _ => by simp [place]
  | d :: rest, h => by
    have hd := List.pairwise_cons.1 h
    unfold place
    split
    · next hlt =>
      refine List.pairwise_cons.2 ⟨fun e he => ?_, h⟩
      rcases List.mem_cons.1 he with rfl | he
      · exact hlt
      · exact String.lt_trans hlt (hd.1 e he)
    · next hnlt =>
      split
      · next heq =>
        refine List.pairwise_cons.2 ⟨fun e he => ?_, hd.2⟩
        exact heq ▸ hd.1 e he
      · next hne =>
        refine List.pairwise_cons.2 ⟨fun e he => ?_, pairwise_place k v hd.2⟩
        rcases mem_place he with rfl | he
        · exact lt_of_not_lt_of_ne hnlt hne
        · exact hd.1 e he

def insert (s : Settings) (k : String) (v : FlagValue) : Settings :=
  ⟨place k v s.entries, pairwise_place k v s.ascending⟩

/-- The value under a key. -/
def get? (s : Settings) (k : String) : Option FlagValue :=
  (s.entries.find? fun e => e.1 == k).map (·.2)

/-- The number of keys that hold a value. -/
def size (s : Settings) : Nat :=
  s.entries.length

/-- Whether nothing is set. -/
def isEmpty (s : Settings) : Bool :=
  s.entries.isEmpty

/-- Writes a row of values from left to right. -/
def insertAll (s : Settings) (row : List (String × FlagValue)) : Settings :=
  row.foldl (fun t e => t.insert e.1 e.2) s

/-- Settings written from left to right, the last value of a key counting. -/
def ofList (row : List (String × FlagValue)) : Settings :=
  empty.insertAll row

/-- Two layers: values of the upper one win. -/
def overlay (lower upper : Settings) : Settings :=
  lower.insertAll upper.entries

theorem insertAll_cons (s : Settings) (e : String × FlagValue) (row : List (String × FlagValue)) :
    s.insertAll (e :: row) = (s.insert e.1 e.2).insertAll row := rfl

@[simp] theorem get?_empty (k : String) : empty.get? k = none := rfl

theorem find?_place (k : String) (v : FlagValue) (q : String) :
    ∀ es : List (String × FlagValue), es.Pairwise (fun a b => a.1 < b.1) →
      (place k v es).find? (fun e => e.1 == q)
        = if k = q then some (k, v) else es.find? (fun e => e.1 == q)
  | [], _ => by by_cases h : k = q <;> simp [place, h]
  | d :: rest, hs => by
    have hd := List.pairwise_cons.1 hs
    have ih := find?_place k v q rest hd.2
    unfold place
    split
    · by_cases h : k = q <;> simp [h]
    · split
      · next heq => by_cases h : k = q <;> simp [heq ▸ h, h]
      · next hne =>
        by_cases hq : d.1 = q
        · have : k ≠ q := fun h => hne (h.trans hq.symm)
          simp [hq, this]
        · simp [hq, ih]

/-- A written key holds what was written; every other key is untouched. -/
theorem get?_insert (s : Settings) (k q : String) (v : FlagValue) :
    (s.insert k v).get? q = if k = q then some v else s.get? q := by
  unfold get? insert
  rw [find?_place k v q s.entries s.ascending]
  split <;> rfl

end Settings
end CjsxConversion
