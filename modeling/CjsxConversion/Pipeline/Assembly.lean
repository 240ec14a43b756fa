import CjsxConversion.Failure
import CjsxConversion.Pipeline.ByStage

/-!
# Assembling a pipeline

Every stage has a slot. What is placed in a slot replaces what was there before, and a pipeline is
complete when no slot is empty.
-/

namespace CjsxConversion

/-- Slots for the stages that are being filled. -/
structure Assembly (α : Type) where
  slots : ByStage (Option α)

namespace Assembly

variable {α : Type}

/-- No slot is filled. -/
def empty : Assembly α := ⟨.replicate none⟩

def place (p : Assembly α) (s : Stage) (a : α) : Assembly α := ⟨p.slots.set s (some a)⟩

/-- Fills slots one after the other. -/
def placeAll (p : Assembly α) (placements : List (Stage × α)) : Assembly α :=
  placements.foldl (fun q e => q.place e.1 e.2) p

/-- The stages whose slot is empty, in order. -/
def missing (p : Assembly α) : List Stage :=
  Stage.all.filter fun s => (p.slots.get s).isNone

def missingFault (stages : List Stage) : AssemblyFault :=
  ⟨"Pipeline is missing stages: " ++ String.intercalate ", " (stages.map Stage.name), stages⟩

/-- Takes what stands in the slots, if no slot is empty. -/
def build (p : Assembly α) : Except AssemblyFault (ByStage α) :=
  match p.slots with
  | ⟨some a, some b, some c, some d⟩ => .ok ⟨a, b, c, d⟩
  | _ => .error (missingFault p.missing)

end Assembly
end CjsxConversion
