import CjsxConversion.Stage

/-!
# One value for each stage

Main results:
* `get_set`: a value that was put for a stage is found there, the others are untouched.
* `get_ofFn`: values given by a function are found again.
-/

namespace CjsxConversion

/-- One value for each stage. -/
structure ByStage (α : Type) where
  macroStrip : α
  dialectConvert : α
  elementSyntax : α
  format : α
  deriving DecidableEq, Repr

namespace ByStage

variable {α β : Type}

def get (b : ByStage α) : Stage → α
  | .macroStrip => b.macroStrip
  | .dialectConvert => b.dialectConvert
  | .elementSyntax => b.elementSyntax
  | .format => b.format

/-- The values that a function gives. -/
def ofFn (f : Stage → α) : ByStage α :=
  ⟨f .macroStrip, f .dialectConvert, f .elementSyntax, f .format⟩

/-- The same value for every stage. -/
def replicate (a : α) : ByStage α := ofFn fun _ => a

/-- A function applied to every value. -/
def map (f : α → β) (b : ByStage α) : ByStage β := ofFn fun s => f (b.get s)

/-- One value replaced. -/
def set (b : ByStage α) (s : Stage) (a : α) : ByStage α :=
  ofFn fun t => if t = s then a else b.get t

/-- The values in the order of the stages. -/
def toList (b : ByStage α) : List α := Stage.all.map b.get

@[simp] theorem get_ofFn (f : Stage → α) (s : Stage) : (ofFn f).get s = f s := by
  cases s <;> rfl

@[simp] theorem get_set (b : ByStage α) (s t : Stage) (a : α) :
    (b.set s a).get t = if t = s then a else b.get t :=
  get_ofFn _ t

end ByStage
end CjsxConversion
