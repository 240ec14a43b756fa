import CjsxConversion.Flag.Resolved
import CjsxConversion.Path
import CjsxConversion.Tool.Fault

/-!
# Transformers

A transformer answers a request with a text or a fault. It may read and change the world around
it, of which nothing is assumed here: the type of worlds is a parameter.
-/

namespace CjsxConversion

/-- What a stage asks of its transformer. -/
structure Request where
  text : String
  options : ResolvedFlags := .empty
  filePath : Option Path := none
  deriving DecidableEq, Repr

/-- Answers requests, in a world that it may change. -/
abbrev Transformer (σ : Type) := Request → σ → Except ToolFault String × σ

namespace Transformer

def ofFunction {σ : Type} (f : Request → Except String String) : Transformer σ := fun r w =>
  match f r with
  | .ok text => (.ok text, w)
  | .error message => (.error (.raised message), w)

/-- A transformer of a part of the world, in the whole. -/
def within {σ τ : Type} (part : σ → τ) (replace : σ → τ → σ) (t : Transformer τ) :
    Transformer σ := fun r w =>
  let (answer, p) := t r (part w)
  (answer, replace w p)

end Transformer
end CjsxConversion
