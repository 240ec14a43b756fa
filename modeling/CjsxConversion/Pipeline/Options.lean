import CjsxConversion.Flag.Catalog
import CjsxConversion.Flag.Resolution
import CjsxConversion.Stage

/-!
# Options of the stages

Two of the stages take flags. The settings of a conversion are resolved against both sets, that of
the dialect first, so its fault is the one that shows where both have one.
-/

namespace CjsxConversion

/-- The flags that go to the stages. -/
structure StageOptions where
  dialect : ResolvedFlags
  format : ResolvedFlags
  deriving DecidableEq, Repr

namespace StageOptions

/-- No flags for any stage. -/
def none : StageOptions := ⟨.empty, .empty⟩

def forStage (o : StageOptions) : Stage → ResolvedFlags
  | .dialectConvert => o.dialect
  | .format => o.format
  | .macroStrip | .elementSyntax => .empty

/-- Reads settings against both sets of a catalog. -/
def resolve (catalog : Catalog) (settings : Settings) : Except ConfigFault StageOptions := do
  let dialect ← catalog.dialect.resolve settings
  let format ← catalog.format.resolve settings
  return ⟨dialect, format⟩

/-- Settings resolve against both sets, or not at all. -/
theorem resolve_eq_ok_iff {c : Catalog} {settings : Settings} {r : StageOptions} :
    resolve c settings = .ok r ↔
      c.dialect.resolve settings = .ok r.dialect ∧ c.format.resolve settings = .ok r.format := by
  unfold resolve
  cases c.dialect.resolve settings with
  | error fault => simp [bind, Except.bind]
  | ok dialect =>
    cases c.format.resolve settings with
    | error fault => simp [bind, Except.bind]
    | ok format =>
      obtain ⟨rd, rf⟩ := r
      simp [bind, Except.bind, pure, Except.pure]

end StageOptions
end CjsxConversion
