import CjsxConversion.Flag.Settings
import CjsxConversion.Tool.Chain

/-!
# Configurations

Everything that configures a conversion apart from its paths. Values of a command line are laid
over those of a configuration file.
-/

namespace CjsxConversion

/-- What configures a conversion. -/
structure Configuration where
  options : Settings := .empty
  skipFormat : Bool := false
  eslintFix : Bool := false
  toolchain : Toolchain := .usual
  deriving DecidableEq

namespace Configuration

/-- The configuration where nothing is set. -/
def usual : Configuration := {}

instance : Inhabited Configuration := ⟨usual⟩

/-- Lays values over a configuration. A switch is on if either side switches it on. -/
def overlay (c : Configuration) (options : Settings) (skipFormat eslintFix : Bool) :
    Configuration :=
  { c with
    options := c.options.overlay options
    skipFormat := c.skipFormat || skipFormat
    eslintFix := c.eslintFix || eslintFix }

end Configuration
end CjsxConversion
