import CjsxConversion.Conversion
import CjsxConversion.Tool.Json
import CjsxConversion.Usage.Reading

/-!
# Invocations

An invocation is what the arguments of the program ask for. It becomes a request when its
configuration file, if it names one, has been read; the values of the arguments are laid over
those of the file.
-/

namespace CjsxConversion

/-- What the arguments of the program ask for. A flag that was not given has no value among the
options, and the verbosity counts how often more was asked to be logged. -/
structure Invocation where
  input : Path
  output : Option Path
  configFile : Option Path
  options : Settings
  skipFormat : Bool
  eslintFix : Bool
  verbosity : UInt8
  logJson : Bool
  deriving DecidableEq

namespace Invocation

def valueOf? (given : List Given) (isMeant : Parameter → Bool) : Option String :=
  (given.find? fun g => isMeant g.parameter).bind Given.value

def serves (purpose : Purpose) : Parameter → Bool
  | .input => false
  | .switch s => s.purpose = purpose

/-- How often switches for a purpose were given. -/
def count (given : List Given) (purpose : Purpose) : Nat :=
  given.countP fun g => serves purpose g.parameter

def isOn (given : List Given) (purpose : Purpose) : Bool :=
  given.any fun g => serves purpose g.parameter

def path? (given : List Given) (purpose : Purpose) : Option Path :=
  (valueOf? given (serves purpose)).map Path.ofString

/-- The value of the flag that was given, under its key. -/
def setting? (g : Given) : Option (String × FlagValue) :=
  match g.parameter with
  | .input => none
  | .switch s =>
    match s.purpose, g.value with
    | .forward f, some text => some (f.settingKey, .text text)
    | .forward f, none => some (f.settingKey, .bool true)
    | _, _ => none

/-- The values of the flags that were given. -/
def settings (given : List Given) : Settings :=
  (given.filterMap setting?).foldl (fun s e => s.insert e.1 e.2) .empty

def countLimit : Nat := 255

/-- What the parameters that were given ask for. -/
def ofGiven (given : List Given) : Invocation where
  input := .ofString ((valueOf? given (· = .input)).getD "")
  output := path? given .output
  configFile := path? given .config
  options := settings given
  skipFormat := isOn given .skipFormat
  eslintFix := isOn given .eslintFix
  verbosity := UInt8.ofNat (min countLimit (count given .verbose))
  logJson := isOn given .logJson

def read (c : Catalog) (arguments : List Octets) : Except Stop Invocation :=
  (Given.ofArguments c arguments).map ofGiven

def readConfiguration (h : Host) (p : Path) : Except ConfigFault Configuration :=
  match h.files.readText h.here p with
  | .ok text => Configuration.ofText p text
  | .error fault => .error (.badFile p fault.message)

/-- The configuration that the arguments are laid over. -/
def base (i : Invocation) (h : Host) : Except ConfigFault Configuration :=
  match i.configFile with
  | some p => readConfiguration h p
  | none => .ok .usual

def request (i : Invocation) (h : Host) : Except Failure ConversionRequest :=
  match i.base h with
  | .ok c =>
    .ok { input := i.input, output := i.output
          config := c.overlay i.options i.skipFormat i.eslintFix }
  | .error fault => .error (.config fault)

end Invocation
end CjsxConversion
