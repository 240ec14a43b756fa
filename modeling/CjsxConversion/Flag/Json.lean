import CjsxConversion.Flag.Set
import CjsxConversion.Flag.Settings
import CjsxConversion.Json.Decode
import CjsxConversion.Json.Value

/-!
# Flags and settings as JSON

A value is written as the JSON value of its kind. The kind of a flag is an object with a name
under `kind` and, for listed words, the words under `choices`. A flag is an object that leaves out
what it does not have; a set of flags is refused if two of its flags share a setting key.
-/

namespace CjsxConversion

open Json

namespace FlagValue

def toJson : FlagValue → Json
  | .bool b => .bool b
  | .int n => .int n.toInt
  | .text s => .str s

/-- Reads a truth value, a 64-bit integer or a string. -/
def decoder : Decoder FlagValue := fun form depth d => do
  Decoder.consume form depth d
  match d with
  | .bool b => return .bool b
  | .int n =>
    match Integer.narrow? n with
    | some i => return .int i
    | none => .error (.noMatch "OptionValue")
  | .str s => return .text s
  | _ => .error (.noMatch "OptionValue")

end FlagValue

namespace Settings

def toJson (s : Settings) : Json :=
  .obj (s.entries.map fun e => (e.1, e.2.toJson))

/-- Reads an object; the last value of a key counts. -/
def decoder : Decoder Settings := fun form depth d =>
  (Decoder.members FlagValue.decoder form depth d).map ofList

end Settings

namespace FlagKind

def names : List String := ["bool", "int", "enum", "string"]

def name : FlagKind → String
  | .toggle => "bool"
  | .integer => "int"
  | .choice _ => "enum"
  | .text => "string"

def toJson : FlagKind → Json
  | .choice words => .obj [("kind", .str "enum"), ("choices", .ofStrings words)]
  | k => .obj [("kind", .str k.name)]

/-- What a kind is called in a message about its object. -/
def title : String := "adjacently tagged enum ValueKind"

/-- Reads the words of a kind, given the position of its name. -/
def content : Nat → Decoder FlagKind
  | 0, _, _, d => if let .null := d then .ok .toggle
    else Decoder.misfit "unit variant ValueKind::Bool" d
  | 1, _, _, d => if let .null := d then .ok .integer
    else Decoder.misfit "unit variant ValueKind::Int" d
  | 2, form, depth, d => (Decoder.list Decoder.string form depth d).map .choice
  | _, _, _, d => if let .null := d then .ok .text
    else Decoder.misfit "unit variant ValueKind::String" d

/-- The kind of a name that stands alone. -/
def bare : Nat → Except Problem FlagKind
  | 0 => .ok .toggle
  | 1 => .ok .integer
  | 2 => .error (.missingField "choices")
  | _ => .ok .text

/-- Passes over the remaining members, in which neither part may come again. -/
def checkRest : List (Draft × Draft) → Except Problem Unit
  | [] => .ok ()
  | (k, v) :: rest => do
    let name ← Decoder.key k
    if name = "kind" ∨ name = "choices" then .error (.repeatedField name)
    else
      Decoder.skip v
      checkRest rest

/-- Passes over members up to the first that counts: its name, its value and what follows. -/
def nextPart : List (Draft × Draft) → Except Problem (Option (String × Draft × List (Draft × Draft)))
  | [] => .ok none
  | (k, v) :: rest => do
    let name ← Decoder.key k
    if name = "kind" ∨ name = "choices" then return some (name, v, rest)
    else
      Decoder.skip v
      nextPart rest

/-- Reads the members of a kind. The two parts may come in either order. -/
def fromMembers (form : Form) (depth : Nat) (ms : List (Draft × Draft)) (broken : Option Break) :
    Except Problem FlagKind := do
  match ← nextPart ms with
  | none => Decoder.finish broken; .error (.missingField "kind")
  | some ("kind", v, rest) =>
    let i ← Decoder.name names form depth v
    match ← nextPart rest with
    | none => Decoder.finish broken; bare i
    | some ("kind", _, _) => .error (.repeatedField "kind")
    | some (_, w, rest) =>
      let k ← content i form depth w
      checkRest rest
      Decoder.finish broken
      return k
  | some (_, w, rest) =>
    Decoder.consume form depth w
    match ← nextPart rest with
    | none => Decoder.finish broken; .error (.missingField "kind")
    | some ("kind", v, rest) =>
      let i ← Decoder.name names form depth v
      let k ← content i form depth w
      checkRest rest
      Decoder.finish broken
      return k
    | some (name, _, _) => .error (.repeatedField name)

/-- Reads a kind from an object, or from an array of its two parts. -/
def decoder : Decoder FlagKind := fun form depth d =>
  match d with
  | .obj ms broken => do
    Decoder.enter form depth
    fromMembers form (depth + 1) ms broken
  | .arr items broken => do
    Decoder.enter form depth
    match items with
    | [] => Decoder.finish broken; .error (.wrongLength 0 title)
    | [v] =>
      let _ ← Decoder.label names form (depth + 1) v
      Decoder.finish broken
      .error (.wrongLength 1 title)
    | v :: w :: rest =>
      let i ← Decoder.label names form (depth + 1) v
      let k ← content i form (depth + 1) w
      Decoder.Record.stop form items.length rest broken
      return k
  | d => Decoder.misfit title d

end FlagKind

namespace TruthWords

/-- Truth words that are being read. -/
structure Slots where
  on : Option String := none
  off : Option String := none

def toJson (w : TruthWords) : Json :=
  .obj [("on", .str w.on), ("off", .str w.off)]

/-- The members of truth words. -/
def layout : Decoder.Record Slots where
  title := "struct BoolAliases"
  start := {}
  fields := [
    Decoder.slot "on" true Slots.on (fun s v => { s with on := some v }) Decoder.string,
    Decoder.slot "off" true Slots.off (fun s v => { s with off := some v }) Decoder.string]

def decoder : Decoder TruthWords := fun form depth d =>
  (layout.decode form depth d).map fun s => ⟨s.on.getD "", s.off.getD ""⟩

end TruthWords

namespace Flag

/-- A flag that is being read. -/
structure Slots where
  spelling : Option String := none
  kind : Option FlagKind := none
  assumed : Option (Option FlagValue) := none
  description : Option String := none
  ownKey : Option (Option String) := none
  truthWords : Option (Option TruthWords) := none

/-- A member that is left out where there is no value. -/
def member (name : String) (v : Option Json) : List (String × Json) :=
  v.toList.map fun j => (name, j)

def toJson (f : Flag) : Json :=
  .obj ([("flag", .str f.spelling), ("value_kind", f.kind.toJson)]
    ++ member "default_value" (f.assumed.map FlagValue.toJson)
    ++ [("description", .str f.description)]
    ++ member "key_override" (f.ownKey.map .str)
    ++ member "bool_aliases" (f.truthWords.map TruthWords.toJson))

/-- The members of a flag. -/
def layout : Decoder.Record Slots where
  title := "struct OptionDecl"
  start := {}
  fields := [
    Decoder.slot "flag" true Slots.spelling (fun s v => { s with spelling := some v })
      Decoder.string,
    Decoder.slot "value_kind" true Slots.kind (fun s v => { s with kind := some v })
      FlagKind.decoder,
    Decoder.slot "default_value" false Slots.assumed (fun s v => { s with assumed := some v })
      (Decoder.optional FlagValue.decoder),
    Decoder.slot "description" false Slots.description
      (fun s v => { s with description := some v }) Decoder.string,
    Decoder.slot "key_override" false Slots.ownKey (fun s v => { s with ownKey := some v })
      (Decoder.optional Decoder.string),
    Decoder.slot "bool_aliases" false Slots.truthWords (fun s v => { s with truthWords := some v })
      (Decoder.optional TruthWords.decoder)]

/-- The flag of its parts, those that may be missing having their usual values. -/
def ofSlots (s : Slots) : Flag where
  spelling := s.spelling.getD ""
  kind := s.kind.getD .toggle
  assumed := s.assumed.getD none
  description := s.description.getD ""
  ownKey := s.ownKey.getD none
  truthWords := s.truthWords.getD none

def decoder : Decoder Flag := fun form depth d =>
  (layout.decode form depth d).map ofSlots

end Flag

namespace FlagSet

/-- A set of flags that is being read. -/
structure Slots where
  name : Option String := none
  version : Option String := none
  flags : Option (List Flag) := none

def toJson (s : FlagSet) : Json :=
  .obj [("name", .str s.name), ("version", .str s.version),
    ("decls", .arr (s.flags.map Flag.toJson))]

/-- The members of a set of flags. -/
def layout : Decoder.Record Slots where
  title := "struct RawOptionSet"
  start := {}
  fields := [
    Decoder.slot "name" true Slots.name (fun s v => { s with name := some v }) Decoder.string,
    Decoder.slot "version" false Slots.version (fun s v => { s with version := some v })
      Decoder.string,
    Decoder.slot "decls" true Slots.flags (fun s v => { s with flags := some v })
      (Decoder.list Flag.decoder)]

/-- Reads a set of flags, refusing a repeated setting key. -/
def decoder : Decoder FlagSet := fun form depth d => do
  let s ← layout.decode form depth d
  match ofFlags (s.name.getD "") (s.version.getD "") (s.flags.getD []) with
  | .ok set => return set
  | .error fault => .error (.refused fault.message)

end FlagSet
end CjsxConversion
