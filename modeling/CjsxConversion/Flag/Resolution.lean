import CjsxConversion.Flag.Resolved
import CjsxConversion.Flag.Set
import CjsxConversion.Text.Blank

/-!
# Resolving settings against a set of flags

The flags are taken in order. A configured value is fitted to the kind of its flag.
A toggle that comes out false is not handed on: the toggle that says its opposite is given
instead, unless that one is configured itself. The first value that does not fit, and the first
false toggle without an opposite, end the resolution.

Keys that no flag of the set declares are ignored, and what the tool assumes by itself is never
filled in.
-/

namespace CjsxConversion

namespace Flag

/-- The listed word that a truth value stands for. -/
def truthWord (w : TruthWords) (b : Bool) : String :=
  if b then w.on else w.off

def kindFault (f : Flag) (v : FlagValue) : ConfigFault :=
  .wrongKind f.spelling f.kind.describe v.render

def fitWord (f : Flag) (words : List String) (v : FlagValue) : Except ConfigFault FlagValue :=
  match f.truthWords, v with
  | some w, .bool b => .ok (.text (truthWord w b))
  | tw, .text t =>
    match tw with
    | some w =>
      if t = "true" ∨ t = "false" then .ok (.text (truthWord w (t = "true")))
      else if t ∈ words then .ok (.text t) else .error (.notListed f.spelling t words)
    | none => if t ∈ words then .ok (.text t) else .error (.notListed f.spelling t words)
  | _, v => .error (.notListed f.spelling v.render words)

/-- Fits a configured value to the kind of its flag. -/
def fit (f : Flag) (v : FlagValue) : Except ConfigFault FlagValue :=
  match f.kind, v with
  | .toggle, .bool b => .ok (.bool b)
  | .toggle, .text t =>
    if t = "true" then .ok (.bool true)
    else if t = "false" then .ok (.bool false)
    else .error (f.kindFault v)
  | .toggle, .int _ => .error (f.kindFault v)
  | .integer, .int n => .ok (.int n)
  | .integer, .text t =>
    match Integer.parse? (Blank.trim t.toList) with
    | some n => .ok (.int n)
    | none => .error (.notInteger f.spelling t)
  | .integer, .bool _ => .error (f.kindFault v)
  | .choice words, v => f.fitWord words v
  | .text, .text t => .ok (.text t)
  | .text, .int n => .ok (.text (Integer.render n))
  | .text, .bool _ => .error (f.kindFault v)

def blankEntry (f : Flag) : ResolvedFlag :=
  ⟨f.spelling, f.forwardKey, none⟩

end Flag

namespace ResolvedFlag

/-- Gives a value to the first entry with a spelling. -/
def assign (spelling : String) (v : FlagValue) : List ResolvedFlag → List ResolvedFlag
  | [] => []
  | e :: rest =>
    if e.spelling = spelling then { e with value := some v } :: rest
    else e :: assign spelling v rest

end ResolvedFlag

namespace FlagSet

/-- Takes one flag into account. -/
def resolveStep (s : FlagSet) (settings : Settings) (entries : List ResolvedFlag) (f : Flag) :
    Except ConfigFault (List ResolvedFlag) :=
  match settings.get? f.settingKey with
  | none => .ok entries
  | some raw =>
    match f.fit raw with
    | .error fault => .error fault
    | .ok (.bool false) =>
      match s.negation? f with
      | none => .error (.noNegation f.spelling)
      | some g =>
        if (settings.get? g.settingKey).isNone then
          .ok (ResolvedFlag.assign g.spelling (.bool true) entries)
        else .ok entries
    | .ok v => .ok (ResolvedFlag.assign f.spelling v entries)

/-- Reads settings against the flags of a set. -/
def resolve (s : FlagSet) (settings : Settings) : Except ConfigFault ResolvedFlags := do
  let entries ← s.flags.foldlM (s.resolveStep settings) (s.flags.map Flag.blankEntry)
  return ⟨s.name, entries⟩

end FlagSet
end CjsxConversion
