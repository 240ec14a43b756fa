import CjsxConversion.Json.Draft
import CjsxConversion.Text.Quoted

/-!
# Decoding drafts

A decoder takes a draft for a value of some type, or says what is wrong with it. It looks at the
parts in the order in which they are written, and the first problem counts: a misfit before a flaw
of the text hides the flaw.

A draft is either a text that is still being read, or a value at hand whose objects
have distinct keys in ascending order. The forms differ in a few problems only.

In a text, no value that a decoder looks into is nested in 128 collections.
-/

namespace CjsxConversion
namespace Json

/-- Where a draft comes from. -/
inductive Form where
  | text
  | inline
  deriving DecidableEq, Repr

/-- Why a draft is not taken. -/
inductive Problem where
  | missingField (name : String)
  | repeatedField (name : String)
  | unknownField (name : String) (expected : List String)
  | unknownChoice (name : String) (expected : List String)
  | noMatch (union : String)
  | wrongType (found expected : String)
  | wrongValue (found expected : String)
  | wrongLength (length : Nat) (expected : String)
  | refused (reason : String)
  | fault (f : Fault)
  deriving DecidableEq, Repr

/-- A name between backticks. -/
def ticked (name : String) : String :=
  "`" ++ name ++ "`"

/-- The names that would have been taken. -/
def anyOf : List String → String
  | [] => "there are no variants"
  | [a] => "expected " ++ ticked a
  | [a, b] => "expected " ++ ticked a ++ " or " ++ ticked b
  | names => "expected one of " ++ String.intercalate ", " (names.map ticked)

namespace Problem

/-- The sentence shown for a problem. -/
def message : Problem → String
  | .missingField name => "missing field " ++ ticked name
  | .repeatedField name => "duplicate field " ++ ticked name
  | .unknownField name expected => "unknown field " ++ ticked name ++ ", " ++ anyOf expected
  | .unknownChoice name expected => "unknown variant " ++ ticked name ++ ", " ++ anyOf expected
  | .noMatch union => "data did not match any variant of untagged enum " ++ union
  | .wrongType found expected => "invalid type: " ++ found ++ ", expected " ++ expected
  | .wrongValue found expected => "invalid value: " ++ found ++ ", expected " ++ expected
  | .wrongLength n expected => "invalid length " ++ toString n ++ ", expected " ++ expected
  | .refused reason => reason
  | .fault f => f.message

end Problem

/-- Decodes a draft that lies within a number of collections. -/
abbrev Decoder (α : Type) := Form → Nat → Draft → Except Problem α

namespace Draft

/-- A sound draft in a message. -/
def describe : Draft → String
  | .null => "null"
  | .bool b => "boolean " ++ ticked (if b then "true" else "false")
  | .int n => "integer " ++ ticked (toString n)
  | .float shown => "floating point " ++ ticked shown
  | .str s => "string " ++ Quoted.quote s
  | .arr _ _ => "sequence"
  | .obj _ _ => "map"
  | .bad _ => "nothing"

end Draft

namespace Decoder

variable {α σ : Type}

/-- The problem of a draft of the wrong type: its flaw, if it has one. -/
def misfit (expected : String) : Draft → Except Problem α
  | .bad flaw => .error (.fault flaw.read)
  | d => .error (.wrongType d.describe expected)

/-- Checks that one more collection may be entered. -/
def enter (form : Form) (depth : Nat) : Except Problem Unit :=
  if form = .text ∧ 127 ≤ depth then .error (.fault .tooDeep) else .ok ()

def string : Decoder String := fun _ _ d =>
  match d with
  | .str s => .ok s
  | d => misfit "a string" d

/-- A truth value. -/
def bool : Decoder Bool := fun _ _ d =>
  match d with
  | .bool b => .ok b
  | d => misfit "a boolean" d

/-- An integer within bounds, which have a name. -/
def intWithin (least greatest : Int) (name : String) : Decoder Int := fun _ _ d =>
  match d with
  | .int n =>
    if least ≤ n ∧ n ≤ greatest then .ok n
    else .error (.wrongValue (Draft.int n).describe name)
  | d => misfit name d

/-- A value or `null`. -/
def optional (item : Decoder α) : Decoder (Option α) := fun form depth d =>
  match d with
  | .null => .ok none
  | d => (item form depth d).map some

/-- The end of a collection that is read through. -/
def finish (broken : Option Break) : Except Problem Unit :=
  match broken with
  | none => .ok ()
  | some b => .error (.fault b.next)

/-- An array of values. -/
def list (item : Decoder α) : Decoder (List α) := fun form depth d =>
  match d with
  | .arr items broken => do
    enter form depth
    let values ← items.mapM (item form (depth + 1))
    finish broken
    return values
  | d => misfit "a sequence" d

def key : Draft → Except Problem String
  | .str s => .ok s
  | .bad flaw =>
    if flaw.choose = .noValue then .error (.fault .keyNotString) else .error (.fault flaw.read)
  | _ => .error (.fault .keyNotString)

/-- Passes over the key of a member. -/
def skipKey : Draft → Except Problem Unit
  | .str _ => .ok ()
  | .bad flaw =>
    if flaw.choose = .noValue then .error (.fault .keyNotString)
    else
      match flaw.skip with
      | some f => .error (.fault f)
      | none => .ok ()
  | _ => .error (.fault .keyNotString)

/-- An object read as keys with values, in the order of the text. -/
def members (item : Decoder α) : Decoder (List (String × α)) := fun form depth d =>
  match d with
  | .obj ms broken => do
    enter form depth
    let values ← ms.mapM fun m => do
      let k ← key m.1
      let v ← item form (depth + 1) m.2
      return (k, v)
    finish broken
    return values
  | d => misfit "a map" d

/-! ### Values that are not looked into -/

mutual

/-- Takes any sound value, nested within bounds. -/
def consume (form : Form) (depth : Nat) : Draft → Except Problem Unit
  | .bad flaw => .error (.fault flaw.read)
  | .arr items broken => do
    enter form depth
    consumeItems form (depth + 1) items
    finish broken
  | .obj ms broken => do
    enter form depth
    consumeMembers form (depth + 1) ms
    finish broken
  | _ => .ok ()

/-- Takes the elements of an array. -/
def consumeItems (form : Form) (depth : Nat) : List Draft → Except Problem Unit
  | [] => .ok ()
  | d :: ds => do
    consume form depth d
    consumeItems form depth ds

/-- Takes the members of an object. -/
def consumeMembers (form : Form) (depth : Nat) : List (Draft × Draft) → Except Problem Unit
  | [] => .ok ()
  | (k, v) :: ms => do
    let _ ← key k
    consume form depth v
    consumeMembers form depth ms

end

mutual

/-- Passes over a value. -/
def skip : Draft → Except Problem Unit
  | .bad flaw =>
    match flaw.skip with
    | some f => .error (.fault f)
    | none => .ok ()
  | .arr items broken => do
    skipItems items
    match broken with
    | some b => .error (.fault b.skip)
    | none => .ok ()
  | .obj ms broken => do
    skipMembers ms
    match broken with
    | some b => .error (.fault b.skip)
    | none => .ok ()
  | _ => .ok ()

/-- Passes over the elements of an array. -/
def skipItems : List Draft → Except Problem Unit
  | [] => .ok ()
  | d :: ds => do
    skip d
    skipItems ds

/-- Passes over the members of an object. -/
def skipMembers : List (Draft × Draft) → Except Problem Unit
  | [] => .ok ()
  | (k, v) :: ms => do
    skipKey k
    skip v
    skipMembers ms

end

/-! ### Records -/

/-- A member of a record that is being filled. -/
structure Field (σ : Type) where
  name : String
  required : Bool
  isSet : σ → Bool
  read : σ → Decoder σ

/-- A record that is written as an object with named members, or as an array of them. -/
structure Record (σ : Type) where
  title : String
  fields : List (Field σ)
  closed : Bool := false
  start : σ

namespace Record

def names (r : Record σ) : List String :=
  r.fields.map Field.name

def readMembers (r : Record σ) (form : Form) (depth : Nat) :
    σ → List (Draft × Draft) → Except Problem σ
  | s, [] => .ok s
  | s, (k, v) :: rest => do
    let name ← key k
    match r.fields.find? fun f => f.name == name with
    | none =>
      if r.closed then .error (.unknownField name r.names)
      else
        skip v
        r.readMembers form depth s rest
    | some f =>
      if f.isSet s then .error (.repeatedField name)
      else
        let t ← f.read s form depth v
        r.readMembers form depth t rest

/-- Checks that every member that must be there has been read. -/
def checkMissing (s : σ) : List (Field σ) → Except Problem σ
  | [] => .ok s
  | f :: rest =>
    if f.required && !f.isSet s then .error (.missingField f.name) else checkMissing s rest

/-- The record with the number of its members. -/
def sized (r : Record σ) : String :=
  r.title ++ " with " ++ toString r.fields.length
    ++ (if r.fields.length = 1 then " element" else " elements")

/-- Reads members by position. What is left of the array is returned, too. -/
def readItems (r : Record σ) (form : Form) (depth : Nat) (broken : Option Break) (index : Nat) :
    σ → List (Field σ) → List Draft → Except Problem (σ × List Draft)
  | s, [], rest => .ok (s, rest)
  | s, f :: fs, [] => do
    finish broken
    if f.required then .error (.wrongLength index r.sized)
    else r.readItems form depth broken (index + 1) s fs []
  | s, f :: fs, d :: ds => do
    let t ← f.read s form depth d
    r.readItems form depth broken (index + 1) t fs ds

/-- The end of an array of which enough has been read. -/
def stop (form : Form) (total : Nat) (rest : List Draft) (broken : Option Break) :
    Except Problem Unit :=
  match form, rest, broken with
  | .inline, _ :: _, _ => .error (.wrongLength total "fewer elements in array")
  | .text, _ :: _, _ => .error (.fault .trailingText)
  | _, [], some b => .error (.fault b.stop)
  | _, [], none => .ok ()

/-- Decodes a record from an object or an array. -/
def decode (r : Record σ) : Decoder σ := fun form depth d =>
  match d with
  | .obj ms broken => do
    enter form depth
    let s ← r.readMembers form (depth + 1) r.start ms
    finish broken
    checkMissing s r.fields
  | .arr items broken => do
    enter form depth
    let (s, rest) ← r.readItems form (depth + 1) broken 0 r.start r.fields items
    stop form items.length rest broken
    return s
  | d => misfit r.title d

end Record

/-- A member that goes into one optional slot of a record. -/
def slot (name : String) (required : Bool) (get : σ → Option α) (set : σ → α → σ)
    (item : Decoder α) : Field σ :=
  { name, required, isSet := fun s => (get s).isSome,
    read := fun s form depth d => (item form depth d).map (set s) }

/-! ### Choices -/

/-- The position of a name among those of a choice. -/
def choiceIndex (names : List String) (name : String) : Except Problem Nat :=
  match names.findIdx? (· == name) with
  | some i => .ok i
  | none => .error (.unknownChoice name names)

/-- The name of a choice that stands by itself. -/
def choiceName : Draft → Except Problem String
  | .str s => .ok s
  | d => misfit "variant identifier" d

/-- What must follow the one member of a choice. -/
def choiceEnd (rest : List (Draft × Draft)) (broken : Option Break) : Except Problem Unit :=
  match rest, broken with
  | [], none => .ok ()
  | [], some b =>
    if b.next = .endInObject then .error (.fault .endInObject) else .error (.fault .noValue)
  | _ :: _, _ => .error (.fault .noValue)

/-- Decodes a choice: its bare name, or an object that holds the content under the name. -/
def choice (names : List String) (bare : Nat → Except Problem α) (full : Nat → Decoder α) :
    Decoder α := fun form depth d =>
  match d, form with
  | .str s, _ => do
    let i ← choiceIndex names s
    bare i
  | .obj ms broken, .text => do
    enter .text depth
    match ms with
    | [] => .error (.fault (if broken.isSome then .endInValue else .noValue))
    | (k, v) :: rest => do
      let name ← key k
      let i ← choiceIndex names name
      let a ← match v with
        | .bad ⟨.noColon, _, _⟩ => .error (.fault .noColon)
        | v => full i .text (depth + 1) v
      choiceEnd rest broken
      return a
  | .obj [(k, v)] _, .inline => do
    let name ← key k
    let i ← choiceIndex names name
    full i .inline (depth + 1) v
  | .obj _ _, .inline => .error (.wrongValue "map" "map with a single key")
  | .bad flaw, _ => .error (.fault flaw.choose)
  | _, .text => .error (.fault .noValue)
  | d, .inline => .error (.wrongType d.describe "string or map")

/-- The content of a choice that has none. -/
def unit : Decoder Unit := fun _ _ d =>
  match d with
  | .null => .ok ()
  | d => misfit "unit" d

/-- Decodes a name of a choice that stands by itself. -/
def label (names : List String) : Decoder Nat := fun _ _ d =>
  choiceName d >>= choiceIndex names

/-- Decodes a choice among plain names. -/
def name (names : List String) : Decoder Nat :=
  choice names (fun i => .ok i) (fun i form depth d => (unit form depth d).map fun _ => i)

end Decoder

/-! ### Whole texts and values at hand -/

/-- Decodes a whole text. -/
def Document.decode {α : Type} (decoder : Decoder α) (doc : Document) : Except Problem α := do
  let a ← decoder .text 0 doc.value
  if doc.trailing then .error (.fault .trailingText) else return a

end Json
end CjsxConversion
