import CjsxConversion.Pipeline.Transformer
import CjsxConversion.Stage
import CjsxConversion.Text.Lines

/-!
# Stand-ins for the four tools

Small functions that do just enough of each tool's work to take a source through a pipeline.

`<Tag a="b" />` becomes `React.createElement(Tag, {a: "b"})`. An element without its
end is an error at the place where it begins.

`Name = ->` begins a function, and every other line that shows something becomes a
statement.

`React.createElement(Tag, {a: "b"})` becomes `<Tag a="b" />`.

Each level of indentation, which is two octets of blanks, gets the wanted width.
-/

namespace CjsxConversion
namespace StandIn

/-! ### Macros -/

/-- How a call that makes an element begins. -/
def elementCall : List Char := "React.createElement(".toList

/-- An attribute as a property, if it has a value. -/
def property? (word : List Char) : Option (List Char) :=
  (Search.cut? ['='] word).map fun p => p.1 ++ ": ".toList ++ p.2

/-- Parts with a separator between them. -/
def joined (separator : String) (parts : List (List Char)) : List Char :=
  List.intercalate separator.toList parts

theorem joined_cons_cons (separator : String) (p q : List Char) (parts : List (List Char)) :
    joined separator (p :: q :: parts) =
      p ++ (separator.toList ++ joined separator (q :: parts)) := by
  rw [joined, List.intercalate_cons_cons, List.append_assoc, joined]

/-- Joined parts end with the last one. -/
theorem exists_joined_concat (separator : String) (parts : List (List Char)) (last : List Char) :
    ∃ front, joined separator (parts ++ [last]) = front ++ last := by
  induction parts with
  | nil => exact ⟨[], by simp [joined]⟩
  | cons p parts ih =>
    obtain ⟨front, hfront⟩ := ih
    refine ⟨p ++ (separator.toList ++ front), ?_⟩
    cases hparts : parts ++ [last] with
    | nil => simp at hparts
    | cons q rest =>
      rw [List.cons_append, hparts, joined_cons_cons, ← hparts, hfront]
      simp only [List.append_assoc]

def call (element : List Char) : List Char :=
  let (tag, attributes) := Lines.cutAtBlank (Blank.trim element)
  match (Lines.words attributes).filterMap property? with
  | [] => elementCall ++ tag ++ [')']
  | properties => elementCall ++ tag ++ ", \x7b".toList ++ joined ", " properties ++ "\x7d)".toList

/-- The fault of an element without its end. -/
def unterminated (offset : Nat) : String :=
  "Parse error at offset " ++ toString offset ++ ": unterminated element"

/-- Expands macros, given the offset in octets and the element that has begun, if one has. -/
def expandFrom : Nat → Option (Nat × List Char) → List Char → Except String (List Char)
  | _, none, [] => .ok []
  | _, some (start, _), [] => .error (unterminated start)
  | n, none, c :: cs =>
    if c = '<' then expandFrom (n + 1) (some (n, [])) cs
    else (expandFrom (n + c.utf8Size) none cs).map (c :: ·)
  | n, some (_, element), '/' :: '>' :: cs => (expandFrom (n + 2) none cs).map (call element ++ ·)
  | n, some (start, element), c :: cs =>
    expandFrom (n + c.utf8Size) (some (start, element ++ [c])) cs

/-- Expands element macros into calls. -/
def macroStrip (r : Request) : Except String String :=
  (expandFrom 0 none r.text.toList).map String.ofList

/-! ### Dialect -/

/-- The word that declares a name. -/
def keyword (options : ResolvedFlags) : String :=
  if options.get? "preferLet" = some (.bool true) then "let" else "const"

/-- A text without an end that it may have. -/
def withoutEnd? (ending cs : List Char) : Option (List Char) :=
  (Search.afterStart? ending.reverse cs.reverse).map List.reverse

def convertLine (keyword : String) (line : List Char) : List Char :=
  let line := Blank.trimEnd line
  if line = [] then ['\n']
  else
    match withoutEnd? "= ->".toList line with
    | some name => keyword.toList ++ ' ' :: Blank.trim name ++ " = () =>\n".toList
    | none => line ++ ";\n".toList

/-- Converts the dialect line by line. -/
def dialectConvert (r : Request) : Except String String :=
  .ok (String.ofList
    ((Lines.lines r.text.toList).flatMap (convertLine (keyword r.options))))

/-! ### Elements -/

def attribute? (property : List Char) : Option (List Char) :=
  (Search.cut? [':'] property).map fun p =>
    let value := Blank.trim p.2
    ' ' :: Blank.trim p.1 ++ '=' ::
      (if value.head? = some '"' then value else '\x7b' :: value ++ ['\x7d'])

/-- A text without the braces around it. -/
def withoutBraces (cs : List Char) : List Char :=
  (((cs.dropWhile (· = '\x7b')).reverse).dropWhile (· = '\x7d')).reverse

/-- The element that a call makes. -/
def element (arguments : List Char) : List Char :=
  let (tag, properties) := (Search.cut? [','] arguments).getD (arguments, [])
  let properties := (withoutBraces (Blank.trim properties)).splitOn ','
  '<' :: Blank.trim tag ++ properties.flatMap (fun p => (attribute? p).getD []) ++ " />".toList

/-- Turns the calls that make elements into element syntax. -/
def withElements (cs : List Char) : Except String (List Char) :=
  match _hb : Search.cut? elementCall cs with
  | none => .ok cs
  | some (before, after) =>
    match _ha : Search.cut? [')'] after with
    | none => .error "SyntaxError: Unexpected token, expected \")\""
    | some (arguments, rest) => (withElements rest).map (before ++ element arguments ++ ·)
termination_by cs.length
decreasing_by
  have h := congrArg List.length (Search.eq_append_of_cut? _hb)
  have h' := congrArg List.length (Search.eq_append_of_cut? _ha)
  simp only [List.length_append, List.length_singleton] at h h'
  omega

/-- Turns element calls into element syntax. -/
def elementSyntax (r : Request) : Except String String :=
  (withElements r.text.toList).map String.ofList

/-! ### Format -/

/-- The number of octets in the encoding of characters. -/
def octets (cs : List Char) : Nat :=
  cs.foldr (fun c n => c.utf8Size + n) 0

/-- One line with a wanted width for each level of indentation. -/
def reindent (width : Nat) (line : List Char) : List Char :=
  match Blank.trim line with
  | [] => []
  | content =>
    List.replicate (octets (line.takeWhile Blank.isBlank) / 2 * width) ' ' ++ content

/-- Lines without the empty ones at the end. -/
def withoutLastBlanks (ls : List (List Char)) : List (List Char) :=
  (ls.reverse.dropWhile (· = [])).reverse

/-- Every line reindented, with one line feed at the end. -/
def reformat (width : Nat) (cs : List Char) : List Char :=
  joined "\n" (withoutLastBlanks ((Lines.lines cs).map (reindent width))) ++ ['\n']

/-- The width that is wanted for a level of indentation. -/
def indentWidth (options : ResolvedFlags) : Except String Nat :=
  match options.get? "tabWidth" with
  | some (.int n) =>
    if 0 ≤ n.toInt then .ok n.toInt.toNat else .error "number too small to fit in target type"
  | _ => .ok 2

/-- Reindents a text. -/
def format (r : Request) : Except String String := do
  let width ← indentWidth r.options
  return String.ofList (reformat width r.text.toList)

/-- The stand-in for the tool of a stage. -/
def forStage : Stage → Request → Except String String
  | .macroStrip => macroStrip
  | .dialectConvert => dialectConvert
  | .elementSyntax => elementSyntax
  | .format => format

def toolName : Stage → String
  | .macroStrip => "cjsx-transform"
  | .dialectConvert => "decaffeinate"
  | .elementSyntax => "babel"
  | .format => "prettier"

end StandIn
end CjsxConversion
