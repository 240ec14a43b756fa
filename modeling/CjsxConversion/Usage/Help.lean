import CjsxConversion.Text.Search
import CjsxConversion.Text.Terminal
import CjsxConversion.Usage.Fault
import CjsxConversion.Usage.Switch

/-!
# The help text

The help text lists the parameters under headings. What a parameter is called stands on the left,
what it is there for on the right; where the right side of a heading would become too narrow for
one of its texts, all its texts stand below the names. Sequences that a terminal would obey are left
out of the finished text.
-/

namespace CjsxConversion
namespace Help

def program : String := "cjsx-to-jsx"

def version : String := "0.1.0"

/-- What the program is there for. -/
def purpose : String := "Convert CJSX (CoffeeScript with JSX) files to JSX"

def usage : String := "Usage: " ++ program ++ " [OPTIONS] " ++ Parameter.inputText

/-- The number of columns that help texts are made for. -/
def columns : Nat := 100

/-- The blanks before a name, and between a name and its text. -/
def gap : Nat := 2

/-- The columns that a letter with its dash and its comma takes. -/
def letterWidth : Nat := 4

/-- The blanks before a text that stands below its name. -/
def indentBelow : Nat := 10

/-- The blanks before and after a name. -/
def margin : Nat := 2 * gap

def blanks (n : Nat) : String := String.ofList (List.replicate n ' ')

/-- A parameter in the help text: its letter with a dash and a comma, or as many blanks; its name
with the hint for its value; the text, and what is said after it. -/
structure Entry where
  letter : String
  name : String
  text : String
  remark : String := ""
  deriving DecidableEq, Repr

namespace Entry

def ofInput : Entry where
  letter := ""
  name := Parameter.inputText
  text := "The .cjsx or .coffee file to convert"

def ofSwitch (s : Switch) : Entry where
  letter := match s.short with
    | some c => String.ofList ['-', c, ',', ' ']
    | none => blanks letterWidth
  name := s.text
  text := s.help
  remark := match s.alternative with
    | some name => "[alias: --" ++ name ++ "]"
    | none => ""

/-- The columns that the letter and the name take. -/
def width (e : Entry) : Nat := e.letter.length + Terminal.width e.name

/-- The text with the remark, its lines indented. The letter n between braces ends a line too. -/
def fullText (indent : Nat) (e : Entry) : String :=
  let text := Search.replaceAll "\x7bn\x7d" "\n" e.text
  let text :=
    if e.remark = "" then text else if text = "" then e.remark else text ++ " " ++ e.remark
  Search.replaceAll "\n" ("\n" ++ blanks indent) text

/-- Whether the text beside the name would be too narrow. -/
def isCramped (widest : Nat) (e : Entry) : Bool :=
  let taken := widest + margin
  taken ≤ columns && columns * 2 < taken * 5 &&
    columns - taken < Terminal.width e.text + Terminal.width e.remark

/-- The entry, its text below its name or beside it. -/
def render (below : Bool) (widest : Nat) (e : Entry) : String :=
  blanks gap ++ e.letter ++ e.name ++
    if below then "\n" ++ blanks indentBelow ++ e.fullText indentBelow
    else blanks (widest + gap - e.width) ++ e.fullText (widest + 2 * gap)

end Entry

/-- The width of the widest entry, which is at least that of a letter with its dash. -/
def widest (es : List Entry) : Nat :=
  es.foldr (fun e n => max e.width n) 2

/-- Parameters under a heading. -/
structure Section where
  heading : String
  entries : List Entry
  deriving DecidableEq, Repr

namespace Section

def render (s : Section) : String :=
  let n := widest s.entries
  let below := s.entries.any (Entry.isCramped n)
  s.heading ++ ":\n" ++ String.intercalate "\n" (s.entries.map (Entry.render below n))

end Section

def flagSection (heading : String) (s : FlagSet) : Section :=
  ⟨heading, s.flags.map fun f => .ofSwitch (.ofFlag f)⟩

/-- The sections of the help text. -/
def sections (c : Catalog) : List Section := [
  ⟨"Arguments", [.ofInput]⟩,
  ⟨"Options", (Switch.own ++ Switch.informing).map .ofSwitch⟩,
  flagSection "Decaffeinate options" c.dialect,
  flagSection "Prettier options" c.format]

/-- A text without blanks and ends of lines at its end. -/
def trimEnd (s : String) : String :=
  String.ofList ((s.toList.reverse.dropWhile fun c => c = ' ' || c = '\n').reverse)

def text (c : Catalog) : String :=
  let shown := (sections c).filter fun s => s.entries ≠ []
  Terminal.plain (trimEnd (purpose ++ "\n\n" ++ usage ++ "\n\n"
    ++ String.intercalate "\n\n" (shown.map Section.render)) ++ "\n")

/-- The line that tells the version. -/
def versionText : String := program ++ " " ++ version ++ "\n"

/-- What is shown for a fault of the arguments. -/
def misuseText (f : UsageFault) : String :=
  Terminal.plain ("error: " ++ f.message ++ "\n"
    ++ String.join (f.details.map fun d => blanks gap ++ d ++ "\n")
    ++ "\n" ++ usage ++ "\n\nFor more information, try '--help'.\n")

end Help
end CjsxConversion
