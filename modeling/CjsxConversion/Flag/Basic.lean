import CjsxConversion.Flag.Value
import CjsxConversion.Text.Search

/-!
# Flags

A flag is declared once. Its declaration says how it is spelled, what it takes, and under which
keys its value is looked up and handed on.

The setting key of a flag joins the alphanumeric runs of its spelling, the first in lower
case and the others capitalised: `--use-js-modules` is looked up as `useJsModules`.

`--x` is switched off by `--no-x`, `--allow-x` by `--disallow-x` and `--enable-x` by
`--disable-x`, in either direction.
-/

namespace CjsxConversion

/-- The two listed words that stand for the truth values of a flag that was once a toggle. -/
structure TruthWords where
  on : String
  off : String
  deriving DecidableEq, Repr

/-- The declaration of a flag that is handed on to a tool. Its own key stands for the setting key
where the tool expects another one, and a flag with listed words may name those that stand for the
truth values. -/
structure Flag where
  spelling : String
  kind : FlagKind
  assumed : Option FlagValue := none
  description : String := ""
  ownKey : Option String := none
  truthWords : Option TruthWords := none
  deriving DecidableEq, Repr

/-- Whether a character belongs to a word of a flag's spelling. -/
def isWordChar (c : Char) : Bool :=
  c.isAlphanum

/-- A word with its first letter in upper case. -/
def capitalize : List Char → List Char
  | [] => []
  | c :: cs => c.toUpper :: cs

/-- The words of a spelling: its longest runs of ASCII letters and digits, in lower case. -/
def spellingWords (cs : List Char) : List (List Char) :=
  ((cs.splitOnP fun c => !isWordChar c).filter (· ≠ [])).map (·.map Char.toLower)

/-- Words joined into a key: every word after the first is capitalised. -/
def joinCamel : List (List Char) → List Char
  | [] => []
  | w :: ws => w ++ ws.flatMap capitalize

def spellingKey (spelling : String) : String :=
  String.ofList (joinCamel (spellingWords spelling.toList))

/-- The spelling of the toggle that says the opposite of a name. -/
def oppositeChars (name : List Char) : List Char :=
  match Search.afterStart? "disallow-".toList name with
  | some rest => "--allow-".toList ++ rest
  | none =>
  match Search.afterStart? "allow-".toList name with
  | some rest => "--disallow-".toList ++ rest
  | none =>
  match Search.afterStart? "disable-".toList name with
  | some rest => "--enable-".toList ++ rest
  | none =>
  match Search.afterStart? "enable-".toList name with
  | some rest => "--disable-".toList ++ rest
  | none =>
  match Search.afterStart? "no-".toList name with
  | some rest => "--".toList ++ rest
  | none => "--no-".toList ++ name

/-- The spelling of the toggle that says the opposite of a name. -/
def oppositeSpelling (name : String) : String :=
  String.ofList (oppositeChars name.toList)

namespace Flag

/-- The spelling without its leading dashes. -/
def name (f : Flag) : String :=
  String.ofList (f.spelling.toList.dropWhile (· = '-'))

/-- The key under which settings hold the flag's value. -/
def settingKey (f : Flag) : String :=
  spellingKey f.spelling

/-- The key under which the value is handed on. -/
def forwardKey (f : Flag) : String :=
  f.ownKey.getD f.settingKey

def takesValue (f : Flag) : Bool :=
  f.kind ≠ .toggle

/-- What stands for the value in help texts. -/
def hint (f : Flag) : Option String :=
  match f.kind with
  | .toggle => none
  | .integer => some "int"
  | .choice words => some (String.intercalate "|" words)
  | .text => some "value"

end Flag
end CjsxConversion
