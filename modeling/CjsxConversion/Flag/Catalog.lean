import CjsxConversion.Flag.Set

/-!
# The built-in sets of flags

The flags of the two tools that take options: the converter of the dialect and the formatter.
Each set carries the version of the tool that it was written for.
-/

namespace CjsxConversion

/-- A toggle with its help text. -/
structure Toggle where
  spelling : String
  description : String

namespace Toggle

def flag (t : Toggle) : Flag :=
  { spelling := t.spelling, kind := .toggle, description := t.description }

end Toggle

/-- The sets of flags of both tools that take options. -/
structure Catalog where
  dialect : FlagSet
  format : FlagSet
  deriving DecidableEq

namespace Catalog

def dialectToggles : List Toggle := [
   ⟨"--keep-commonjs", "Do not convert require and module.exports to import and export."⟩,
   ⟨"--prefer-const", "Use \"const\" when possible in output code."⟩,
   ⟨"--loose", "Enable all --loose... options."⟩,
   ⟨"--loose-default-params", "Convert CS default params to JS default params."⟩,
   ⟨"--loose-for-expressions", "Do not wrap expression loop targets in Array.from."⟩,
   ⟨"--loose-for-of", "Do not wrap JS for...of loop targets in Array.from."⟩,
   ⟨"--loose-includes", "Do not wrap in Array.from when converting in to includes."⟩,
   ⟨"--loose-comparison-negation", "Allow unsafe simplifications like !(a > b) to a <= b."⟩,
   ⟨"--allow-invalid-constructors",
     "Don't error when constructors use this before super or omit the super call in a subclass."⟩,
   ⟨"--disallow-invalid-constructors",
     "Give an error when constructors use this before super or omit the super call in a subclass."⟩,
   ⟨"--enable-babel-constructor-workaround",
     "Use a hacky babel-specific workaround to allow this before super in constructors."⟩,
   ⟨"--disable-babel-constructor-workaround",
     "Never include the Babel/TypeScript workaround code to allow this before super in constructors."⟩,
   ⟨"--literate", "Treat the input file as Literate CoffeeScript."⟩,
   ⟨"--modernize-js",
     "Treat the input as JavaScript and only run the JavaScript-to-JavaScript transforms."⟩,
   ⟨"--disable-suggestion-comment",
     "Do not include a comment with followup suggestions at the top of the output file."⟩,
   ⟨"--use-optional-chaining", "Use the upcoming optional chaining syntax for operators like ?.."⟩,
   ⟨"--no-array-includes", "Do not use Array.prototype.includes in generated code."⟩,
   ⟨"--prefer-let", "Use let instead of const for most variables in output code."⟩]

/-- The flags of decaffeinate, which spells two of its keys in a way of its own. -/
def dialectFlags : List Flag :=
  dialectToggles.map Toggle.flag ++ [
    { spelling := "--use-js-modules", kind := .toggle, ownKey := some "useJSModules",
      description := "Convert require and module.exports to import and export." },
    { spelling := "--loose-js-modules", kind := .toggle, ownKey := some "looseJSModules",
      description := "Allow named exports when converting to JS modules." },
    { spelling := "--safe-import-function-identifiers", kind := .text,
      description := "Comma-separated list of function names that may safely be in the "
        ++ "import/require section of the file." }]

def formatToggles : List Toggle := [
   ⟨"--use-tabs", "Indent with tabs instead of spaces."⟩,
   ⟨"--single-quote", "Use single quotes instead of double quotes."⟩,
   ⟨"--bracket-spacing", "Print spaces between brackets."⟩,
   ⟨"--no-bracket-spacing", "Do not print spaces between brackets."⟩,
   ⟨"--jsx-bracket-same-line", "Put > on the last line instead of at a new line."⟩,
   ⟨"--no-prose-wrap", "Do not wrap prose. (markdown)"⟩,
   ⟨"--no-semi", "Do not print semicolons, except at the beginning of lines which may need them."⟩]

/-- The flags of prettier. Trailing commas were once a toggle. -/
def formatFlags : List Flag :=
  [{ spelling := "--print-width", kind := .integer, assumed := some (.int 80),
     description := "The line length where Prettier will try wrap." },
   { spelling := "--tab-width", kind := .integer, assumed := some (.int 2),
     description := "Number of spaces per indentation level." },
   { spelling := "--trailing-comma", kind := .choice ["none", "es5", "all"],
     assumed := some (.text "none"), truthWords := some ⟨"es5", "none"⟩,
     description := "Print trailing commas wherever possible when multi-line." },
   { spelling := "--parser",
     kind := .choice ["flow", "babylon", "babel", "typescript", "css", "less", "scss", "json",
       "graphql", "markdown"],
     assumed := some (.text "babylon"), description := "Which parser to use." }]
  ++ formatToggles.map Toggle.flag

def decaffeinate : FlagSet :=
  ⟨"decaffeinate", "decaffeinate 4", dialectFlags, by decide +kernel⟩

def prettier : FlagSet :=
  ⟨"prettier", "prettier 1", formatFlags, by decide +kernel⟩

def builtIn : Catalog := ⟨decaffeinate, prettier⟩

instance : Inhabited Catalog := ⟨builtIn⟩

/-- Every flag of both sets. -/
def flags (c : Catalog) : List Flag :=
  c.dialect.flags ++ c.format.flags

end Catalog
end CjsxConversion
