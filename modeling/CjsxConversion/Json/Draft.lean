import CjsxConversion.Json.Fault

/-!
# Drafts

A draft is what a text says as JSON, as far as it goes. A text that is no JSON still has a draft:
it holds the values up to the place where the text breaks off, and there a flaw or a break. What
is wrong at such a place can depend on what a reader wants, so a flaw names one fault for each
kind of reader; a reader that stops earlier never meets it.

One reads a value as it is, one wants the name of a choice, one passes over
a value that nobody asked for. In an array there are readers that want the next element and
readers that have all they want.
-/

namespace CjsxConversion
namespace Json

/-- A place where a value should be but is not, or is not sound. What is reported hangs on the
reader: one that takes the value as it is, one that wants the name of a choice, or one that passes
over it and may find nothing wrong. -/
structure Flaw where
  read : Fault
  choose : Fault
  skip : Option Fault
  deriving DecidableEq, Repr

/-- A place where neither another part of a collection nor its end follows, as it is met by a reader
that wants the next part, that passes over the collection, or that wants it to end. -/
structure Break where
  next : Fault
  skip : Fault
  stop : Fault
  deriving DecidableEq, Repr

namespace Flaw

/-- A flaw that every reader meets alike. -/
def plain (f : Fault) : Flaw := ⟨f, f, some f⟩

end Flaw

namespace Break

/-- A break that every reader meets alike. -/
def plain (f : Fault) : Break := ⟨f, f, f⟩

end Break

/-- A text read as JSON. -/
inductive Draft where
  | null
  | bool (b : Bool)
  | int (n : Int)
  | float (shown : String)
  | str (s : String)
  | arr (items : List Draft) (broken : Option Break)
  | obj (members : List (Draft × Draft)) (broken : Option Break)
  | bad (flaw : Flaw)
  deriving Inhabited

/-- A whole text: its value and whether something follows it. -/
structure Document where
  value : Draft
  trailing : Bool

end Json
end CjsxConversion
