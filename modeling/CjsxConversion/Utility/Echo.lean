import CjsxConversion.Host.Proc
import CjsxConversion.Utility.Escapes

/-!
# Writing words

`echo` writes its words in one line.
-/

namespace CjsxConversion
namespace Echo

/-- How words are written. -/
structure Manner where
  bare : Bool := false
  escapes : Bool := false
  deriving Repr

def isOption (w : Narrow) : Bool :=
  match w with
  | '-' :: c :: cs => (c :: cs).all fun c => c = 'n' || c = 'e' || c = 'E'
  | _ => false

/-- A manner after the letters of an option. -/
def Manner.add (m : Manner) (letters : Narrow) : Manner :=
  letters.foldl (fun m c =>
    match c with
    | 'n' => { m with bare := true }
    | 'e' => { m with escapes := true }
    | 'E' => { m with escapes := false }
    | _ => m) m

/-- What is written for words. -/
def text (args : List Narrow) : Narrow :=
  let options := args.takeWhile isOption
  let m := options.foldl Manner.add {}
  let line := List.intercalate [' '] (args.drop options.length)
  let (line, more, _) := if m.escapes then Escapes.textWith Escapes.ofEcho (line.length + 1) line
    else (line, true, none)
  if m.bare ∨ more = false then line else line ++ ['\n']

def run (name : Narrow) (args : List Narrow) : Job Nat := Job.finish name (text args) 0 1

end Echo
end CjsxConversion
