import CjsxConversion.Text.Narrow

/-!
# Options of programs

The words that a program is given are options and operands. A short option is a letter behind a
dash, and several may stand behind one; a long option is a name behind two dashes, which may be cut
short as long as no other one begins like it. An option may have an argument. Two dashes end the
options; the other operands may stand between them.
-/

namespace CjsxConversion

/-- Whether an option has an argument. -/
inductive OptionArity where
  | none
  | one
  | maybe
  deriving DecidableEq, Repr

/-- An option as it was given: its letter and its argument. -/
structure GivenOption where
  letter : Char
  argument : Option Narrow := .none
  deriving DecidableEq, Repr

/-- The options of a program. -/
structure OptionTable where
  short : List (Char × OptionArity)
  long : List (String × OptionArity × Char) := []
  inFront : Bool := false

/-- What is wrong with an option. -/
inductive OptionFault where
  | invalid (c : Char)
  | unrecognized (word : Narrow)
  | ambiguous (word : Narrow) (possible : List String)
  | missing (c : Char)
  | missingLong (name : String)
  | unwanted (name : String)
  deriving Repr

namespace OptionFault

def message : OptionFault → Narrow
  | .invalid c => "invalid option -- '".toList ++ [c, '\'']
  | .unrecognized w => "unrecognized option '--".toList ++ w ++ ['\'']
  | .ambiguous w possible =>
    "option '--".toList ++ w ++ "' is ambiguous; possibilities:".toList
      ++ possible.flatMap fun n => " '--".toList ++ n.toList ++ ['\'']
  | .missing c => "option requires an argument -- '".toList ++ [c, '\'']
  | .missingLong n => "option '--".toList ++ n.toList ++ "' requires an argument".toList
  | .unwanted n => "option '--".toList ++ n.toList ++ "' doesn't allow an argument".toList

end OptionFault

/-- What was read of the words of a program. -/
structure OptionReading where
  options : List GivenOption := []
  operands : List Narrow := []
  fault : Option OptionFault := .none
  deriving Repr

namespace OptionReading

def withOption (o : GivenOption) (r : OptionReading) : OptionReading :=
  { r with options := o :: r.options }

def withOperand (w : Narrow) (r : OptionReading) : OptionReading :=
  { r with operands := w :: r.operands }

def failing (f : OptionFault) : OptionReading := { fault := some f }

end OptionReading

namespace OptionTable

/-- The long options that a name may be short for. -/
def candidates (t : OptionTable) (name : Narrow) : List (String × OptionArity × Char) :=
  match t.long.find? fun e => e.1.toList = name with
  | some e => [e]
  | none => t.long.filter fun e => Narrow.startsWith name e.1.toList

/-- Reads letters behind a dash, and the words behind them with a given reader. -/
def readLetters (t : OptionTable) (readWords : List Narrow → OptionReading) :
    Narrow → List Narrow → OptionReading
  | [], ws => readWords ws
  | c :: cs, ws =>
    match t.short.find? fun e => e.1 = c with
    | none => .failing (.invalid c)
    | some (_, .none) => (t.readLetters readWords cs ws).withOption ⟨c, none⟩
    | some (_, .maybe) =>
      (readWords ws).withOption ⟨c, if cs = [] then none else some cs⟩
    | some (_, .one) =>
      match cs, ws with
      | [], [] => .failing (.missing c)
      | [], w :: ws => (readWords ws).withOption ⟨c, some w⟩
      | cs, ws => (readWords ws).withOption ⟨c, some cs⟩

/-- Reads a long option, and the words behind it with a given reader. -/
def readLong (t : OptionTable) (readWords : List Narrow → OptionReading) (word : Narrow)
    (ws : List Narrow) : OptionReading :=
  let name := word.takeWhile (· ≠ '=')
  let argument? : Option Narrow := if word.contains '=' then some (word.drop (name.length + 1)) else none
  match t.candidates name with
  | [] => .failing (.unrecognized word)
  | (long, arity, letter) :: others =>
    if others.any fun e => e.2 ≠ (arity, letter) then
      .failing (.ambiguous word ((long, arity, letter) :: others |>.map (·.1)))
    else
      match arity, argument?, ws with
      | .none, some _, _ => .failing (.unwanted long)
      | .one, none, [] => .failing (.missingLong long)
      | .one, none, w :: ws => (readWords ws).withOption ⟨letter, some w⟩
      | _, a, ws => (readWords ws).withOption ⟨letter, a⟩

/-- Reads words, within a bound on their number. -/
def readWithin (t : OptionTable) : Nat → List Narrow → OptionReading
  | 0, ws => { operands := ws }
  | _ + 1, [] => {}
  | n + 1, w :: ws =>
    match w with
    | ['-', '-'] => { operands := ws }
    | '-' :: '-' :: name => t.readLong (t.readWithin n) name ws
    | '-' :: c :: cs => t.readLetters (t.readWithin n) (c :: cs) ws
    | w => if t.inFront then { operands := w :: ws } else (t.readWithin n ws).withOperand w

/-- Reads the words that a program is given. -/
def read (t : OptionTable) (ws : List Narrow) : OptionReading :=
  t.readWithin (ws.length + 1) ws

end OptionTable
end CjsxConversion
