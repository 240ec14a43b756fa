import CjsxConversion.Shell.State

/-!
# Options of commands

The options of a command of the shell are letters behind dashes. Two dashes end them, and so does
the first word that does not begin with one.
-/

namespace CjsxConversion
namespace Shell

/-- The options that a command knows: their letters, and whether they have an argument. -/
abbrev KnownOptions := List (Char × Bool)

abbrev Given := Char × Option Narrow

/-- Takes the letters of a word. An option whose argument stands in the next word comes last. -/
def takeLetters (known : KnownOptions) : Narrow → Sh (List Given × Option Char)
  | [] => return ([], none)
  | c :: cs => do
    match known.find? fun e => e.1 = c with
    | none => failWith ("Illegal option -".toList ++ [c])
    | some (_, true) => return if cs = [] then ([], some c) else ([(c, some cs)], none)
    | some (_, false) =>
      let (given, open?) ← takeLetters known cs
      return ((c, none) :: given, open?)

/-- Takes the options at the front of words, and tells what follows them. The bound is the number of
words. -/
def takeOptionsWithin (known : KnownOptions) : Nat → List Narrow → Sh (List Given × List Narrow)
  | 0, ws => return ([], ws)
  | _ + 1, [] => return ([], [])
  | n + 1, w :: ws => do
    match w with
    | ['-', '-'] => return ([], ws)
    | '-' :: c :: cs =>
      let (given, open?) ← takeLetters known (c :: cs)
      match open?, ws with
      | none, ws =>
        let (more, rest) ← takeOptionsWithin known n ws
        return (given ++ more, rest)
      | some c, [] => failWith ("No arg for -".toList ++ [c] ++ " option".toList)
      | some c, a :: ws =>
        let (more, rest) ← takeOptionsWithin known n ws
        return (given ++ (c, some a) :: more, rest)
    | w => return ([], w :: ws)

/-- Takes the options at the front of words, and tells what follows them. -/
def takeOptions (known : KnownOptions) (ws : List Narrow) : Sh (List Given × List Narrow) :=
  takeOptionsWithin known (ws.length + 1) ws

/-- The operands of a command without options. -/
def operandsOf (ws : List Narrow) : Sh (List Narrow) := return (← takeOptions [] ws).2

/-! ### Settings of the shell -/

/-- Sets an option of the shell by its letter, or takes it back. -/
def setByLetter (c : Char) (value : Bool) : Sh Unit := do
  if optionNames.any fun e => e.2 = some c then modify fun s => s.setOption c value
  else failWith ("Illegal option -".toList ++ [c])

/-- Sets an option of the shell by its name, or takes it back. -/
def setByName (name : Narrow) (value : Bool) : Sh Unit := do
  match optionNames.find? fun e => e.1.toList = name with
  | some (_, some c) => modify fun s => s.setOption c value
  | some (_, none) => return ()
  | none => failWith ("Illegal option -o ".toList ++ name)

/-- Shows the options of the shell, as a table or as commands. While the shell starts, they all
count as set. -/
def showSettings (atStart asTable : Bool) : Sh Unit := do
  let s ← get
  let isOn (e : String × Option Char) : Bool := atStart || e.2.any s.has
  if asTable then
    say ("Current option settings\n".toList ++ optionNames.flatMap fun e =>
      Narrow.padRight 16 e.1.toList ++ (if isOn e then "on\n" else "off\n").toList)
  else
    say (optionNames.flatMap fun e =>
      (if isOn e then "set -o " else "set +o ").toList ++ e.1.toList ++ ['\n'])

/-- Sets the options of a word. Tells whether a command is to follow, and what stands behind. -/
def takeSettingLetters (atStart value : Bool) :
    Narrow → List Narrow → Sh (Bool × List Narrow)
  | [], ws => return (false, ws)
  | c :: cs, ws => do
    if c = 'c' ∧ atStart then
      let (_, ws) ← takeSettingLetters atStart value cs ws
      return (true, ws)
    else if c = 'l' ∧ atStart then takeSettingLetters atStart value cs ws
    else if c = 'o' then
      match ws with
      | [] =>
        showSettings atStart value
        takeSettingLetters atStart value cs []
      | name :: ws =>
        setByName name value
        takeSettingLetters atStart value cs ws
    else
      setByLetter c value
      takeSettingLetters atStart value cs ws

/-- Sets the options at the front of words. Tells whether a command is to follow, what stands
behind, and whether that was set apart. The bound is the number of words. -/
def takeSettings (atStart : Bool) : Nat → List Narrow → Sh (Bool × List Narrow × Bool)
  | 0, ws => return (false, ws, false)
  | _ + 1, [] => return (false, [], false)
  | n + 1, w :: ws => do
    match w with
    | ['-'] =>
      if !atStart then modify fun s => (s.setOption 'x' false).setOption 'v' false
      return (false, ws, false)
    | ['-', '-'] => return (false, ws, true)
    | '-' :: cs | '+' :: cs =>
      let (command, ws) ← takeSettingLetters atStart (w.head? = some '-') cs ws
      let (more, rest, apart) ← takeSettings atStart n ws
      return (command || more, rest, apart)
    | w => return (false, w :: ws, false)

end Shell
end CjsxConversion
