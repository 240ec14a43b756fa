import CjsxConversion.Host.Proc
import CjsxConversion.Utility.Options
import CjsxConversion.Utility.Sorting.Key

/-!
# Sorting the lines of files

`sort` writes the lines of all its files in order. It can also merge files that are sorted already,
or check whether one is.

A file that cannot be read, or an option that makes no sense, stops it with status 2. A
file that is not sorted is told by status 1.
-/

namespace CjsxConversion
namespace Sorting

/-- What is done with the lines. -/
inductive Task where
  | sorting
  | merging
  | checking (tells : Bool)
  deriving DecidableEq, Repr

/-- What is wanted. -/
structure Wish where
  task : Task := .sorting
  checksTwice : Bool := false
  manner : Manner := {}
  keys : List Key := []
  separator : Option Char := none
  distinct : Bool := false
  stable : Bool := false
  nulEnds : Bool := false
  target : Option Narrow := none
  deriving Repr

/-- What is wrong with an option. -/
structure OptionTrouble where
  text : Narrow
  hint : Narrow := []
  status : Nat := 2

abbrev Reading := Except OptionTrouble

/-- A word in quotation marks. -/
def quoted (cs : Narrow) : Narrow := Quoting.always cs

def refuse {α : Type} (text : String) (word : Narrow) : Reading α :=
  .error { text := text.toList ++ quoted word }

/-! ### Keys -/

/-- A number of a key, and what follows it. Numbers that are too large stand for the last place. -/
def readCount (text : String) (cs : Narrow) : Reading (Nat × Narrow) :=
  let ds := cs.takeWhile Narrow.isDigit
  if ds = [] then refuse (text ++ ": invalid count at start of ") cs
  else .ok (Narrow.digitsValue 10 ds, cs.drop ds.length)

/-- A manner after the letters at the start of a text, and what follows them. -/
def readLetters (start ending : Bool) : Manner → Narrow → Manner × Narrow
  | m, [] => (m, [])
  | m, c :: cs =>
    match m.add start ending c with
    | some m => readLetters start ending m cs
    | none => (m, c :: cs)

def readKey (word : Narrow) : Reading Key := do
  let bad {α : Type} (text : String) : Reading α :=
    refuse (text ++ ": invalid field specification ") word
  let (field, rest) ← readCount "invalid number at field start" word
  if field = 0 then bad "field number is zero"
  let (char, rest) ← match rest with
    | '.' :: rest => do
      let (char, rest) ← readCount "invalid number after '.'" rest
      if char = 0 then bad "character offset is zero"
      pure (char - 1, rest)
    | rest => pure (0, rest)
  let (manner, rest) := readLetters true false {} rest
  match rest with
  | [] => return { start := ⟨field - 1, char⟩, manner }
  | ',' :: rest =>
    let (last, rest) ← readCount "invalid number after ','" rest
    if last = 0 then bad "field number is zero"
    let (lastChar, rest) ← match rest with
      | '.' :: rest => readCount "invalid number after '.'" rest
      | rest => pure (0, rest)
    let (manner, rest) := readLetters false true manner rest
    if rest ≠ [] then bad "stray character in field spec"
    return { start := ⟨field - 1, char⟩, ending := some ⟨last - 1, lastChar⟩, manner }
  | _ => bad "stray character in field spec"

/-- The key that a word with a plus in front defines: numbers are counted from zero there. -/
def readOldKey? (word : Narrow) : Option Key :=
  match word with
  | '+' :: rest =>
    let ds := rest.takeWhile Narrow.isDigit
    let after := rest.drop ds.length
    let (cs, after) := match after with
      | '.' :: rest => (rest.takeWhile Narrow.isDigit, rest.dropWhile Narrow.isDigit)
      | rest => ([], rest)
    let (manner, left) := readLetters true false {} after
    if ds = [] ∨ left ≠ [] then none
    else some { start := ⟨Narrow.digitsValue 10 ds, Narrow.digitsValue 10 cs⟩, manner }
  | _ => none

/-! ### Options -/

def table : OptionTable where
  short := [('b', .none), ('c', .none), ('C', .none), ('d', .none), ('f', .none), ('g', .none),
    ('h', .none), ('i', .none), ('k', .one), ('m', .none), ('M', .none), ('n', .none),
    ('o', .one), ('r', .none), ('R', .none), ('s', .none), ('S', .one), ('t', .one), ('T', .one),
    ('u', .none), ('V', .none), ('y', .one), ('z', .none)]
  long := [("ignore-leading-blanks", .none, 'b'), ("check", .maybe, 'x'),
    ("compress-program", .one, 'T'), ("debug", .none, 'D'), ("dictionary-order", .none, 'd'),
    ("ignore-case", .none, 'f'), ("files0-from", .one, 'F'), ("general-numeric-sort", .none, 'g'),
    ("ignore-nonprinting", .none, 'i'), ("key", .one, 'k'), ("merge", .none, 'm'),
    ("month-sort", .none, 'M'), ("numeric-sort", .none, 'n'),
    ("human-numeric-sort", .none, 'h'), ("version-sort", .none, 'V'), ("random-sort", .none, 'R'),
    ("random-source", .one, 'T'), ("sort", .one, 'w'), ("output", .one, 'o'),
    ("reverse", .none, 'r'), ("stable", .none, 's'), ("batch-size", .one, 'T'),
    ("buffer-size", .one, 'S'), ("field-separator", .one, 't'),
    ("temporary-directory", .one, 'T'), ("unique", .none, 'u'), ("zero-terminated", .none, 'z'),
    ("parallel", .one, 'T')]

/-- The words that a long option may have, with the letters of the same meaning. -/
def sortWords : List (String × Char) :=
  [("general-numeric", 'g'), ("human-numeric", 'h'), ("month", 'M'), ("numeric", 'n'),
   ("random", 'R'), ("version", 'V')]

def checkWords : List (String × Char) :=
  [("quiet", 'C'), ("silent", 'C'), ("diagnose-first", 'c')]

/-- The letter of a word, which may be cut short. The lines show what is possible. -/
def letterOf (option : String) (words : List (String × Char)) (lines : List String)
    (word : Narrow) : Reading Char :=
  match words.find? fun w => w.1.toList = word with
  | some w => .ok w.2
  | none =>
    match words.filter fun w => Narrow.startsWith word w.1.toList with
    | [] => .error (trouble "invalid")
    | w :: ws =>
      if ws.any fun v => v.2 ≠ w.2 then .error (trouble "ambiguous") else .ok w.2
where
  /-- The message for a word that is not possible. -/
  trouble (what : String) : OptionTrouble :=
    { text := (what ++ " argument ").toList ++ quoted word ++ (" for '" ++ option ++ "'").toList
      hint := "Valid arguments are:\n".toList
        ++ lines.flatMap fun l => ("  - " ++ l ++ "\n").toList
      status := 1 }

def readSeparator (word : Narrow) : Reading Char :=
  match word with
  | [] => .error { text := "empty tab".toList }
  | [c] => .ok c
  | ['\\', '0'] => .ok '\x00'
  | word => refuse "multi-character tab " word

/-- What is wanted after one more way of checking. -/
def Wish.check (w : Wish) (c : Char) : Wish :=
  let tells : Bool := c = 'c'
  match w.task with
  | .checking before => { w with task := .checking tells, checksTwice := before != tells }
  | _ => { w with task := .checking tells }

/-- What is wanted after one more option. -/
def Wish.add (w : Wish) (o : GivenOption) : Reading Wish := do
  let argument := o.argument.getD []
  match o.letter with
  | 'c' | 'C' => return w.check o.letter
  | 'x' =>
    match o.argument with
    | none => return w.check 'c'
    | some word =>
      return w.check (← letterOf "--check" checkWords ["'quiet', 'silent'", "'diagnose-first'"] word)
  | 'k' => return { w with keys := w.keys ++ [← readKey argument] }
  | 'm' => return { w with task := if w.task = .sorting then .merging else w.task }
  | 'o' =>
    if w.target.any fun t => t ≠ argument then
      throw { text := "multiple output files specified".toList }
    return { w with target := some argument }
  | 's' => return { w with stable := true }
  | 'S' =>
    let rest := argument.dropWhile Narrow.isDigit
    let fits : Bool := rest = [] || (rest.length = 1 && rest.all fun c => "%bKkMGTPEZYRQ".toList.contains c)
    if argument.length = rest.length ∨ !fits then refuse "invalid -S argument " argument
    return w
  | 't' =>
    let c ← readSeparator argument
    if w.separator.any fun s => s ≠ c then throw { text := "incompatible tabs".toList }
    return { w with separator := some c }
  | 'u' => return { w with distinct := true }
  | 'w' =>
    let c ← letterOf "--sort" sortWords (sortWords.map fun w => "'" ++ w.1 ++ "'") argument
    return { w with manner := (w.manner.add true true c).getD w.manner }
  | 'z' => return { w with nulEnds := true }
  | c => return { w with manner := (w.manner.add true true c).getD w.manner }

/-- The order of the lines. Keys without a manner of their own have that of all. -/
def Wish.order (w : Wish) : Order :=
  let keys := w.keys.map fun k => if k.manner = {} then { k with manner := w.manner } else k
  let keys := if keys = [] ∧ !w.manner.isPlain then [{ manner := w.manner }] else keys
  { separator := w.separator, keys
    keysOnly := w.distinct || w.stable
    reversed := w.manner.reversed }

/-- What does not go together, if something does not. -/
def Wish.conflict? (w : Wish) (operands : List Narrow) : Option Narrow :=
  let clash (letters : Narrow) : Narrow := "options '-".toList ++ letters ++ "' are incompatible".toList
  match w.order.keys.findSome? fun k => k.manner.conflict? with
  | some letters => some (clash letters)
  | none =>
    match w.task with
    | .checking tells =>
      let letter := if tells then 'c' else 'C'
      if w.checksTwice then some (clash ['c', 'C'])
      else
        match operands with
        | _ :: extra :: _ =>
          some ("extra operand ".toList ++ quoted extra ++ " not allowed with -".toList ++ [letter])
        | _ => if w.target.isSome then some (clash [letter, 'o']) else none
    | _ => none

/-! ### Lines -/

/-- Lines without those that are equal to the one before them. -/
def distinctLines (o : Order) : List Narrow → List Narrow
  | [] => []
  | l :: ls => l :: go l ls
where
  /-- The lines behind a line that are not equal to it. -/
  go (kept : Narrow) : List Narrow → List Narrow
    | [] => []
    | l :: ls => if o.compare kept l = .eq then go kept ls else l :: go l ls

def sortLines (o : Order) (ls : List Narrow) : List Narrow :=
  ls.mergeSort fun a b => o.compare a b ≠ .gt

/-- Two sequences of lines as one, the next line always being the smaller of the first ones. -/
def mergeTwo (o : Order) : List Narrow → List Narrow → List Narrow
  | [], bs => bs
  | as, [] => as
  | a :: as, b :: bs =>
    if o.compare a b = .gt then b :: mergeTwo o (a :: as) bs else a :: mergeTwo o as (b :: bs)

/-- The first line that is out of order, with its number. -/
def firstMisplaced (o : Order) (distinct : Bool) : Nat → List Narrow → Option (Nat × Narrow)
  | n, a :: b :: ls =>
    let c := o.compare a b
    if c = .gt ∨ distinct ∧ c = .eq then some (n + 1, b)
    else firstMisplaced o distinct (n + 1) (b :: ls)
  | _, _ => none

/-! ### Running -/

def stop (name text : Narrow) (status : Nat) : Job Nat := do
  Job.complain name text
  return status

/-- What is wrong with a file. -/
def trouble (what : String) (path : Narrow) (fault : OsFault) : Narrow :=
  (what ++ ": ").toList ++ Job.about path fault

def openOperand (path : Narrow) : Job (Except OsFault Nat) := do
  let p ← read
  if path = ['-'] then return (p.opening? 0).elim (.error .badDescriptor) .ok
  else p.openFile path .read

/-- Opens all operands, or tells what is wrong with the first one that cannot be opened. -/
def openAll (what closed : String) : List Narrow → Job (Except Narrow (List (Narrow × Nat)))
  | [] => return .ok []
  | path :: paths => do
    match ← openOperand path with
    | .error .badDescriptor => return .error (trouble closed path .badDescriptor)
    | .error fault => return .error (trouble what path fault)
    | .ok n =>
      match ← openAll what closed paths with
      | .error text => return .error text
      | .ok rest => return .ok ((path, n) :: rest)

/-- The lines of all open files, without their ends. -/
def readAll (lineEnd : Char) : List (Narrow × Nat) → Job (Except Narrow (List (List Narrow)))
  | [] => return .ok []
  | (path, n) :: rest => do
    match ← System.readAll n with
    | .error fault => return .error (trouble "read failed" path fault)
    | .ok text =>
      match ← readAll lineEnd rest with
      | .error text => return .error text
      | .ok files =>
        return .ok ((Narrow.linesBy lineEnd text).map (Narrow.chomp lineEnd) :: files)

def checkFile (name : Narrow) (w : Wish) (tells : Bool) (path : Narrow) : Job Nat := do
  let lineEnd := if w.nulEnds then '\x00' else '\n'
  match ← openAll "open failed" "read failed" [path] with
  | .error text => stop name text 2
  | .ok sources =>
    match ← readAll lineEnd sources with
    | .error text => stop name text 2
    | .ok files =>
      match firstMisplaced w.order w.distinct 1 files.flatten with
      | none => return 0
      | some (n, line) =>
        if tells then
          let _ ← Job.put 2 (name ++ ": ".toList ++ Quoting.name path ++ [':'] ++ Narrow.ofNat n
            ++ ": disorder: ".toList ++ line ++ [lineEnd])
        return 1

/-- Writes lines to where they belong. -/
def deliver (name : Narrow) (target : Option Nat) (text : Narrow) : Job Nat := do
  match target with
  | some n =>
    let _ ← System.write n text
    return 0
  | none =>
    if text = [] then return 0
    match ← Job.put 1 text with
    | .ok () => return 0
    | .error fault =>
      Job.complain name ("fflush failed: 'standard output': ".toList ++ fault.sentence.toList)
      stop name "write error".toList 2

/-- Sorts or merges files. -/
def arrange (name : Narrow) (w : Wish) (paths : List Narrow) : Job Nat := do
  let lineEnd := if w.nulEnds then '\x00' else '\n'
  let closed := if w.task = .merging then "read failed" else "stat failed"
  match ← openAll "cannot read" closed paths with
  | .error text => stop name text 2
  | .ok sources =>
    match w.target with
    | some path =>
      -- The file is made before anything is read, and emptied only behind that.
      match ← (← read).openFile path .append with
      | .error fault => return ← stop name (trouble "open failed" path fault) 2
      | .ok _ => pure ()
    | none => pure ()
    match ← readAll lineEnd sources with
    | .error text => stop name text 2
    | .ok files =>
      let o := w.order
      let lines := if w.task = .merging then files.foldl (mergeTwo o) [] else sortLines o files.flatten
      let lines := if w.distinct then distinctLines o lines else lines
      let text := lines.flatMap fun l => l ++ [lineEnd]
      match w.target with
      | none => deliver name none text
      | some path =>
        match ← (← read).openFile path .overwrite with
        | .error fault => stop name (trouble "open failed" path fault) 2
        | .ok n => deliver name (some n) text

def run (name : Narrow) (args : List Narrow) : Job Nat := do
  let given := table.read args
  match given.options.foldlM Wish.add ({} : Wish) with
  | .error t =>
    Job.complain name t.text
    if t.hint ≠ [] then
      let _ ← Job.put 2 (t.hint ++ "Try '".toList ++ name
        ++ " --help' for more information.\n".toList)
    return t.status
  | .ok w =>
    match given.fault with
    | some fault => Job.misuse name fault.message 2
    | none =>
      let old := given.operands.filterMap readOldKey?
      let operands := given.operands.filter fun o => (readOldKey? o).isNone
      let w := { w with keys := w.keys ++ old }
      match w.conflict? operands with
      | some text => stop name text 2
      | none =>
        match w.task with
        | .checking tells => checkFile name w tells (operands.head?.getD ['-'])
        | _ => arrange name w (if operands = [] then [['-']] else operands)

end Sorting
end CjsxConversion
