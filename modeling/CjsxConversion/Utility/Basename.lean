import CjsxConversion.Host.Proc
import CjsxConversion.Utility.Options

/-!
# Last components of paths

`basename` writes the last component of a path, without a suffix if it has one.
-/

namespace CjsxConversion
namespace Basename

/-- The last component of a path. -/
def base (path : Narrow) : Narrow :=
  let trimmed := (path.reverse.dropWhile (· = '/')).reverse
  if trimmed = [] then path.take 1
  else (trimmed.reverse.takeWhile (· ≠ '/')).reverse

/-- A name without a suffix, unless it is nothing but the suffix. -/
def without (suffix name : Narrow) : Narrow :=
  if suffix ≠ [] ∧ name ≠ suffix ∧ Narrow.endsWith suffix name then
    name.take (name.length - suffix.length)
  else name

def table : OptionTable where
  short := [('a', .none), ('s', .one), ('z', .none)]
  long := [("multiple", .none, 'a'), ("suffix", .one, 's'), ("zero", .none, 'z')]
  inFront := true

def run (name : Narrow) (args : List Narrow) : Job Nat := do
  let r := table.read args
  match r.fault with
  | some fault => Job.misuse name fault.message 1
  | none =>
    let suffix? := (r.options.reverse.find? fun o => o.letter = 's').bind (·.argument)
    let many := suffix?.isSome || r.options.any fun o => o.letter = 'a'
    let ending := if r.options.any fun o => o.letter = 'z' then '\x00' else '\n'
    match r.operands with
    | [] => Job.misuse name "missing operand".toList 1
    | paths =>
      if many then
        let text := paths.flatMap fun p => without (suffix?.getD []) (base p) ++ [ending]
        Job.finish name text 0 1
      else
        match paths with
        | _ :: _ :: extra :: _ => Job.misuse name ("extra operand ".toList ++ Quoting.phrase extra) 1
        | path :: rest =>
          Job.finish name (without (rest.head?.getD []) (base path) ++ [ending]) 0 1
        | [] => return 0

end Basename
end CjsxConversion
