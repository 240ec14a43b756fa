import CjsxConversion.StandIn.Transforms

/-!
# Stand-in transformers with a memory

A script is replayed answer by answer and then echoes what it is given. A recorder keeps every
request that it sees. Both work on a memory of their own.
-/

namespace CjsxConversion

/-- What a stand-in remembers. -/
structure StandInMemory where
  script : List (Except String String) := []
  seen : List Request := []

/-- A stand-in for a tool. It replays the script in its memory, refuses everything with one message,
or answers by a function; a recording one keeps every request as well. -/
inductive StandIn where
  | scripted
  | failing (message : String)
  | recording (f : Request → Except String String)
  | inProcess (name : String) (f : Request → Except String String)

namespace StandIn

def describe : StandIn → String
  | .scripted => "scripted"
  | .failing _ => "failing"
  | .recording _ => "recording"
  | .inProcess name _ => "in-process:" ++ name

/-- The next answer of a script, or what was asked where none is left. -/
def replay : Transformer StandInMemory := fun r m =>
  match m.script with
  | .ok text :: rest => (.ok text, { m with script := rest })
  | .error message :: rest => (.error (.raised message), { m with script := rest })
  | [] => (.ok r.text, m)

def transformer : StandIn → Transformer StandInMemory
  | .scripted => replay
  | .failing message => .ofFunction fun _ => .error message
  | .recording f => fun r m => Transformer.ofFunction f r { m with seen := m.seen ++ [r] }
  | .inProcess _ f => .ofFunction f

/-- The stand-in that is used for a stage where no other is given. -/
def usual (s : Stage) : StandIn :=
  .inProcess (toolName s) (forStage s)

end StandIn
end CjsxConversion
