import CjsxConversion.Text.Narrow

/-!
# Sets of characters in patterns

A set of characters is written between brackets: single characters, ranges and classes. It may
stand for the characters that are not in it.
-/

namespace CjsxConversion

/-- A part of a set of characters. -/
inductive CharItem where
  | one (c : Char)
  | range (a b : Char)
  | named (name : Narrow)
  deriving DecidableEq, Repr

namespace CharItem

/-- Whether a character belongs to a part of a set. -/
def has (i : CharItem) (c : Char) : Bool :=
  match i with
  | .one d => c = d
  | .range a b => a.toNat ≤ c.toNat && c.toNat ≤ b.toNat
  | .named name => ((Narrow.class? name).getD fun _ => false) c

end CharItem

/-- A set of characters. -/
structure CharSet where
  negated : Bool := false
  items : List CharItem
  deriving DecidableEq, Repr

namespace CharSet

def lists (s : CharSet) (c : Char) : Bool := s.items.any fun i => i.has c

def mem (s : CharSet) (c : Char) : Bool := s.lists c != s.negated

/-- Whether a character of either case is in a set. -/
def memAnyCase (s : CharSet) (c : Char) : Bool :=
  (s.lists c || s.lists (Narrow.otherCase c)) != s.negated

end CharSet
end CjsxConversion
