/-!
# Parts of a block

A block of a report has a head, a body and a tail, in this order.
-/

namespace Gleaner

/-- One of the three parts of a block. -/
inductive Part where
  | head
  | body
  | tail
deriving DecidableEq, Repr, Inhabited

/-- The key of a part in descriptions and results, and its group name in patterns. -/
def Part.key : Part → String
  | .head => "head"
  | .body => "body"
  | .tail => "tail"

/-- The parts in the order in which they stand in a block. -/
def Part.all : List Part :=
  [.head, .body, .tail]

/-- The part with a given key. -/
def Part.ofKey? (key : String) : Option Part :=
  Part.all.find? fun part => part.key = key

end Gleaner
