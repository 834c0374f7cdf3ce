import Gleaner.Capture.Value

/-!
# Stacking columns

Wide tables are often printed as a series of blocks with some columns each. Stacking joins the
rows of such blocks side by side. The result has as many rows as the shortest block; whatever is
not a list counts as an empty one.
-/

namespace Gleaner.Value

/-- The least of some numbers, or 0 if there are none. -/
def least : List Nat → Nat
  | [] => 0
  | [n] => n
  | n :: rest => min n (least rest)

/-- One row from the rows with the same number of several tables. -/
def stackRow (tables : List (List Value)) (row : Nat) : Value :=
  .list (tables.flatMap fun table => (table[row]?.map items).getD [])

/-- Joins the rows of tables side by side. -/
def stackColumns (blocks : List Value) : Value :=
  let tables := blocks.map items
  .list ((List.range (least (tables.map List.length))).map (stackRow tables))

end Gleaner.Value
