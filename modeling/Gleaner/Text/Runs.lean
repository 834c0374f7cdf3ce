/-!
# Runs of characters

A class of characters that a standard fixes is given by a table: the runs of code points that
belong to it, each by its two ends, which are included.
-/

namespace Gleaner

/-- Whether a character is in one of some runs. -/
def inRuns (runs : List (Nat × Nat)) (c : Char) : Bool :=
  runs.any fun (first, last) => first ≤ c.toNat && c.toNat ≤ last

end Gleaner
