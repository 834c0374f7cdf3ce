import Gleaner.Regex.Search
import Gleaner.Fault

/-!
# Budgets of searches

A search may take up so many threads again as a limit allows, and some more for every byte of the
searched text, so that a long text is not refused for its length alone. Texts up to a certain
length are all treated alike. A budget is a 64-bit number and stays at the greatest one.
-/

namespace Gleaner.Budget

/-- The limit of a search when none is given. -/
def standardLimit : Nat := 1000000

/-- Units granted for each byte of text. -/
def unitsPerByte : Nat := 32

/-- The greatest budget. -/
def ceiling : Nat := UInt64.size - 1

/-- Patterns are kept ready with the budget of a text of this many bytes. -/
def leastBytes : Nat := 65536

/-- A budget beyond the greatest one stays there. -/
def saturate (units : Nat) : Nat :=
  min ceiling units

/-- The budget for a number of bytes. Neither what the bytes grant nor its sum with the limit
leaves the 64-bit numbers. -/
def forBytes (limit bytes : Nat) : Nat :=
  saturate (limit + saturate (bytes * unitsPerByte))

/-- The budget of one search in a text. It is reckoned anew only for a text of more bytes than the
patterns are ready for. -/
def forText (limit : Nat) (text : Array Char) : Nat :=
  let bytes := text.foldl (fun bytes c => bytes + c.utf8Size) 0
  if bytes ≤ leastBytes then forBytes limit leastBytes else forBytes limit bytes

end Gleaner.Budget

namespace Gleaner

/-- The non-empty matches of a pattern in a text, within the budget that a limit gives. -/
def Regex.findAll (regex : Regex) (limit : Nat) (text : Array Char) : Except Fault (List Match) :=
  match regex.matchesIn text (Budget.forText limit text) with
  | .ok found => .ok found
  | .error .outOfBudget => .error (.failedSearch .outOfBudget)
  | .error .outOfRoom => .error (.failedSearch .outOfRoom)

end Gleaner
