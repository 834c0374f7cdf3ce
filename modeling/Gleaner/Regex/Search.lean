import Gleaner.Regex.Machine

/-!
# Searching a text

A search tries the places of a text from left to right and stops at the first where the pattern
matches. One budget serves the whole search, and leaving a place costs one unit of it, also the last
one. While a place is tried, the next one is put aside and takes the room of a thread.

All matches of a text are found one after the other: each search begins where the last match
ended, or one character further if that match was empty. Empty matches are not reported.
-/

namespace Gleaner

/-- A match of a whole pattern, with the groups it passed through. -/
structure Match where
  start : Nat
  stop : Nat
  captures : List Capture
deriving DecidableEq, Repr, Inhabited

namespace Match

def isEmpty (found : Match) : Bool :=
  found.stop ≤ found.start

/-- The part of the text that a group matched last, if it took part in the match. -/
def group? (found : Match) (text : Array Char) (name : GroupName) : Option (Array Char) :=
  (found.captures.find? fun capture => capture.name = name).map fun capture =>
    text.extract capture.start capture.stop

end Match

/-- Why a search has no answer. -/
inductive SearchError where
  | outOfBudget
  | outOfRoom
deriving DecidableEq, Repr, Inhabited

/-- The number of ways of matching that a search can put aside at a time. -/
def searchRoom : Nat := 1000000

namespace Regex

/-- The first match that begins at `pos` or later. -/
def searchFrom (regex : Regex) (text : Array Char) (budget pos : Nat) :
    Except SearchError (Option Match) :=
  match regex.matchAt text budget (searchRoom - 1) pos with
  | .matched stop captures => .ok (some ⟨pos, stop, captures⟩)
  | .exhausted => .error .outOfBudget
  | .crowded => .error .outOfRoom
  | .failed left =>
    -- The next place was put aside even where there is none, and is paid for when it is taken up.
    match left with
    | 0 => .error .outOfBudget
    | left + 1 => if pos < text.size then searchFrom regex text left (pos + 1) else .ok none
termination_by text.size - pos

/-- The non-empty matches found from `pos` on, after those already `found`, last first. -/
def matchesFrom (regex : Regex) (text : Array Char) (budget pos : Nat) (found : List Match) :
    Except SearchError (List Match) :=
  if pos ≤ text.size then
    match regex.searchFrom text budget pos with
    | .error error => .error error
    | .ok none => .ok found.reverse
    | .ok (some next) =>
      -- A match never ends before the place where its search began.
      if next.isEmpty then matchesFrom regex text budget (max pos next.stop + 1) found
      else matchesFrom regex text budget (max (pos + 1) next.stop) (next :: found)
  else .ok found.reverse
termination_by text.size + 1 - pos

/-- The non-empty matches of a pattern in a text, from left to right. -/
def matchesIn (regex : Regex) (text : Array Char) (budget : Nat) :
    Except SearchError (List Match) :=
  regex.matchesFrom text budget 0 []

end Regex

end Gleaner
