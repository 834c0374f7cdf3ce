import Gleaner.Text.Place

/-!
# Faults

Everything that can be wrong with a description, and everything that can go wrong when it is put
to use. A fault says what is wrong; its wording is given by `Fault.message` alone.
-/

namespace Gleaner

/-- Why a line of a description is no line. -/
inductive LineCause where
  | unterminatedQuote
  | danglingEscape
  | misplacedMarker
  /-- A cause that a caller states in words. -/
  | stated (text : String)
deriving DecidableEq, Repr, Inhabited

def LineCause.message : LineCause → String
  | .unterminatedQuote => "unterminated quote"
  | .danglingEscape => "dangling escape"
  | .misplacedMarker => "optional-line marker `?` must be the first token"
  | .stated text => text

/-- Why a section cannot be used. -/
inductive SectionCause where
  | bodyRequired
  | noLines
  | stated (text : String)
deriving DecidableEq, Repr, Inhabited

def SectionCause.message : SectionCause → String
  | .bodyRequired => "body is required"
  | .noLines => "line sequence is empty"
  | .stated text => text

/-- Why a search was given up. -/
inductive SearchCause where
  | outOfBudget
  | outOfRoom
  | stated (text : String)
deriving DecidableEq, Repr, Inhabited

def SearchCause.message : SearchCause → String
  | .outOfBudget => "Error executing regex: Max limit for backtracking count exceeded"
  | .outOfRoom => "Error executing regex: Max stack size exceeded for backtracking"
  | .stated text => text

/-- Something wrong with a description or its use. -/
inductive Fault where
  /-- A word of a line is no token; the place is known if the word was read from a line. -/
  | badToken (token : String) (location : Option Location)
  | badLine (cause : LineCause) (location : Location)
  | badSection (cause : SectionCause)
  /-- A pattern is beyond what can be run. -/
  | refusedPattern (pattern reason : String)
  | failedSearch (cause : SearchCause)
  /-- A key was looked up in a list that does not have exactly one entry. -/
  | notSole (key : String) (length : Nat)
deriving DecidableEq, Repr, Inhabited

namespace Fault

def message : Fault → String
  | badToken token _ => "invalid token `" ++ token ++ "`"
  | badLine cause _ => "invalid line: " ++ cause.message
  | badSection cause => "invalid section: " ++ cause.message
  | refusedPattern _ reason => "regex engine rejected pattern: " ++ reason
  | failedSearch cause => "matching failed: " ++ cause.message
  | notSole key length =>
    "cannot pass key `" ++ key ++ "` through a capture list of length " ++ toString length

/-- The place a fault points at. -/
def location? : Fault → Option Location
  | badToken _ location => location
  | badLine _ location => some location
  | _ => none

/-- The same fault, found at a place of a line. -/
def locatedAt (fault : Fault) (location : Location) : Fault :=
  match fault with
  | badToken token _ => badToken token (some location)
  | other => other

end Fault

end Gleaner
