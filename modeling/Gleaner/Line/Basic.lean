import Gleaner.Line.Word
import Gleaner.Token.Basic

/-!
# Lines

A line of a description is a sequence of tokens. The mark of an optional line may stand before
them and nowhere else, so it is kept apart from the tokens that match something.
-/

namespace Gleaner

/-- A line of a description: whether it may be missing, and its tokens. -/
structure Line where
  optional : Bool
  tokens : List Token
deriving DecidableEq, Repr, Inhabited

namespace Line

/-- A word of a line as a token, together with its place. -/
def readToken (line : String) (word : Word) : Except Fault (Token × Span) :=
  match Token.parse (String.ofList word.text) with
  | .ok token => .ok (token, word.span)
  | .error fault => .error (fault.locatedAt ⟨line, word.span⟩)

/-- The line made of tokens found at some places; a mark after the first token is misplaced. -/
def ofTokens (line : String) (tokens : List (Token × Span)) : Except Fault Line :=
  let optional := tokens.head?.any fun found => found.1.isOptionalLine
  let matching := if optional then tokens.tail else tokens
  match matching.find? fun found => found.1.isOptionalLine with
  | some (_, span) => .error (.badLine .misplacedMarker ⟨line, span⟩)
  | none => .ok ⟨optional, matching.map Prod.fst⟩

/-- Reads a line: first its words, then its tokens, then their order. -/
def parse (line : String) : Except Fault Line := do
  let words ← Word.split line
  let tokens ← words.mapM (readToken line)
  ofTokens line tokens

end Line

end Gleaner
