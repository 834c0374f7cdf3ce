import Gleaner.Line.Basic
import Gleaner.Token.Pattern
import Gleaner.WordBoundary

/-!
# Patterns of lines

The pattern of a line matches one whole physical line: from a line start to a line end, with gaps
at both ends. Numerals are matched as whole words, except on a side where a token is glued to
them. Consecutive lines of a section may be divided by one line feed; as each of them begins at a
line start, two lines that are not empty always are.
-/

namespace Gleaner

open Regex

/-- The start of the text, or a place behind a line feed. -/
def lineStart : Regex :=
  group .bundle (alt textStart (look .before true .lineBreak))

/-- The end of the text, or a place before a line feed. -/
def lineEnd : Regex :=
  group .bundle (alt textEnd (look .after true .lineBreak))

/-- The line feed between two lines of a section. -/
def lineJoint : Regex :=
  optional (char .lineBreak)

/-- The gap at either end of a line. -/
def margin : Regex :=
  Spacing.separator .optional

/-- A group that keeps the match of a token. -/
structure Slot where
  index : Nat
  content : Content
  quantity : Quantity
deriving DecidableEq, Repr, Inhabited

def Slot.name (slot : Slot) : GroupName :=
  .slot slot.index

/-- The pattern of a line or of a sequence of lines. -/
structure LinePattern where
  regex : Regex
  /-- The first group number that is still free. -/
  nextGroup : Nat
  /-- Whether every line may be missing, so that the pattern can match nothing at all. -/
  optional : Bool
  slots : List Slot
deriving DecidableEq, Repr, Inhabited

namespace PlacedToken

/-- The slot of a token that was given a group. -/
def slot? (placed : PlacedToken) : Option Slot :=
  placed.slot.map fun index => ⟨index, placed.token.content, placed.token.quantity⟩

/-- The pattern of a token with its word boundaries; `glued` says that the token before it joins
it without one. -/
def bounded (glued : Bool) (placed : PlacedToken) : Regex :=
  let bounded := placed.token.isWordBounded
  concat
    [if bounded && !glued then WordBoundary.opening else .empty,
      placed.pattern,
      if bounded && !placed.token.joinsNext then WordBoundary.closing else .empty]

/-- The pattern of the tokens of a line, with the gaps between them. -/
def patternOf (glued : Bool) : List PlacedToken → Regex
  | [] => .empty
  | [last] => last.bounded glued
  | placed :: rest =>
    concat [placed.bounded glued, placed.token.spacing.separator,
      patternOf placed.token.joinsNext rest]

end PlacedToken

namespace Line

/-- The pattern of a line that is not missing. -/
def wholeRegex (placed : List PlacedToken) : Regex :=
  concat [lineStart, margin, PlacedToken.patternOf false placed,
    if placed.isEmpty then .empty else margin, lineEnd]

/-- The pattern of a line whose groups are numbered from `start` on. -/
def pattern (line : Line) (allowCapture : Bool) (start : Nat) : LinePattern :=
  let placed := placeTokens allowCapture start line.tokens
  let whole := wholeRegex placed
  { regex := if line.optional then .optional (group .bundle whole) else whole
    nextGroup := groupAfter start (groupCount allowCapture line.tokens)
    optional := line.optional
    slots := placed.filterMap PlacedToken.slot? }

/-- The pattern of a sequence of lines with one numbering of their groups. -/
def sequence (allowCapture : Bool) (start : Nat) : List Line → LinePattern
  | [] => ⟨.empty, start, true, []⟩
  | [last] => last.pattern allowCapture start
  | line :: rest =>
    let first := line.pattern allowCapture start
    let others := sequence allowCapture first.nextGroup rest
    { regex := concat [first.regex, lineJoint, others.regex]
      nextGroup := others.nextGroup
      optional := first.optional && others.optional
      slots := first.slots ++ others.slots }

end Line

/-- Reads the lines of a section, of which there must be some. -/
def parseLines (texts : List String) : Except Fault (List Line) :=
  if texts.isEmpty then .error (.badSection .noLines) else texts.mapM Line.parse

/-- The pattern of a written line. -/
def compileLine (text : String) (allowCapture : Bool) (start : Nat) : Except Fault LinePattern :=
  (Line.parse text).map fun line => line.pattern allowCapture start

/-- The pattern of a written sequence of lines. -/
def compileLines (texts : List String) (allowCapture : Bool) (start : Nat) :
    Except Fault LinePattern :=
  (parseLines texts).map fun lines => Line.sequence allowCapture start lines

end Gleaner
